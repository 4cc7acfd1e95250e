import StyledTree.Canvas.Read
import StyledTree.Proofs.Canvas.Glyphs

/-!
# Edits and wide symbols

A canvas keeps a wide symbol in the first of the two cells that it fills and leaves
the symbol of the second empty. Edits look at no cell but those that they change,
so not every sequence of edits keeps wide symbols in one piece: one that replaces
half of a wide symbol, or writes the second half of one alone, tears it. The edits
that do are told apart exactly, and without them every canvas is as it should be.
-/

namespace StyledTree.Canvas

/-- One change to a canvas. -/
inductive Edit where
  | fill (region : Region) (color : Terminal.Color)
  | write (x y maxWidth : Int) (text : String) (fg bg : Option Terminal.Color)
  | place (x y : Int) (symbol : Char)
deriving Repr, DecidableEq

def edit (canvas : Canvas) : Edit → Canvas
  | .fill region color => canvas.fillGround region color
  | .write x y maxWidth text fg bg => (canvas.putText x y maxWidth text fg bg).2
  | .place x y symbol => canvas.putSymbol x y symbol

def editAll (canvas : Canvas) (edits : List Edit) : Canvas := edits.foldl edit canvas

/-! ## Symbols of cells -/

def symbol? (canvas : Canvas) (x y : Int) : Option String := (canvas.cell? x y).map Cell.symbol

theorem symbol?_isSome_iff (canvas : Canvas) (x y : Int) :
    (canvas.symbol? x y).isSome = true ↔
      0 ≤ x ∧ x < canvas.width ∧ 0 ≤ y ∧ y < canvas.height := by
  rw [symbol?, Option.isSome_map, cell?_isSome_iff]

theorem symbol?_bounds {canvas : Canvas} {x y : Int} {symbol : String}
    (h : canvas.symbol? x y = some symbol) :
    0 ≤ x ∧ x < canvas.width ∧ 0 ≤ y ∧ y < canvas.height :=
  (symbol?_isSome_iff canvas x y).mp (Option.isSome_of_eq_some h)

theorem symbol?_blank {width height : Nat} {x y : Int} {symbol : String}
    (h : (blank width height).symbol? x y = some symbol) : symbol = " " := by
  rw [symbol?, cell?_blank width height (symbol?_bounds h)] at h
  exact (Option.some.inj h).symm

theorem symbol?_fillGround (canvas : Canvas) (region : Region) (color : Terminal.Color)
    (x y : Int) : (canvas.fillGround region color).symbol? x y = canvas.symbol? x y := by
  rw [symbol?, cell?_fillGround]
  split
  · rw [Option.map_map]
    rfl
  · rfl

theorem symbol?_putSymbol (canvas : Canvas) (x y x' y' : Int) (symbol : Char) :
    (canvas.putSymbol x y symbol).symbol? x' y' =
      if x' = x ∧ y' = y then (canvas.symbol? x' y').map fun _ => String.singleton symbol
      else canvas.symbol? x' y' := by
  rw [symbol?, cell?_putSymbol, symbol?]
  split
  · rw [Option.map_map, Option.map_map]
    rfl
  · rfl

theorem symbol?_putText (canvas : Canvas) (x y maxWidth : Int) (text : String)
    (fg bg : Option Terminal.Color) (x' y' : Int) :
    let symbols := canvas.textSymbols x y maxWidth text
    (canvas.putText x y maxWidth text fg bg).2.symbol? x' y' =
      if y' = y ∧ x ≤ x' ∧ x' < x + symbols.length then
        (canvas.symbol? x' y').map fun _ => symbols.getD (x' - x).toNat ""
      else canvas.symbol? x' y' := by
  intro symbols
  rw [symbol?, putText, cell?_writeCells, symbol?]
  split
  · rw [Option.map_map, Option.map_map]
    rfl
  · rfl

theorem tiled_textSymbols (canvas : Canvas) (x y maxWidth : Int) (text : String) :
    Tiled (canvas.textSymbols x y maxWidth text) := by
  unfold textSymbols
  split
  · exact .nil
  · refine tiled_flatMap_cellSymbols fun glyph hmem => ?_
    exact ne_nil_of_mem_glyphs ((fitting_initial _ _).subset hmem)

theorem textSymbols_bounds {canvas : Canvas} {x y maxWidth : Int} {text : String}
    (h : canvas.textSymbols x y maxWidth text ≠ []) :
    x + (canvas.textSymbols x y maxWidth text).length ≤ canvas.width ∧
      0 ≤ y ∧ y < canvas.height := by
  unfold textSymbols at h ⊢
  split at h
  · exact absurd rfl h
  case isFalse hwritten =>
    rw [if_neg hwritten, length_flatMap_cellSymbols]
    by_cases hroom : min (x + maxWidth) canvas.width - x ≤ 0
    · rw [fitting_of_nonpos hroom] at h
      exact absurd rfl h
    · have := lineWidth_fitting_le (min (x + maxWidth) canvas.width - x) (glyphs text)
      omega

/-! ## Canvases with whole symbols -/

/-- After each wide symbol comes the cell that it covers, whose symbol is empty, and
no other symbol is. -/
structure Untorn (canvas : Canvas) : Prop where
  covered : ∀ x y symbol, canvas.symbol? x y = some symbol → symbolWidth symbol = 2 →
    canvas.symbol? (x + 1) y = some ""
  lead : ∀ x y, canvas.symbol? x y = some "" →
    ∃ symbol, canvas.symbol? (x - 1) y = some symbol ∧ symbolWidth symbol = 2

theorem untorn_blank (width height : Nat) : (blank width height).Untorn where
  covered x y symbol hsymbol hwide := by
    rw [symbol?_blank hsymbol] at hwide
    exact absurd hwide (by decide)
  lead x y hempty := absurd (symbol?_blank hempty) (by decide)

theorem getElem?_symbols_row (canvas : Canvas) (x y : Nat) :
    ((canvas.row y).map Cell.symbol)[x]? = canvas.symbol? x y := by
  rw [List.getElem?_map, getElem?_row]
  rfl

theorem length_row {canvas : Canvas} {y : Nat} (hy : y < canvas.height) :
    (canvas.row y).length = canvas.width := by
  have hbound : y * canvas.width + canvas.width ≤ canvas.width * canvas.height := by
    rw [← Nat.succ_mul, Nat.mul_comm canvas.width]
    exact Nat.mul_le_mul_right _ hy
  rw [row, Array.length_toList, Array.size_extract, canvas.size_cells]
  omega

namespace Untorn

variable {canvas : Canvas}

theorem tiled_row (h : canvas.Untorn) (y : Nat) : Tiled ((canvas.row y).map Cell.symbol) := by
  apply StyledTree.Untorn.tiled
  constructor
  · intro i symbol hsymbol hwide
    rw [getElem?_symbols_row] at hsymbol ⊢
    exact h.covered i y symbol hsymbol hwide
  · intro i hempty
    rw [getElem?_symbols_row] at hempty
    obtain ⟨symbol, hlead, hwide⟩ := h.lead i y hempty
    obtain ⟨j, rfl⟩ : ∃ j, i = j + 1 := ⟨i - 1, by have := symbol?_bounds hlead; omega⟩
    refine ⟨j, symbol, rfl, ?_, hwide⟩
    rw [getElem?_symbols_row, ← hlead]
    congr 1
    omega

theorem sum_symbolWidth_row (h : canvas.Untorn) {y : Nat} (hy : y < canvas.height) :
    ((canvas.row y).map fun cell => symbolWidth cell.symbol).sum = canvas.width := by
  have hsum := (h.tiled_row y).sum_symbolWidth
  rwa [List.map_map, List.length_map, length_row hy] at hsum

end Untorn

/-! ## Edits that tear no symbol -/

/-- The edit leaves no half of a wide symbol behind and makes none. A symbol takes
the place of one as wide. A text begins on no half, ends before none, and does not
begin left of the canvas with half of a wide symbol reaching onto it. -/
def Edit.Spares (canvas : Canvas) : Edit → Prop
  | fill _ _ => True
  | write x y maxWidth text _ _ =>
      let symbols := canvas.textSymbols x y maxWidth text
      symbols ≠ [] → canvas.symbol? x y ≠ some "" ∧
        canvas.symbol? (x + symbols.length) y ≠ some "" ∧
          (x < 0 → symbols[(-x).toNat]? ≠ some "")
  | place x y symbol =>
      ∀ old, canvas.symbol? x y = some old → symbolWidth old = Text.displayWidth [symbol]

/-- No edit of the sequence tears a symbol of the canvas as it is then. -/
def SparedBy (canvas : Canvas) : List Edit → Prop
  | [] => True
  | first :: later => first.Spares canvas ∧ (canvas.edit first).SparedBy later

theorem Untorn.congr {canvas changed : Canvas} (h : canvas.Untorn)
    (hsame : ∀ x y, changed.symbol? x y = canvas.symbol? x y) : changed.Untorn where
  covered := by simpa only [hsame] using h.covered
  lead := by simpa only [hsame] using h.lead

theorem symbolWidth_singleton (symbol : Char) :
    symbolWidth (String.singleton symbol) = Text.displayWidth [symbol] :=
  symbolWidth_ofList (List.cons_ne_nil symbol [])

/-! ### Placing a symbol -/

section

variable {canvas : Canvas} {x y : Int} {symbol : Char}

theorem symbol?_putSymbol_self {old : String} (hold : canvas.symbol? x y = some old) :
    (canvas.putSymbol x y symbol).symbol? x y = some (String.singleton symbol) := by
  rw [symbol?_putSymbol, if_pos ⟨rfl, rfl⟩, hold]
  rfl

theorem symbol?_putSymbol_of_ne {x' y' : Int} (hne : ¬(x' = x ∧ y' = y)) :
    (canvas.putSymbol x y symbol).symbol? x' y' = canvas.symbol? x' y' := by
  rw [symbol?_putSymbol, if_neg hne]

theorem eq_singleton_of_symbol?_putSymbol {new : String}
    (hnew : (canvas.putSymbol x y symbol).symbol? x y = some new) :
    new = String.singleton symbol ∧ ∃ old, canvas.symbol? x y = some old := by
  rw [symbol?_putSymbol, if_pos ⟨rfl, rfl⟩] at hnew
  obtain ⟨old, hold, rfl⟩ := Option.map_eq_some_iff.mp hnew
  exact ⟨rfl, old, hold⟩

theorem Untorn.putSymbol (h : canvas.Untorn) (hspares : (Edit.place x y symbol).Spares canvas) :
    (canvas.putSymbol x y symbol).Untorn where
  covered x' y' new hnew hwide := by
    by_cases hself : x' = x ∧ y' = y
    · obtain ⟨rfl, rfl⟩ := hself
      obtain ⟨rfl, old, hold⟩ := eq_singleton_of_symbol?_putSymbol hnew
      rw [symbolWidth_singleton, ← hspares old hold] at hwide
      rw [symbol?_putSymbol_of_ne (by omega)]
      exact h.covered x' y' old hold hwide
    · rw [symbol?_putSymbol_of_ne hself] at hnew
      have hnext := h.covered x' y' new hnew hwide
      by_cases hbefore : x' + 1 = x ∧ y' = y
      · -- The symbol placed would stand for a covered cell, but is not empty.
        obtain ⟨rfl, rfl⟩ := hbefore
        have hempty := hspares "" hnext
        have hpos := Text.displayWidth_pos [symbol]
        rw [symbolWidth_empty] at hempty
        omega
      · rwa [symbol?_putSymbol_of_ne hbefore]
  lead x' y' hempty := by
    by_cases hself : x' = x ∧ y' = y
    · obtain ⟨rfl, rfl⟩ := hself
      have hpos := Text.displayWidth_pos [symbol]
      rw [← symbolWidth_singleton, ← (eq_singleton_of_symbol?_putSymbol hempty).1,
        symbolWidth_empty] at hpos
      omega
    · rw [symbol?_putSymbol_of_ne hself] at hempty
      obtain ⟨lead, hlead, hwide⟩ := h.lead x' y' hempty
      by_cases hafter : x' - 1 = x ∧ y' = y
      · obtain ⟨rfl, rfl⟩ := hafter
        refine ⟨_, symbol?_putSymbol_self hlead, ?_⟩
        rw [symbolWidth_singleton, ← hspares lead hlead, hwide]
      · exact ⟨lead, (symbol?_putSymbol_of_ne hafter).trans hlead, hwide⟩

theorem Untorn.spares_of_putSymbol (h : canvas.Untorn)
    (hnew : (canvas.putSymbol x y symbol).Untorn) :
    (Edit.place x y symbol).Spares canvas := by
  intro old hold
  have hplaced : (canvas.putSymbol x y symbol).symbol? x y = some (String.singleton symbol) :=
    symbol?_putSymbol_self hold
  have hpos := Text.displayWidth_pos [symbol]
  have hnonempty : String.singleton symbol ≠ "" := by
    rw [← symbolWidth_singleton] at hpos
    intro hempty
    rw [hempty, symbolWidth_empty] at hpos
    omega
  have hnext : (canvas.putSymbol x y symbol).symbol? (x + 1) y = canvas.symbol? (x + 1) y :=
    symbol?_putSymbol_of_ne (by omega)
  have hle := symbolWidth_le_two old
  -- Both widths are 2 or neither is: the next cell is covered before and after alike.
  have hcovered : symbolWidth old = 2 ↔ Text.displayWidth [symbol] = 2 := by
    rw [← symbolWidth_singleton]
    constructor
    · intro hwide
      obtain ⟨lead, hlead, htwo⟩ := hnew.lead (x + 1) y (hnext.trans (h.covered x y old hold hwide))
      rw [Int.add_sub_cancel, hplaced] at hlead
      rwa [Option.some.inj hlead]
    · intro hwide
      obtain ⟨lead, hlead, htwo⟩ :=
        h.lead (x + 1) y (hnext.symm.trans (hnew.covered x y _ hplaced hwide))
      rw [Int.add_sub_cancel, hold] at hlead
      rwa [Option.some.inj hlead]
  have hzero : symbolWidth old ≠ 0 := by
    intro hzero
    rw [(symbolWidth_eq_zero_iff old).mp hzero] at hold
    obtain ⟨lead, hlead, hwide⟩ := h.lead x y hold
    have hkept : (canvas.putSymbol x y symbol).symbol? (x - 1) y = some lead :=
      (symbol?_putSymbol_of_ne (by omega)).trans hlead
    have hempty := hnew.covered (x - 1) y lead hkept hwide
    rw [Int.sub_add_cancel, hplaced] at hempty
    exact hnonempty (Option.some.inj hempty)
  rcases Text.displayWidth_eq_one_or_two [symbol] with hone | htwo <;> omega

end

/-! ### Writing a text -/

section

variable {canvas : Canvas} {x y maxWidth : Int} {text : String} {fg bg : Option Terminal.Color}

theorem symbol?_putText_inside {x' : Int} (hcolumn : x ≤ x' ∧ 0 ≤ x')
    (hend : x' < x + (canvas.textSymbols x y maxWidth text).length) :
    (canvas.putText x y maxWidth text fg bg).2.symbol? x' y =
      (canvas.textSymbols x y maxWidth text)[(x' - x).toNat]? := by
  have hne : canvas.textSymbols x y maxWidth text ≠ [] := by
    intro hnil
    rw [hnil, List.length_nil] at hend
    omega
  have hbounds := textSymbols_bounds hne
  obtain ⟨old, hold⟩ := Option.isSome_iff_exists.mp
    ((symbol?_isSome_iff canvas x' y).mpr ⟨hcolumn.2, by omega, hbounds.2⟩)
  rw [symbol?_putText, if_pos ⟨rfl, hcolumn.1, hend⟩, hold, Option.map_some,
    List.getD_eq_getElem?_getD, List.getElem?_eq_getElem (by omega), Option.getD_some]

theorem symbol?_putText_outside {x' y' : Int}
    (hout : ¬(y' = y ∧ x ≤ x' ∧ x' < x + (canvas.textSymbols x y maxWidth text).length)) :
    (canvas.putText x y maxWidth text fg bg).2.symbol? x' y' = canvas.symbol? x' y' := by
  rw [symbol?_putText, if_neg hout]

theorem Untorn.covered_putText (h : canvas.Untorn)
    (hspares : (Edit.write x y maxWidth text fg bg).Spares canvas) {x' y' : Int} {symbol : String}
    (hsymbol : (canvas.putText x y maxWidth text fg bg).2.symbol? x' y' = some symbol)
    (hwide : symbolWidth symbol = 2) :
    (canvas.putText x y maxWidth text fg bg).2.symbol? (x' + 1) y' = some "" := by
  have htiled := tiled_textSymbols canvas x y maxWidth text
  have hbounds := symbol?_bounds hsymbol
  by_cases hin : y' = y ∧ x ≤ x' ∧ x' < x + (canvas.textSymbols x y maxWidth text).length
  · obtain ⟨rfl, hleft, hright⟩ := hin
    rw [symbol?_putText_inside ⟨hleft, hbounds.1⟩ hright] at hsymbol
    have hnext := htiled.covered hsymbol hwide
    have hlt := (List.getElem?_eq_some_iff.mp hnext).1
    rw [symbol?_putText_inside ⟨by omega, by omega⟩ (by omega), ← hnext]
    congr 1
    omega
  · rw [symbol?_putText_outside hin] at hsymbol
    have hnext := h.covered x' y' symbol hsymbol hwide
    rw [symbol?_putText_outside, hnext]
    rintro ⟨rfl, hleft, hright⟩
    -- Only the first cell of the text has one outside before it.
    obtain rfl : x = x' + 1 := by omega
    refine (hspares ?_).1 hnext
    intro hnil
    rw [hnil, List.length_nil] at hright
    omega

theorem Untorn.lead_putText (h : canvas.Untorn)
    (hspares : (Edit.write x y maxWidth text fg bg).Spares canvas) {x' y' : Int}
    (hempty : (canvas.putText x y maxWidth text fg bg).2.symbol? x' y' = some "") :
    ∃ symbol, (canvas.putText x y maxWidth text fg bg).2.symbol? (x' - 1) y' = some symbol ∧
      symbolWidth symbol = 2 := by
  have htiled := tiled_textSymbols canvas x y maxWidth text
  have hbounds := symbol?_bounds hempty
  by_cases hin : y' = y ∧ x ≤ x' ∧ x' < x + (canvas.textSymbols x y maxWidth text).length
  · obtain ⟨rfl, hleft, hright⟩ := hin
    rw [symbol?_putText_inside ⟨hleft, hbounds.1⟩ hright] at hempty
    obtain ⟨j, symbol, hj, hlead, hwide⟩ := htiled.lead hempty
    have hedge : x' ≠ 0 := by
      rintro rfl
      refine (hspares (List.ne_nil_of_mem (List.mem_of_getElem? hempty))).2.2 (by omega) ?_
      rw [← hempty, Int.zero_sub]
    refine ⟨symbol, ?_, hwide⟩
    rw [symbol?_putText_inside ⟨by omega, by omega⟩ (by omega), ← hlead]
    congr 1
    omega
  · rw [symbol?_putText_outside hin] at hempty
    obtain ⟨symbol, hlead, hwide⟩ := h.lead x' y' hempty
    refine ⟨symbol, ?_, hwide⟩
    rw [symbol?_putText_outside, hlead]
    rintro ⟨rfl, hleft, hright⟩
    -- Only the last cell of the text has one outside after it.
    obtain rfl : x' = x + (canvas.textSymbols x y' maxWidth text).length := by omega
    refine (hspares ?_).2.1 hempty
    intro hnil
    rw [hnil, List.length_nil] at hleft
    omega

theorem Untorn.putText (h : canvas.Untorn)
    (hspares : (Edit.write x y maxWidth text fg bg).Spares canvas) :
    (canvas.putText x y maxWidth text fg bg).2.Untorn :=
  ⟨fun _ _ _ => h.covered_putText hspares, fun _ _ => h.lead_putText hspares⟩

theorem Untorn.spares_of_putText (h : canvas.Untorn)
    (hnew : (canvas.putText x y maxWidth text fg bg).2.Untorn) :
    (Edit.write x y maxWidth text fg bg).Spares canvas := by
  intro hne
  have htiled := tiled_textSymbols canvas x y maxWidth text
  have hend := (textSymbols_bounds hne).1
  have hlength := List.length_pos_iff.mpr hne
  have hkept {x' : Int} {old : String} (hold : canvas.symbol? x' y = some old)
      (hout : x' < x ∨ x + (canvas.textSymbols x y maxWidth text).length ≤ x') :
      (canvas.putText x y maxWidth text fg bg).2.symbol? x' y = some old :=
    (symbol?_putText_outside (by omega)).trans hold
  refine ⟨?_, ?_, ?_⟩
  · intro hempty
    have hbounds := symbol?_bounds hempty
    obtain ⟨lead, hlead, hwide⟩ := h.lead x y hempty
    have hfirst := hnew.covered (x - 1) y lead (hkept hlead (by omega)) hwide
    rw [Int.sub_add_cancel, symbol?_putText_inside ⟨Int.le_refl x, hbounds.1⟩ (by omega),
      Int.sub_self] at hfirst
    obtain ⟨j, -, hj, -⟩ := htiled.lead hfirst
    cases hj
  · intro hempty
    obtain ⟨lead, hlead, hwide⟩ := hnew.lead _ y (hkept hempty (by omega))
    have hbounds := symbol?_bounds hlead
    rw [symbol?_putText_inside ⟨by omega, hbounds.1⟩ (by omega)] at hlead
    have hpast := (List.getElem?_eq_some_iff.mp (htiled.covered hlead hwide)).1
    omega
  · intro hleft hhalf
    have hlt := (List.getElem?_eq_some_iff.mp hhalf).1
    have hedge : (canvas.putText x y maxWidth text fg bg).2.symbol? 0 y = some "" := by
      rw [symbol?_putText_inside ⟨by omega, Int.le_refl 0⟩ (by omega), Int.zero_sub]
      exact hhalf
    obtain ⟨lead, hlead, -⟩ := hnew.lead 0 y hedge
    have := symbol?_bounds hlead
    omega

end

/-! ### Sequences of edits -/

/-- On a canvas without torn symbols, the edits that spare them are the ones that
leave none. -/
theorem Untorn.edit_iff {canvas : Canvas} (h : canvas.Untorn) (edit : Edit) :
    (canvas.edit edit).Untorn ↔ edit.Spares canvas := by
  cases edit with
  | fill region color =>
      exact ⟨fun _ => trivial, fun _ => h.congr (symbol?_fillGround canvas region color)⟩
  | write x y maxWidth text fg bg => exact ⟨h.spares_of_putText, h.putText⟩
  | place x y symbol => exact ⟨h.spares_of_putSymbol, h.putSymbol⟩

theorem Untorn.editAll_iff {canvas : Canvas} (h : canvas.Untorn) (edits : List Edit) :
    (∀ count, (canvas.editAll (edits.take count)).Untorn) ↔ canvas.SparedBy edits := by
  induction edits generalizing canvas with
  | nil =>
      refine ⟨fun _ => trivial, fun _ count => ?_⟩
      rwa [List.take_nil]
  | cons first later ih =>
      constructor
      · intro hall
        have hfirst : (canvas.edit first).Untorn := hall 1
        exact ⟨(h.edit_iff first).mp hfirst, (ih hfirst).mp fun count => hall (count + 1)⟩
      · rintro ⟨hspares, hlater⟩ count
        cases count with
        | zero => exact h
        | succ count => exact (ih ((h.edit_iff first).mpr hspares)).mpr hlater count

theorem sameSize_edit (canvas : Canvas) (edit : Edit) : (canvas.edit edit).SameSize canvas := by
  cases edit with
  | fill region color => exact sameSize_fillGround canvas region color
  | write x y maxWidth text fg bg => exact sameSize_putText canvas x y maxWidth text fg bg
  | place x y symbol => exact sameSize_putSymbol canvas x y symbol

theorem sameSize_editAll (canvas : Canvas) (edits : List Edit) :
    (canvas.editAll edits).SameSize canvas := by
  induction edits generalizing canvas with
  | nil => exact ⟨rfl, rfl⟩
  | cons first later ih => exact (ih (canvas.edit first)).trans (sameSize_edit canvas first)

/-- A canvas that is edited from blank on keeps its symbols whole all the way exactly
if no edit tears one. Then the widths of the symbols of every row add up to that of
the canvas. -/
theorem untorn_editAll_iff_sparedBy (width height : Nat) (edits : List Edit) :
    ((∀ count, ((blank width height).editAll (edits.take count)).Untorn) ↔
      (blank width height).SparedBy edits) ∧
    ((blank width height).SparedBy edits → ∀ y, y < height →
      ((((blank width height).editAll edits).row y).map
        fun cell => symbolWidth cell.symbol).sum = width) := by
  have hiff := (untorn_blank width height).editAll_iff edits
  refine ⟨hiff, ?_⟩
  intro hspared y hy
  have hwhole := hiff.mpr hspared edits.length
  rw [List.take_length] at hwhole
  obtain ⟨hwidth, hheight⟩ := sameSize_editAll (blank width height) edits
  have hsum := hwhole.sum_symbolWidth_row (y := y) (by rw [hheight]; exact hy)
  exact hsum.trans hwidth

/-- Writing over the second half of a wide symbol leaves the first half alone. -/
theorem not_untorn_overwritten :
    ¬((blank 2 1).editAll
      [.write 0 0 2 "\u65e5" none none, .write 1 0 1 "a" none none]).Untorn := by
  intro h
  have hnext := h.covered 0 0 "\u65e5" (by decide) (by decide)
  exact absurd hnext (by decide)

end StyledTree.Canvas
