import Mathlib.Algebra.GroupWithZero.Nat
import StyledTree.Canvas.Write

/-!
# Glyphs in cells

How many columns glyphs fill, which of them fit into a line, and what lists of
symbols look like in which each wide symbol is followed by the empty one of the
cell that it covers: the symbols of every line of glyphs are of this kind.
-/

namespace StyledTree

def lineWidth (glyphs : List (List Char)) : Nat := (glyphs.map Text.displayWidth).sum

@[simp] theorem lineWidth_nil : lineWidth [] = 0 := rfl

@[simp] theorem lineWidth_cons (glyph : List Char) (later : List (List Char)) :
    lineWidth (glyph :: later) = Text.displayWidth glyph + lineWidth later := by
  simp [lineWidth]

theorem length_flatMap_cellSymbols (glyphs : List (List Char)) :
    (glyphs.flatMap cellSymbols).length = lineWidth glyphs := by
  induction glyphs with
  | nil => rfl
  | cons glyph later ih =>
      rw [List.flatMap_cons, List.length_append, length_cellSymbols, ih, lineWidth_cons]

theorem getElem?_flatMap_middle {α β : Type} (f : α → List β) (before : List α) (item : α)
    (after : List α) {part : Nat} (hpart : part < (f item).length) :
    ((before ++ item :: after).flatMap f)[(before.flatMap f).length + part]? =
      (f item)[part]? := by
  rw [List.flatMap_append, List.flatMap_cons, List.getElem?_append_right (Nat.le_add_right _ part),
    Nat.add_sub_cancel_left, List.getElem?_append_left hpart]

theorem getElem?_flatMap_cellSymbols (before : List (List Char)) (glyph : List Char)
    (after : List (List Char)) (part : Nat) (hpart : part < Text.displayWidth glyph) :
    ((before ++ glyph :: after).flatMap cellSymbols)[lineWidth before + part]? =
      (cellSymbols glyph)[part]? := by
  rw [← length_flatMap_cellSymbols]
  exact getElem?_flatMap_middle cellSymbols before glyph after
    (by rw [length_cellSymbols]; exact hpart)

theorem getElem?_cellSymbols {glyph : List Char} {part : Nat}
    (hpart : part < Text.displayWidth glyph) :
    (cellSymbols glyph)[part]? = some (if part = 0 then String.ofList glyph else "") := by
  rw [cellSymbols, List.getElem?_map, List.getElem?_range hpart, Option.map_some]

theorem exists_glyph_of_lt_lineWidth {glyphs : List (List Char)} {column : Nat}
    (hcolumn : column < lineWidth glyphs) :
    ∃ before glyph after part, glyphs = before ++ glyph :: after ∧
      column = lineWidth before + part ∧ part < Text.displayWidth glyph := by
  induction glyphs generalizing column with
  | nil => exact absurd hcolumn (Nat.not_lt_zero column)
  | cons first later ih =>
      rw [lineWidth_cons] at hcolumn
      by_cases hfirst : column < Text.displayWidth first
      · exact ⟨[], first, later, column, rfl, (Nat.zero_add column).symm, hfirst⟩
      · have hrest : column - Text.displayWidth first < lineWidth later := by omega
        obtain ⟨before, glyph, after, part, rfl, hlater, hpart⟩ := ih hrest
        exact ⟨first :: before, glyph, after, part, rfl, by rw [lineWidth_cons]; omega, hpart⟩

theorem ne_nil_of_mem_glyphs {text : String} {glyph : List Char} (h : glyph ∈ glyphs text) :
    glyph ≠ [] := by
  obtain ⟨cluster, hcluster, rfl⟩ := List.mem_map.mp h
  by_cases hcontrol : Text.hasControl cluster = true
  · rw [if_pos hcontrol]
    exact List.cons_ne_nil _ _
  · rw [if_neg hcontrol]
    exact Text.ne_nil_of_mem_clusters hcluster

/-! ## Fitting into a line -/

/-- The first of some glyphs, as many as together fill at most `room` columns. -/
structure LongestFitting (room : Int) (all shown : List (List Char)) : Prop where
  initial : shown <+: all
  fits : lineWidth shown ≤ room
  longest : ∀ other, other <+: all → lineWidth other ≤ room → other <+: shown

theorem fitting_initial (room : Int) (all : List (List Char)) : fitting room all <+: all := by
  induction all generalizing room with
  | nil => exact List.nil_prefix
  | cons glyph later ih =>
      rw [fitting_cons]
      split
      · exact List.cons_prefix_cons.mpr ⟨rfl, ih _⟩
      · exact List.nil_prefix

theorem fitting_of_nonpos {room : Int} (hroom : room ≤ 0) (all : List (List Char)) :
    fitting room all = [] := by
  cases all with
  | nil => rfl
  | cons glyph later =>
      have hpos := Text.displayWidth_pos glyph
      rw [fitting_cons, if_neg (by omega)]

theorem lineWidth_fitting_le (room : Int) (all : List (List Char)) :
    (lineWidth (fitting room all) : Int) ≤ max room 0 := by
  induction all generalizing room with
  | nil => exact Int.le_max_right room 0
  | cons glyph later ih =>
      rw [fitting_cons]
      split
      case isTrue hfits =>
        have hlater := ih (room - Text.displayWidth glyph)
        rw [lineWidth_cons]
        omega
      case isFalse => exact Int.le_max_right room 0

theorem longestFitting_fitting {room : Int} (hroom : 0 ≤ room) (all : List (List Char)) :
    LongestFitting room all (fitting room all) where
  initial := fitting_initial room all
  fits := by
    have := lineWidth_fitting_le room all
    omega
  longest := by
    intro other hinitial hfits
    induction all generalizing room other with
    | nil => exact hinitial
    | cons glyph later ih =>
        cases other with
        | nil => exact List.nil_prefix
        | cons first rest =>
            obtain ⟨rfl, hrest⟩ := List.cons_prefix_cons.mp hinitial
            rw [lineWidth_cons] at hfits
            rw [fitting_cons, if_pos (by omega)]
            exact List.cons_prefix_cons.mpr ⟨rfl, ih (by omega) rest hrest (by omega)⟩

theorem LongestFitting.unique {room : Int} {all shown shown' : List (List Char)}
    (h : LongestFitting room all shown) (h' : LongestFitting room all shown') : shown = shown' :=
  (h'.longest shown h.initial h.fits).eq_of_length_le
    (h.longest shown' h'.initial h'.fits).length_le

/-! ## Symbols -/

/-- The columns that a symbol fills. The empty symbol belongs to a cell that the
symbol before it covers. -/
def symbolWidth (symbol : String) : Nat :=
  if symbol = "" then 0 else Text.displayWidth symbol.toList

theorem symbolWidth_empty : symbolWidth "" = 0 := if_pos rfl

theorem symbolWidth_eq_zero_iff (symbol : String) : symbolWidth symbol = 0 ↔ symbol = "" := by
  unfold symbolWidth
  by_cases hempty : symbol = ""
  · simp [hempty]
  · have hpos := Text.displayWidth_pos symbol.toList
    rw [if_neg hempty]
    simp only [hempty, iff_false]
    omega

theorem symbolWidth_le_two (symbol : String) : symbolWidth symbol ≤ 2 := by
  unfold symbolWidth
  split
  · exact Nat.zero_le 2
  · rcases Text.displayWidth_eq_one_or_two symbol.toList with h | h <;> omega

theorem symbolWidth_pos_iff {symbol : String} : 0 < symbolWidth symbol ↔ symbol ≠ "" := by
  rw [Nat.pos_iff_ne_zero, ne_eq, symbolWidth_eq_zero_iff]

theorem displayWidth_toList {symbol : String} (hsymbol : symbol ≠ "") :
    Text.displayWidth symbol.toList = symbolWidth symbol := (if_neg hsymbol).symm

theorem ofList_ne_empty {glyph : List Char} (hglyph : glyph ≠ []) : String.ofList glyph ≠ "" := by
  intro h
  apply hglyph
  simpa using congrArg String.toList h

theorem symbolWidth_ofList {glyph : List Char} (hglyph : glyph ≠ []) :
    symbolWidth (String.ofList glyph) = Text.displayWidth glyph := by
  rw [← displayWidth_toList (ofList_ne_empty hglyph), String.toList_ofList]

/-- Symbols of neighboring cells of which none is torn: the cells that a wide
symbol covers are there, and each empty symbol is that of such a cell. -/
inductive Tiled : List String → Prop where
  | nil : Tiled []
  | narrow {symbol : String} {later : List String} (one : symbolWidth symbol = 1)
      (rest : Tiled later) : Tiled (symbol :: later)
  | wide {symbol : String} {later : List String} (two : symbolWidth symbol = 2)
      (rest : Tiled later) : Tiled (symbol :: "" :: later)

theorem tiled_cellSymbols {glyph : List Char} (hglyph : glyph ≠ []) {later : List String}
    (rest : Tiled later) : Tiled (cellSymbols glyph ++ later) := by
  have hwidth := symbolWidth_ofList hglyph
  rcases Text.displayWidth_eq_one_or_two glyph with hone | htwo
  · rw [cellSymbols_eq, hone]
    exact .narrow (hwidth.trans hone) rest
  · rw [cellSymbols_eq, htwo]
    exact .wide (hwidth.trans htwo) rest

theorem tiled_flatMap_cellSymbols {glyphs : List (List Char)}
    (hglyphs : ∀ glyph ∈ glyphs, glyph ≠ []) : Tiled (glyphs.flatMap cellSymbols) := by
  induction glyphs with
  | nil => exact .nil
  | cons glyph later ih =>
      rw [List.flatMap_cons]
      exact tiled_cellSymbols (hglyphs glyph List.mem_cons_self)
        (ih fun other hmem => hglyphs other (List.mem_cons_of_mem _ hmem))

namespace Tiled

variable {symbols : List String}

theorem sum_symbolWidth (h : Tiled symbols) :
    (symbols.map symbolWidth).sum = symbols.length := by
  induction h with
  | nil => rfl
  | narrow one rest ih =>
      rw [List.map_cons, List.sum_cons, one, ih, List.length_cons, Nat.add_comm]
  | wide two rest ih =>
      rw [List.map_cons, List.map_cons, List.sum_cons, List.sum_cons, two, symbolWidth_empty, ih,
        List.length_cons, List.length_cons]
      omega

theorem covered (h : Tiled symbols) {i : Nat} {symbol : String}
    (hsymbol : symbols[i]? = some symbol) (hwide : symbolWidth symbol = 2) :
    symbols[i + 1]? = some "" := by
  induction h generalizing i with
  | nil => cases hsymbol
  | narrow one rest ih =>
      cases i with
      | zero =>
          cases hsymbol
          omega
      | succ i => exact ih hsymbol
  | wide two rest ih =>
      cases i with
      | zero => rfl
      | succ i =>
          cases i with
          | zero =>
              cases hsymbol
              rw [symbolWidth_empty] at hwide
              omega
          | succ i => exact ih hsymbol

theorem lead (h : Tiled symbols) {i : Nat} (hempty : symbols[i]? = some "") :
    ∃ j symbol, i = j + 1 ∧ symbols[j]? = some symbol ∧ symbolWidth symbol = 2 := by
  induction h generalizing i with
  | nil => cases hempty
  | narrow one rest ih =>
      cases i with
      | zero =>
          cases hempty
          rw [symbolWidth_empty] at one
          omega
      | succ i =>
          obtain ⟨j, symbol, rfl, hsymbol, hwide⟩ := ih hempty
          exact ⟨j + 1, symbol, rfl, hsymbol, hwide⟩
  | wide two rest ih =>
      cases i with
      | zero =>
          cases hempty
          rw [symbolWidth_empty] at two
          omega
      | succ i =>
          cases i with
          | zero => exact ⟨0, _, rfl, rfl, two⟩
          | succ i =>
              obtain ⟨j, symbol, rfl, hsymbol, hwide⟩ := ih hempty
              exact ⟨j + 2, symbol, rfl, hsymbol, hwide⟩

end Tiled

/-- The same place by place: after a wide symbol comes the empty one, and nowhere
else is there an empty one. -/
structure Untorn (symbols : List String) : Prop where
  covered : ∀ i symbol, symbols[i]? = some symbol → symbolWidth symbol = 2 →
    symbols[i + 1]? = some ""
  lead : ∀ i, symbols[i]? = some "" →
    ∃ j symbol, i = j + 1 ∧ symbols[j]? = some symbol ∧ symbolWidth symbol = 2

namespace Untorn

theorem tail_of_narrow {symbol : String} {later : List String} (h : Untorn (symbol :: later))
    (one : symbolWidth symbol = 1) : Untorn later where
  covered i symbol hsymbol hwide := h.covered (i + 1) symbol hsymbol hwide
  lead i hempty := by
    obtain ⟨j, lead, hj, hlead, hwide⟩ := h.lead (i + 1) hempty
    obtain rfl := Nat.succ.inj hj
    cases i with
    | zero =>
        cases hlead
        omega
    | succ i => exact ⟨i, lead, rfl, hlead, hwide⟩

theorem tail_of_wide {symbol : String} {later : List String}
    (h : Untorn (symbol :: "" :: later)) : Untorn later where
  covered i symbol hsymbol hwide := h.covered (i + 2) symbol hsymbol hwide
  lead i hempty := by
    obtain ⟨j, lead, hj, hlead, hwide⟩ := h.lead (i + 2) hempty
    obtain rfl := Nat.succ.inj hj
    cases i with
    | zero =>
        cases hlead
        rw [symbolWidth_empty] at hwide
        omega
    | succ i => exact ⟨i, lead, rfl, hlead, hwide⟩

theorem tiled {symbols : List String} (h : Untorn symbols) : Tiled symbols := by
  match symbols with
  | [] => exact .nil
  | symbol :: later =>
      have hle := symbolWidth_le_two symbol
      by_cases hone : symbolWidth symbol = 1
      · exact .narrow hone (h.tail_of_narrow hone).tiled
      · by_cases htwo : symbolWidth symbol = 2
        · have hnext : later[0]? = some "" := h.covered 0 symbol rfl htwo
          match later with
          | [] => cases hnext
          | next :: rest =>
              cases hnext
              exact .wide htwo h.tail_of_wide.tiled
        · have hempty : symbol = "" := (symbolWidth_eq_zero_iff symbol).mp (by omega)
          obtain ⟨j, -, hj, -⟩ := h.lead 0 (congrArg some hempty)
          cases hj
termination_by symbols.length

end Untorn

end StyledTree
