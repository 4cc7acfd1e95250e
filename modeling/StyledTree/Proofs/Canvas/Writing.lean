import Mathlib.Data.List.Nodup
import StyledTree.Proofs.Canvas.Edits

/-!
# Writing a text

A text that is written on a canvas fills a line of cells with the first of its glyphs, as
many as fit before the limit, and changes no other cell. The line may begin left of the
canvas. The number that is returned is that of its columns, so it is the number of cells
written only for a line that does not begin there.
-/

namespace StyledTree

namespace Canvas

/-- One canvas is the other with glyphs in a row, one after the other from a column on: a
symbol stands in the first of the cells that its glyph fills, and none in the second. The
cells have the colors given, but keep their ground if none is. All else is as before. -/
structure Lettered (canvas after : Canvas) (x y : Int) (shown : List (List Char))
    (fg bg : Option Terminal.Color) : Prop where
  size : after.SameSize canvas
  inside : ∀ column, x ≤ column → column < x + lineWidth shown →
    ∃ before glyph later, ∃ part : Nat, shown = before ++ glyph :: later ∧
      column = x + lineWidth before + part ∧ part < Text.displayWidth glyph ∧
        after.cell? column y = (canvas.cell? column y).map fun cell =>
          ⟨if part = 0 then String.ofList glyph else "", fg, bg.or cell.bg⟩
  outside : ∀ column row, ¬(row = y ∧ x ≤ column ∧ column < x + lineWidth shown) →
    after.cell? column row = canvas.cell? column row

theorem lettered_writeCells (canvas : Canvas) (x y : Int) (shown : List (List Char))
    (fg bg : Option Terminal.Color) :
    canvas.Lettered (canvas.writeCells x y fg bg (shown.flatMap cellSymbols)) x y shown fg bg where
  size := ⟨width_writeCells .., height_writeCells ..⟩
  inside column hleft hright := by
    have hlt : (column - x).toNat < lineWidth shown := by omega
    obtain ⟨before, glyph, later, part, rfl, hcolumn, hpart⟩ := exists_glyph_of_lt_lineWidth hlt
    refine ⟨before, glyph, later, part, rfl, by omega, hpart, ?_⟩
    have hsymbol := (getElem?_flatMap_cellSymbols before glyph later part hpart).trans
      (getElem?_cellSymbols hpart)
    rw [cell?_writeCells, length_flatMap_cellSymbols, if_pos ⟨rfl, hleft, hright⟩, hcolumn,
      List.getD_eq_getElem?_getD, hsymbol]
    rfl
  outside column row hout := by
    rw [cell?_writeCells, length_flatMap_cellSymbols, if_neg hout]

/-- The whole effect of writing a text. In a row of the canvas and with room for it, the
glyphs written are the first ones of the text, as many as end before the limit; in any
other case nothing is written. -/
theorem putText_letters (canvas : Canvas) (x y maxWidth : Int) (text : String)
    (fg bg : Option Terminal.Color) :
    let limit := min (x + maxWidth) canvas.width
    let result := canvas.putText x y maxWidth text fg bg
    (y < 0 ∨ canvas.height ≤ y ∨ maxWidth ≤ 0 → result = (0, canvas)) ∧
    (¬(y < 0 ∨ canvas.height ≤ y ∨ maxWidth ≤ 0) →
      ∃ shown, (x ≤ limit → LongestFitting (limit - x) (glyphs text) shown) ∧
        (limit < x → shown = []) ∧
        result.1 = lineWidth shown ∧ canvas.Lettered result.2 x y shown fg bg) := by
  intro limit result
  constructor
  · intro hnowhere
    simp only [result, putText, textSymbols, if_pos hnowhere]
    rfl
  · intro hsomewhere
    refine ⟨fitting (limit - x) (glyphs text), fun hroom => longestFitting_fitting (by omega) _,
      fun hnone => fitting_of_nonpos (by omega) _, ?_, ?_⟩
    · simp only [result, putText, textSymbols, if_neg hsomewhere]
      exact length_flatMap_cellSymbols _
    · simp only [result, putText, textSymbols, if_neg hsomewhere]
      exact lettered_writeCells ..

/-! ## Counting the cells written -/

/-- The text is written on a cell of the canvas: there is a color in which the cell is
another one afterwards. -/
def Reaches (canvas : Canvas) (x y maxWidth : Int) (text : String) (column row : Int) : Prop :=
  ∃ fg, (canvas.putText x y maxWidth text fg none).2.cell? column row ≠ canvas.cell? column row

/-- The cells of the canvas on which the text is written, from left to right. -/
def reached (canvas : Canvas) (x y maxWidth : Int) (text : String) : List (Int × Int) :=
  (List.range ((canvas.textSymbols x y maxWidth text).length - (-x).toNat)).map
    fun (i : Nat) => (max x 0 + i, y)

theorem nodup_reached (canvas : Canvas) (x y maxWidth : Int) (text : String) :
    (canvas.reached x y maxWidth text).Nodup := by
  refine List.Nodup.map (fun i j hij => ?_) List.nodup_range
  have hsame := congrArg Prod.fst hij
  simp only at hsame
  omega

theorem mem_reached {canvas : Canvas} {x y maxWidth : Int} {text : String} {column row : Int} :
    (column, row) ∈ canvas.reached x y maxWidth text ↔
      row = y ∧ (x ≤ column ∧ 0 ≤ column) ∧
        column < x + (canvas.textSymbols x y maxWidth text).length := by
  rw [reached, List.mem_map]
  constructor
  · rintro ⟨i, hi, heq⟩
    obtain ⟨rfl, rfl⟩ := Prod.mk.inj heq
    rw [List.mem_range] at hi
    omega
  · rintro ⟨rfl, hleft, hright⟩
    refine ⟨(column - max x 0).toNat, List.mem_range.mpr (by omega), ?_⟩
    rw [Prod.mk.injEq]
    omega

/-- In some color a cell on which the text is written is not what it was, since there is
more than one color. -/
theorem reaches_iff {canvas : Canvas} {x y maxWidth : Int} {text : String} {column row : Int} :
    canvas.Reaches x y maxWidth text column row ↔
      (column, row) ∈ canvas.reached x y maxWidth text := by
  simp only [Reaches, putText, cell?_writeCells, mem_reached]
  constructor
  · rintro ⟨fg, hchanged⟩
    split at hchanged
    case isFalse => exact absurd rfl hchanged
    case isTrue hin =>
      have hcell : (canvas.cell? column row).isSome = true := by
        cases hnone : canvas.cell? column row with
        | none => exact absurd (by rw [hnone]; rfl) hchanged
        | some cell => rfl
      exact ⟨hin.1, ⟨hin.2.1, ((cell?_isSome_iff canvas column row).mp hcell).1⟩, hin.2.2⟩
  · rintro ⟨rfl, hleft, hright⟩
    have hne : canvas.textSymbols x row maxWidth text ≠ [] :=
      List.ne_nil_of_length_pos (by omega)
    have hbounds := textSymbols_bounds hne
    obtain ⟨cell, hcell⟩ := Option.isSome_iff_exists.mp
      ((cell?_isSome_iff canvas column row).mpr ⟨hleft.2, by omega, hbounds.2⟩)
    refine ⟨if cell.fg = none then some .reset else none, ?_⟩
    rw [if_pos ⟨rfl, hleft.1, hright⟩, hcell, Option.map_some]
    intro hsame
    have hfg := congrArg Cell.fg (Option.some.inj hsame)
    simp only [Cell.write] at hfg
    split at hfg
    case isTrue hnone => rw [hnone] at hfg; cases hfg
    case isFalse hsome => exact hsome hfg.symm

/-- The number that is returned counts the cells on which the text is written and the
columns that it fills left of the canvas. -/
theorem putText_count (canvas : Canvas) (x y maxWidth : Int) (text : String)
    (fg bg : Option Terminal.Color) :
    let count := (canvas.putText x y maxWidth text fg bg).1
    let written := canvas.reached x y maxWidth text
    written.Nodup ∧
      (∀ column row, (column, row) ∈ written ↔ canvas.Reaches x y maxWidth text column row) ∧
      count = written.length + min (-x).toNat count ∧
      (count = written.length ↔ 0 ≤ x ∨ count = 0) := by
  intro count written
  have hlength : written.length = count - (-x).toNat := by
    simp only [written, reached, List.length_map, List.length_range]
    rfl
  refine ⟨nodup_reached .., fun column row => reaches_iff.symm, by omega, ?_⟩
  omega

/-- Of two columns that are counted, one is left of the canvas. -/
theorem putText_count_ne_length_reached :
    ((blank 2 1).putText (-1) 0 3 "ab" none none).1 ≠
      ((blank 2 1).reached (-1) 0 3 "ab").length := by
  decide +kernel

end Canvas

end StyledTree
