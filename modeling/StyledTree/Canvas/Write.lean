import StyledTree.Canvas.Basic
import StyledTree.Text.Blank
import StyledTree.Text.Grapheme
import StyledTree.Text.Width

/-!
# Writing on a canvas

Grounds are filled region by region, symbols set cell by cell, and text is
written from a cell to the right, one cluster of characters after the other.
-/

namespace StyledTree

/-- The clusters of a text as they are written. One that a terminal would take
for an instruction becomes a space. -/
def glyphs (text : String) : List (List Char) :=
  (Text.clusters text.toList).map fun cluster =>
    if Text.hasControl cluster then [' '] else cluster

/-- The most glyphs from the first on that together fill at most `room`
columns. One that fills no column is passed over. -/
def fitting (room : Int) : List (List Char) → List (List Char)
  | [] => []
  | glyph :: later =>
      if Text.displayWidth glyph = 0 then fitting room later
      else if Text.displayWidth glyph ≤ room then
        glyph :: fitting (room - Text.displayWidth glyph) later
      else []

theorem fitting_cons (room : Int) (glyph : List Char) (later : List (List Char)) :
    fitting room (glyph :: later) =
      if Text.displayWidth glyph ≤ room then
        glyph :: fitting (room - Text.displayWidth glyph) later
      else [] := by
  rw [fitting, if_neg (Nat.ne_of_gt (Text.displayWidth_pos glyph))]

/-- The symbols of the cells that a glyph fills: the glyph in the first, nothing in
those that it reaches into. -/
def cellSymbols (glyph : List Char) : List String :=
  (List.range (Text.displayWidth glyph)).map fun offset =>
    if offset = 0 then String.ofList glyph else ""

theorem cellSymbols_eq (glyph : List Char) :
    cellSymbols glyph =
      String.ofList glyph :: List.replicate (Text.displayWidth glyph - 1) "" := by
  rcases Text.displayWidth_eq_one_or_two glyph with hone | htwo
  · rw [cellSymbols, hone]
    rfl
  · rw [cellSymbols, htwo]
    rfl

theorem length_cellSymbols (glyph : List Char) :
    (cellSymbols glyph).length = Text.displayWidth glyph := by
  rw [cellSymbols, List.length_map, List.length_range]

def Cell.write (cell : Cell) (symbol : String) (fg bg : Option Terminal.Color) : Cell where
  symbol := symbol
  fg := fg
  bg := bg.or cell.bg

namespace Canvas

def fillGround (canvas : Canvas) (region : Region) (color : Terminal.Color) : Canvas :=
  region.fold (fun canvas x y => canvas.modifyCell x y fun cell => { cell with bg := some color })
    canvas

theorem cell?_fillGround (canvas : Canvas) (region : Region) (color : Terminal.Color) (x y : Int) :
    (canvas.fillGround region color).cell? x y =
      if (region.x ≤ x ∧ x < region.x + region.width) ∧
          region.y ≤ y ∧ y < region.y + region.height then
        (canvas.cell? x y).map fun cell => { cell with bg := some color }
      else canvas.cell? x y :=
  cell?_fold (fun canvas x y x' y' => cell?_modifyCell canvas x y x' y' _) canvas region x y

def putSymbol (canvas : Canvas) (x y : Int) (symbol : Char) : Canvas :=
  canvas.modifyCell x y fun cell => { cell with symbol := String.singleton symbol }

theorem cell?_putSymbol (canvas : Canvas) (x y x' y' : Int) (symbol : Char) :
    (canvas.putSymbol x y symbol).cell? x' y' =
      if x' = x ∧ y' = y then
        (canvas.cell? x' y').map fun cell => { cell with symbol := String.singleton symbol }
      else canvas.cell? x' y' :=
  cell?_modifyCell ..

def writeCells (canvas : Canvas) (x y : Int) (fg bg : Option Terminal.Color) :
    List String → Canvas
  | [] => canvas
  | symbol :: later =>
      (canvas.modifyCell x y fun cell => cell.write symbol fg bg).writeCells (x + 1) y fg bg later

@[simp] theorem width_writeCells (canvas : Canvas) (x y : Int) (fg bg : Option Terminal.Color)
    (symbols : List String) : (canvas.writeCells x y fg bg symbols).width = canvas.width := by
  induction symbols generalizing canvas x with
  | nil => rfl
  | cons symbol later ih => simp [writeCells, ih]

@[simp] theorem height_writeCells (canvas : Canvas) (x y : Int) (fg bg : Option Terminal.Color)
    (symbols : List String) : (canvas.writeCells x y fg bg symbols).height = canvas.height := by
  induction symbols generalizing canvas x with
  | nil => rfl
  | cons symbol later ih => simp [writeCells, ih]

theorem cell?_writeCells (canvas : Canvas) (x y x' y' : Int) (fg bg : Option Terminal.Color)
    (symbols : List String) :
    (canvas.writeCells x y fg bg symbols).cell? x' y' =
      if y' = y ∧ x ≤ x' ∧ x' < x + symbols.length then
        (canvas.cell? x' y').map fun cell => cell.write (symbols.getD (x' - x).toNat "") fg bg
      else canvas.cell? x' y' := by
  induction symbols generalizing canvas x with
  | nil =>
      rw [if_neg (by simp only [List.length_nil]; omega)]
      rfl
  | cons symbol later ih =>
      rw [writeCells, ih, cell?_modifyCell]
      simp only [List.length_cons]
      by_cases hlater : y' = y ∧ x + 1 ≤ x' ∧ x' < x + 1 + later.length
      · have hindex : (x' - x).toNat = (x' - (x + 1)).toNat + 1 := by omega
        rw [if_pos hlater, if_neg (by omega), if_pos (by omega), hindex, List.getD_cons_succ]
      · rw [if_neg hlater]
        by_cases hfirst : x' = x ∧ y' = y
        · have hindex : (x' - x).toNat = 0 := by omega
          rw [if_pos hfirst, if_pos (by omega), hindex, List.getD_cons_zero]
        · rw [if_neg hfirst, if_neg (by omega)]

/-- The symbols of the cells from `x` on that a text fills, where `maxWidth`
columns are free for it. The text ends at the right edge of the canvas at the
latest, and before a glyph of which only a part would fit. -/
def textSymbols (canvas : Canvas) (x y maxWidth : Int) (text : String) : List String :=
  if y < 0 ∨ canvas.height ≤ y ∨ maxWidth ≤ 0 then []
  else
    (fitting (min (x + maxWidth) canvas.width - x) (glyphs text)).flatMap cellSymbols

/-- Writes a text and tells how many columns it fills, those that are not on the
canvas included. -/
def putText (canvas : Canvas) (x y maxWidth : Int) (text : String)
    (fg bg : Option Terminal.Color) : Nat × Canvas :=
  let symbols := canvas.textSymbols x y maxWidth text
  (symbols.length, canvas.writeCells x y fg bg symbols)

/-! ## Sizes -/

def SameSize (canvas other : Canvas) : Prop :=
  canvas.width = other.width ∧ canvas.height = other.height

theorem SameSize.trans {a b c : Canvas} (hab : a.SameSize b) (hbc : b.SameSize c) :
    a.SameSize c :=
  ⟨hab.1.trans hbc.1, hab.2.trans hbc.2⟩

theorem SameSize.symm {a b : Canvas} (h : a.SameSize b) : b.SameSize a := ⟨h.1.symm, h.2.symm⟩

theorem SameSize.exists_cell {a b : Canvas} (h : a.SameSize b) {x y : Int} {cell : Cell}
    (hcell : a.cell? x y = some cell) : ∃ cell', b.cell? x y = some cell' := by
  have hbounds := (cell?_isSome_iff a x y).mp (Option.isSome_of_eq_some hcell)
  rw [h.1, h.2] at hbounds
  exact Option.isSome_iff_exists.mp ((cell?_isSome_iff b x y).mpr hbounds)

theorem sameSize_fillGround (canvas : Canvas) (region : Region) (color : Terminal.Color) :
    (canvas.fillGround region color).SameSize canvas := by
  refine Region.fold_keeps (motive := (SameSize · canvas)) (fun acc x y hacc => ?_)
    region ⟨rfl, rfl⟩
  exact SameSize.trans ⟨width_modifyCell .., height_modifyCell ..⟩ hacc

theorem sameSize_putSymbol (canvas : Canvas) (x y : Int) (symbol : Char) :
    (canvas.putSymbol x y symbol).SameSize canvas :=
  ⟨width_modifyCell .., height_modifyCell ..⟩

theorem sameSize_putText (canvas : Canvas) (x y maxWidth : Int) (text : String)
    (fg bg : Option Terminal.Color) : (canvas.putText x y maxWidth text fg bg).2.SameSize canvas :=
  ⟨width_writeCells .., height_writeCells ..⟩

end Canvas

end StyledTree
