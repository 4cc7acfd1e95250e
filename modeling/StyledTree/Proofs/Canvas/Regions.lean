import Mathlib.Algebra.Order.BigOperators.Group.List
import Mathlib.Algebra.Ring.Int.Defs
import StyledTree.Proofs.Canvas.Edits
import StyledTree.Proofs.Rendering.Shift

/-!
# Regions and the cells in them

Taking cells off every side of a region leaves the cells that stay in it when they are moved
by that amount, and taking them off step by step comes to the same as all at once. Filling
and marking go over a region of the endless grid. On a canvas this changes the cells that the
region holds and no others, since each position on the canvas has a slot of its own, and the
positions beside it have none.
-/

namespace StyledTree

namespace Region

variable {region : Region} {x y amount other : Int}

/-! ## Insets -/

/-- The region does not go on beyond the last column and row that can be named. -/
def EndsNamed (region : Region) : Prop :=
  region.x + region.width ≤ lastCoordinate ∧ region.y + region.height ≤ lastCoordinate

/-- A cell that is moved to the last column or row that can be named, or beyond it, is in no
region. -/
theorem contains_moved_iff (hamount : 0 ≤ amount) :
    region.contains (x - amount) (y - amount) = true ∧
        region.contains (x + amount) (y + amount) = true ↔
      (region.inset amount).contains x y = true ∧
        x + amount < lastCoordinate ∧ y + amount < lastCoordinate := by
  simp only [contains_iff, inset, ofBounds, right, bottom]
  omega

theorem EndsNamed.moved_lt (h : region.EndsNamed)
    (hin : (region.inset amount).contains x y = true) :
    x + amount < lastCoordinate ∧ y + amount < lastCoordinate := by
  obtain ⟨hright, hbottom⟩ := h
  simp only [contains_iff, inset, ofBounds, right, bottom] at hin
  omega

theorem inset_zero (region : Region) : region.inset 0 = region := by
  simp [inset, ofBounds]

theorem inset_inset (hother : 0 ≤ other) :
    (region.inset amount).inset other = region.inset (amount + other) := by
  simp only [inset, ofBounds, Region.mk.injEq]
  omega

theorem foldl_inset (region : Region) {amounts : List Int} (h : ∀ amount ∈ amounts, 0 ≤ amount) :
    amounts.foldl inset region = region.inset amounts.sum := by
  induction amounts generalizing region with
  | nil => exact (inset_zero region).symm
  | cons amount later ih =>
      have hlater : ∀ other ∈ later, 0 ≤ other := fun other hmem => h other (.tail amount hmem)
      rw [List.foldl_cons, ih (region.inset amount) hlater, List.sum_cons,
        inset_inset (List.sum_nonneg hlater)]

/-- A region without some cells on each side holds a cell exactly if the region holds the
cells as far from it up and left, and down and right. In a region that goes on beyond the
cells that can be named, these have to be such cells. Step by step the amounts add up, also
when nothing is left of the region after some of the steps. -/
theorem inset_erodes (region : Region) :
    (region.EndsNamed → ∀ amount x y, 0 ≤ amount →
      ((region.inset amount).contains x y = true ↔
        region.contains (x - amount) (y - amount) = true ∧
          region.contains (x + amount) (y + amount) = true)) ∧
    (∀ amount x y, 0 ≤ amount →
      (region.contains (x - amount) (y - amount) = true ∧
          region.contains (x + amount) (y + amount) = true ↔
        (region.inset amount).contains x y = true ∧
          x + amount < lastCoordinate ∧ y + amount < lastCoordinate)) ∧
    ∀ amounts : List Int, (∀ amount ∈ amounts, 0 ≤ amount) →
      amounts.foldl inset region = region.inset amounts.sum := by
  refine ⟨fun hends amount x y hamount => ?_, fun amount x y => contains_moved_iff,
    fun amounts => region.foldl_inset⟩
  rw [contains_moved_iff hamount]
  exact ⟨fun hin => ⟨hin, hends.moved_lt hin⟩, And.left⟩

/-- Of five columns two steps leave one and a third step none. The rows are used up before. -/
theorem inset_erodes_narrow :
    let region : Region := ⟨-2, 1, 5, 3⟩
    region.EndsNamed ∧ (0 : Int) ≤ 1 ∧
      (region.inset 1).contains 0 2 = true ∧
      (region.contains (0 - 1) (2 - 1) = true ∧ region.contains (0 + 1) (2 + 1) = true) ∧
      (∀ amount ∈ [1, 1, 1], (0 : Int) ≤ amount) ∧
      ((region.inset 1).inset 1).isEmpty = true ∧ [1, 1, 1].foldl inset region = ⟨1, 4, 0, 0⟩ := by
  intro region
  have hends : region.EndsNamed := by constructor <;> decide
  obtain ⟨herodes, hlaw, hsum⟩ := inset_erodes region
  have hmoved : region.contains (0 - 1) (2 - 1) = true ∧ region.contains (0 + 1) (2 + 1) = true :=
    (hlaw 1 0 2 (by decide)).mpr (by decide)
  refine ⟨hends, by decide, (herodes hends 1 0 2 (by decide)).mpr hmoved, hmoved, by decide,
    by decide, ?_⟩
  rw [hsum [1, 1, 1] (by decide)]
  decide

end Region

namespace Canvas

/-! ## Slots of cells -/

/-- Each position on a canvas of this size has a slot of its own among the cells, no other
position has one, and no slot is left over. -/
structure Slotted (canvas : Canvas) (width height : Nat) : Prop where
  size : canvas.width = width ∧ canvas.height = height
  count : canvas.cells.size = width * height
  slot : ∀ x y : Int, 0 ≤ x ∧ x < width ∧ 0 ≤ y ∧ y < height →
    ∃ i, canvas.index? x y = some i ∧ i < canvas.cells.size
  beside : ∀ x y : Int, ¬(0 ≤ x ∧ x < width ∧ 0 ≤ y ∧ y < height) → canvas.index? x y = none
  distinct : ∀ x y x' y' i, canvas.index? x y = some i → canvas.index? x' y' = some i →
    x = x' ∧ y = y'
  taken : ∀ i, i < canvas.cells.size → ∃ x y, canvas.index? x y = some i

theorem exists_index?_eq {canvas : Canvas} {i : Nat} (hi : i < canvas.cells.size) :
    ∃ x y, canvas.index? x y = some i := by
  rw [canvas.size_cells] at hi
  have hpos : 0 < canvas.width := Nat.pos_of_mul_pos_right (Nat.zero_lt_of_lt hi)
  have hcolumn : i % canvas.width < canvas.width := Nat.mod_lt i hpos
  have hrow : i / canvas.width < canvas.height := Nat.div_lt_of_lt_mul hi
  refine ⟨(i % canvas.width : Nat), (i / canvas.width : Nat), ?_⟩
  have hin : 0 ≤ ((i % canvas.width : Nat) : Int) ∧
      ((i % canvas.width : Nat) : Int) < canvas.width ∧
      0 ≤ ((i / canvas.width : Nat) : Int) ∧ ((i / canvas.width : Nat) : Int) < canvas.height :=
    ⟨Int.natCast_nonneg _, Int.ofNat_lt.mpr hcolumn, Int.natCast_nonneg _, Int.ofNat_lt.mpr hrow⟩
  rw [index?, if_pos hin, Int.toNat_natCast, Int.toNat_natCast, Nat.div_add_mod']

theorem slotted (canvas : Canvas) : canvas.Slotted canvas.width canvas.height where
  size := ⟨rfl, rfl⟩
  count := canvas.size_cells
  slot x y hin := by
    have hindex : canvas.index? x y = some (y.toNat * canvas.width + x.toNat) := if_pos hin
    exact ⟨_, hindex, by rw [canvas.size_cells]; exact index?_lt hindex⟩
  beside x y hout := if_neg hout
  distinct _ _ _ _ _ := index?_inj
  taken _ := exists_index?_eq

theorem slotted_editAll (width height : Nat) (edits : List Edit) :
    ((blank width height).editAll edits).Slotted width height := by
  obtain ⟨hwidth, hheight⟩ := sameSize_editAll (blank width height) edits
  have h := ((blank width height).editAll edits).slotted
  rwa [hwidth, hheight] at h

/-! ## Filling and marking -/

/-- One canvas is the other with a change made to the cells at some positions, and with all
other cells as they were. -/
structure ChangedAt (canvas after : Canvas) (touched : Int → Int → Prop) (change : Cell → Cell) :
    Prop where
  size : after.SameSize canvas
  inside : ∀ x y cell, canvas.cell? x y = some cell → touched x y →
    after.cell? x y = some (change cell)
  outside : ∀ x y, ¬touched x y → after.cell? x y = canvas.cell? x y

section

variable {canvas : Canvas}

def Named (canvas : Canvas) : Prop :=
  (canvas.width : Int) ≤ Region.lastCoordinate ∧ (canvas.height : Int) ≤ Region.lastCoordinate

theorem Named.contains_iff_covers (h : canvas.Named) {x y : Int} {cell : Cell}
    (hcell : canvas.cell? x y = some cell) (region : Region) :
    region.contains x y = true ↔ region.Covers x y := by
  have hbounds := (cell?_isSome_iff canvas x y).mp (Option.isSome_of_eq_some hcell)
  obtain ⟨hwidth, hheight⟩ := h
  exact Region.contains_iff_covers (by omega) (by omega)

theorem changedAt_draw {stroke : Stroke} {touched : Int → Int → Prop} {change : Cell → Cell}
    (htouched : ∀ x y cell, canvas.cell? x y = some cell → (stroke.Touches x y ↔ touched x y))
    (hchange : ∀ x y cell, stroke.Touches x y →
      stroke.cellAfter canvas.width x y cell = change cell) :
    canvas.ChangedAt (canvas.draw stroke) touched change where
  size := sameSize_draw canvas stroke
  inside x y cell hcell hin := by
    have htouches := (htouched x y cell hcell).mpr hin
    rw [cell?_draw, hcell, Option.map_some, hchange x y cell htouches]
  outside x y hout := by
    rw [cell?_draw]
    cases hcell : canvas.cell? x y with
    | none => rfl
    | some cell =>
        have hmisses := mt (htouched x y cell hcell).mp hout
        rw [Option.map_some, Stroke.cellAfter_of_not_touches hmisses]

theorem Named.changedAt_fillGround (h : canvas.Named) (region : Region) (color : Terminal.Color) :
    canvas.ChangedAt (canvas.fillGround region color) (fun x y => region.contains x y = true)
      fun cell => { cell with bg := some color } := by
  show canvas.ChangedAt (canvas.draw (.fill region color)) _ _
  refine changedAt_draw (fun x y cell hcell => ?_) fun x y cell htouches => if_pos htouches
  exact (h.contains_iff_covers hcell region).symm

theorem Named.changedAt_markPadding (h : canvas.Named) (block content : Region) :
    canvas.ChangedAt (canvas.markPadding block content)
      (fun x y => block.contains x y = true ∧ ¬content.contains x y = true)
      fun cell => { cell with symbol := String.singleton paddingMark } := by
  show canvas.ChangedAt (canvas.draw (.mark block content)) _ _
  refine changedAt_draw (fun x y cell hcell => ?_) fun x y cell htouches => if_pos htouches
  exact and_congr_left' (h.contains_iff_covers hcell block).symm

end

/-- On a canvas that is edited from blank on, each position has a slot of its own. Filling a
region changes the ground of the cells that it contains, and marking a block around its
content changes the symbol of those that the block contains and the content does not. Neither
changes anything else, wherever the regions are, on the canvas or beside it. -/
theorem editAll_changedAt (width height : Nat) (edits : List Edit)
    (hwidth : (width : Int) ≤ Region.lastCoordinate)
    (hheight : (height : Int) ≤ Region.lastCoordinate) :
    let canvas := (blank width height).editAll edits
    canvas.Slotted width height ∧
    (∀ region color, canvas.ChangedAt (canvas.fillGround region color)
      (fun x y => region.contains x y = true) fun cell => { cell with bg := some color }) ∧
    ∀ block content, canvas.ChangedAt (canvas.markPadding block content)
      (fun x y => block.contains x y = true ∧ ¬content.contains x y = true)
      fun cell => { cell with symbol := String.singleton paddingMark } := by
  intro canvas
  have hslotted : canvas.Slotted width height := slotted_editAll width height edits
  have hnamed : canvas.Named := by
    rw [Named, hslotted.size.1, hslotted.size.2]
    exact ⟨hwidth, hheight⟩
  exact ⟨hslotted, hnamed.changedAt_fillGround, hnamed.changedAt_markPadding⟩

/-- A region that begins above and left of the canvas and one that ends right of it: the
columns beside the canvas are not those of the next row. -/
theorem editAll_changedAt_corner :
    let canvas := (blank 3 2).editAll [.write 0 0 3 "abc" none none]
    (3 : Int) ≤ Region.lastCoordinate ∧ (2 : Int) ≤ Region.lastCoordinate ∧
      (canvas.fillGround ⟨-2, -2, 3, 3⟩ (.solid .red)).cell? 0 0 =
        some ⟨"a", none, some (.solid .red)⟩ ∧
      (canvas.fillGround ⟨-2, -2, 3, 3⟩ (.solid .red)).cell? 1 0 = some ⟨"b", none, none⟩ ∧
      (canvas.markPadding ⟨1, 0, 4, 1⟩ ⟨1, 0, 1, 1⟩).cell? 2 0 =
        some ⟨String.singleton paddingMark, none, none⟩ ∧
      (canvas.markPadding ⟨1, 0, 4, 1⟩ ⟨1, 0, 1, 1⟩).cell? 0 1 = some {} := by
  intro canvas
  have hwidth : (3 : Int) ≤ Region.lastCoordinate := by decide
  have hheight : (2 : Int) ≤ Region.lastCoordinate := by decide
  obtain ⟨-, hfill, hmark⟩ := editAll_changedAt 3 2 [.write 0 0 3 "abc" none none] hwidth hheight
  have hfilled := hfill ⟨-2, -2, 3, 3⟩ (.solid .red)
  have hmarked := hmark ⟨1, 0, 4, 1⟩ ⟨1, 0, 1, 1⟩
  refine ⟨hwidth, hheight, ?_, ?_, ?_, ?_⟩
  · exact hfilled.inside 0 0 ⟨"a", none, none⟩ (by decide) (by decide)
  · exact (hfilled.outside 1 0 (by decide)).trans (by decide)
  · exact hmarked.inside 2 0 ⟨"c", none, none⟩ (by decide) (by decide)
  · exact (hmarked.outside 0 1 (by decide)).trans (by decide)

end Canvas

end StyledTree
