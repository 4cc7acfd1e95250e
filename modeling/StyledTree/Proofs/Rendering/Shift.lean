import StyledTree.Proofs.Rendering.Ground
import StyledTree.Proofs.Rendering.Rows

/-!
# Drawing further right and down

A tree that is drawn elsewhere makes the same strokes there. On a canvas with room for
its columns, each of them does to a cell what it does to the cell in the same place
where the tree is drawn at the top left. The elements that show at a cell are the same
as well.
-/

namespace StyledTree

def Region.shift (region : Region) (dx dy : Int) : Region :=
  { region with x := region.x + dx, y := region.y + dy }

def Slot.shift (slot : Slot) (dx dy : Int) : Slot :=
  { slot with x := slot.x + dx, y := slot.y + dy }

def Stroke.shift (dx dy : Int) : Stroke → Stroke
  | fill region color => fill (region.shift dx dy) color
  | mark block content => mark (block.shift dx dy) (content.shift dx dy)
  | write x y width text color => write (x + dx) (y + dy) width text color

namespace Region

variable {region : Region} {x y dx dy : Int}

theorem covers_shift : (region.shift dx dy).Covers (x + dx) (y + dy) ↔ region.Covers x y := by
  simp only [Covers, shift]
  omega

theorem contains_iff_covers (hx : x < lastCoordinate) (hy : y < lastCoordinate) :
    region.contains x y = true ↔ region.Covers x y := by
  rw [contains_iff, right, bottom, Covers]
  omega

theorem inset_shift (amount : Int) :
    (region.shift dx dy).inset amount = (region.inset amount).shift dx dy := by
  simp only [inset, ofBounds, shift, Region.mk.injEq, and_true]
  omega

end Region

namespace Tree

variable (look : Look) (dx dy : Int)

theorem block_shift (x y : Int) (width : Nat) (id : NodeId) (children : List Tree) :
    block look.spacing (x + dx) (y + dy) width id children =
      (block look.spacing x y width id children).shift dx dy := by
  simp only [block, Region.shift, Region.mk.injEq, and_true, true_and]
  omega

mutual

theorem strokes_shift (x y : Int) (width : Nat) (ground : Option Terminal.Color)
    (ink : Terminal.Color) (tree : Tree) :
    strokes look (x + dx) (y + dy) width ground ink tree =
      (strokes look x y width ground ink tree).map (Stroke.shift dx dy) := by
  cases tree with
  | element id children =>
      have hfill (color? : Option Terminal.Color) (block : Region) :
          (color?.map (Stroke.fill (block.shift dx dy))).toList =
            ((color?.map (Stroke.fill block)).toList).map (Stroke.shift dx dy) := by
        cases color? <;> rfl
      have hmark (marks : Prop) [Decidable marks] (block content : Region) :
          (if marks then [Stroke.mark (block.shift dx dy) (content.shift dx dy)] else []) =
            (if marks then [Stroke.mark block content] else []).map (Stroke.shift dx dy) := by
        split <;> rfl
      simp only [strokes, block_shift, Region.inset_shift, List.map_append, hfill, hmark]
      congr 1
      exact strokesAll_shift ..
  | text id words => rfl
  | missing id => rfl

theorem strokesAll_shift (x y : Int) (width : Nat) (ink : Terminal.Color) (trees : List Tree) :
    strokesAll look (x + dx) (y + dy) width ink trees =
      (strokesAll look x y width ink trees).map (Stroke.shift dx dy) := by
  cases trees with
  | nil => rfl
  | cons tree later =>
      rw [strokesAll, strokesAll, List.map_append, strokes_shift, Int.add_right_comm,
        strokesAll_shift]

end

end Tree

/-! ## Cells -/

namespace Stroke

/-- A text is written within the columns of a canvas. -/
def Fits (columns : Nat) : Stroke → Prop
  | fill _ _ => True
  | mark _ _ => True
  | write x y width _ _ => (⟨x, y, width⟩ : Slot).Inside ⟨0, 0, columns⟩

variable {stroke : Stroke} {x y dx dy : Int} {columns part : Nat}

theorem cellAfter_shift (hfits : stroke.Fits part) (hroom : 0 ≤ dx ∧ dx + part ≤ columns)
    (hx : x < Region.lastCoordinate ∧ x + dx < Region.lastCoordinate)
    (hy : y < Region.lastCoordinate ∧ y + dy < Region.lastCoordinate) (cell : Cell) :
    (stroke.shift dx dy).cellAfter columns (x + dx) (y + dy) cell =
      stroke.cellAfter part x y cell := by
  cases stroke with
  | fill region color => simp only [shift, cellAfter, Region.covers_shift]
  | mark block content =>
      have hcontent : (content.shift dx dy).contains (x + dx) (y + dy) = content.contains x y := by
        rw [Bool.eq_iff_iff, Region.contains_iff_covers hx.2 hy.2,
          Region.contains_iff_covers hx.1 hy.1, Region.covers_shift]
      simp only [shift, cellAfter, Region.covers_shift, hcontent]
  | write left row width text color =>
      have hline : (⟨left + dx, row, width⟩ : Slot).Inside ⟨0, row, columns⟩ := by
        simp only [Fits, Slot.Inside] at hfits ⊢
        omega
      have hsymbols :
          lineSymbols columns (left + dx) width text = lineSymbols part left width text :=
        (lineSymbols_of_inside hline text).trans (lineSymbols_of_inside hfits text).symm
      have hplace : (y + dy = row + dy ∧ left + dx ≤ x + dx ∧
          x + dx < left + dx + (lineSymbols part left width text).length) ↔
          y = row ∧ left ≤ x ∧ x < left + (lineSymbols part left width text).length := by
        omega
      simp only [shift, cellAfter, hsymbols, Int.add_sub_add_right, hplace]

theorem foldl_cellAfter_shift (strokes : List Stroke) (hfits : ∀ stroke ∈ strokes, stroke.Fits part)
    (hroom : 0 ≤ dx ∧ dx + part ≤ columns)
    (hx : x < Region.lastCoordinate ∧ x + dx < Region.lastCoordinate)
    (hy : y < Region.lastCoordinate ∧ y + dy < Region.lastCoordinate) (cell : Cell) :
    (strokes.map (shift dx dy)).foldl (cellAfter columns (x + dx) (y + dy)) cell =
      strokes.foldl (cellAfter part x y) cell := by
  induction strokes generalizing cell with
  | nil => rfl
  | cons first later ih =>
      rw [List.map_cons, List.foldl_cons, List.foldl_cons,
        cellAfter_shift (hfits first List.mem_cons_self) hroom hx hy]
      exact ih (fun stroke hmem => hfits stroke (List.mem_cons_of_mem _ hmem)) _

end Stroke

/-! ## Slots -/

namespace Document

variable {doc : Document} {spacing : Spacing} {look : Look} {dx dy : Int}

theorem blockAt_shift (slot : Slot) (id : NodeId) :
    doc.blockAt spacing (slot.shift dx dy) id = (doc.blockAt spacing slot id).shift dx dy := by
  simp only [blockAt, Slot.shift, Region.shift, Region.mk.injEq, and_true, true_and]
  omega

theorem contentAt_shift (slot : Slot) (id : NodeId) :
    doc.contentAt spacing (slot.shift dx dy) id = (doc.contentAt spacing slot id).shift dx dy := by
  rw [contentAt, blockAt_shift, Region.inset_shift, contentAt]

theorem Nests.shift {outer inner : NodeId × Slot} (h : doc.Nests spacing outer inner)
    (dx dy : Int) :
    doc.Nests spacing (outer.1, outer.2.shift dx dy) (inner.1, inner.2.shift dx dy) := by
  obtain ⟨above, below, hsplit, hslot⟩ := mem_stack_iff.mp h
  refine mem_stack_iff.mpr ⟨above, below, hsplit, ?_⟩
  rw [hslot, contentAt_shift]
  simp only [Slot.shift, Region.shift, Slot.mk.injEq, and_true, true_and]
  omega

theorem Within.shift {outer inner : NodeId × Slot} (h : doc.Within spacing outer inner)
    (dx dy : Int) :
    doc.Within spacing (outer.1, outer.2.shift dx dy) (inner.1, inner.2.shift dx dy) := by
  induction h with
  | refl => exact .refl
  | tail _ hnests ih => exact ih.tail (hnests.shift dx dy)

theorem Shows.shift {id top : NodeId} {slot : Slot} {x y : Int} {color : Terminal.Color}
    (h : doc.Shows look (id, slot) x y top color) (dx dy : Int) :
    doc.Shows look (id, slot.shift dx dy) (x + dx) (y + dy) top color := by
  obtain ⟨inner, hwithin, helement, hcovers, hbg⟩ := h
  refine ⟨inner.shift dx dy, hwithin.shift dx dy, helement, ?_, hbg⟩
  rw [blockAt_shift]
  exact Region.covers_shift.mpr hcovers

theorem shows_shift_iff (dx dy : Int) {id top : NodeId} {slot : Slot} {x y : Int}
    {color : Terminal.Color} :
    doc.Shows look (id, slot.shift dx dy) (x + dx) (y + dy) top color ↔
      doc.Shows look (id, slot) x y top color := by
  refine ⟨fun h => ?_, fun h => h.shift dx dy⟩
  have hback := h.shift (-dx) (-dy)
  simpa only [Slot.shift, Int.add_neg_cancel_right] using hback

end Document

end StyledTree
