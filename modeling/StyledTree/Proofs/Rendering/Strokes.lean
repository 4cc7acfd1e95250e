import StyledTree.Proofs.Canvas.Glyphs
import StyledTree.Proofs.Rendering.Outcome

/-!
# What strokes do to cells

Strokes change every cell on its own: what becomes of one depends on the strokes, on
its place and on the width of the canvas. A node is drawn within its area, the block
of an element or the row of a text, so the strokes of a subtree touch no cell
elsewhere.
-/

namespace StyledTree

/-- The symbols that a text puts into its row, where `width` columns are free for it
from a column on. -/
def lineSymbols (columns : Nat) (left : Int) (width : Nat) (text : String) : List String :=
  (fitting (min (left + width) columns - left) (glyphs text)).flatMap cellSymbols

theorem length_lineSymbols_le (columns : Nat) (left : Int) (width : Nat) (text : String) :
    (lineSymbols columns left width text).length ≤ width := by
  have := lineWidth_fitting_le (min (left + width) columns - left) (glyphs text)
  rw [lineSymbols, length_flatMap_cellSymbols]
  omega

theorem Canvas.textSymbols_eq_lineSymbols {canvas : Canvas} {y : Int}
    (hy : 0 ≤ y ∧ y < canvas.height) (left : Int) (width : Nat) (text : String) :
    canvas.textSymbols left y width text = lineSymbols canvas.width left width text := by
  unfold textSymbols lineSymbols
  by_cases hnone : (width : Int) ≤ 0
  · rw [if_pos (by omega), fitting_of_nonpos (by omega)]
    rfl
  · rw [if_neg (by omega)]

namespace Stroke

def cellAfter (columns : Nat) (x y : Int) (cell : Cell) : Stroke → Cell
  | fill region color => if region.Covers x y then { cell with bg := some color } else cell
  | mark block content =>
      if block.Covers x y ∧ ¬content.contains x y = true then
        { cell with symbol := String.singleton paddingMark }
      else cell
  | write left row width text color =>
      let symbols := lineSymbols columns left width text
      if y = row ∧ left ≤ x ∧ x < left + symbols.length then
        cell.write (symbols.getD (x - left).toNat "") (some color) none
      else cell

def tint (x y : Int) (ground : Option Terminal.Color) : Stroke → Option Terminal.Color
  | fill region color => if region.Covers x y then some color else ground
  | mark _ _ => ground
  | write _ _ _ _ _ => ground

theorem bg_cellAfter (stroke : Stroke) (columns : Nat) (x y : Int) (cell : Cell) :
    (stroke.cellAfter columns x y cell).bg = stroke.tint x y cell.bg := by
  cases stroke <;> simp only [cellAfter, tint] <;> split <;> rfl

def Touches (x y : Int) : Stroke → Prop
  | fill region _ => region.Covers x y
  | mark block content => block.Covers x y ∧ ¬content.contains x y = true
  | write left row width _ _ => y = row ∧ left ≤ x ∧ x < left + width

theorem cellAfter_of_not_touches {stroke : Stroke} {x y : Int} (h : ¬stroke.Touches x y)
    (columns : Nat) (cell : Cell) : stroke.cellAfter columns x y cell = cell := by
  cases stroke with
  | fill region color => exact if_neg h
  | mark block content => exact if_neg h
  | write left row width text color =>
      have hle := length_lineSymbols_le columns left width text
      refine if_neg fun hin => h ⟨hin.1, hin.2.1, ?_⟩
      omega

end Stroke

namespace Canvas

theorem map_ite_eq (changes : Prop) [Decidable changes] (f : Cell → Cell) (cell? : Option Cell) :
    (if changes then cell?.map f else cell?) =
      cell?.map fun cell => if changes then f cell else cell := by
  by_cases hchanges : changes
  · simp only [if_pos hchanges]
  · simp only [if_neg hchanges, Option.map_id']

theorem cell?_draw (canvas : Canvas) (stroke : Stroke) (x y : Int) :
    (canvas.draw stroke).cell? x y =
      (canvas.cell? x y).map fun cell => stroke.cellAfter canvas.width x y cell := by
  cases stroke with
  | fill region color =>
      exact (cell?_fillGround canvas region color x y).trans (map_ite_eq (region.Covers x y) _ _)
  | mark block content =>
      rw [draw, cell?_markPadding]
      refine (map_ite_eq (block.Covers x y) _ _).trans ?_
      congr 1
      funext cell
      by_cases hcovers : block.Covers x y
      · by_cases hin : content.contains x y = true <;> simp [Stroke.cellAfter, hcovers, hin]
      · simp [Stroke.cellAfter, hcovers]
  | write left row width text color =>
      cases hcell : canvas.cell? x y with
      | none =>
          rw [draw, putText, cell?_writeCells, hcell, Option.map_none, Option.map_none, ite_self]
      | some cell =>
          have hbounds := (canvas.cell?_isSome_iff x y).mp (Option.isSome_of_eq_some hcell)
          rw [draw, putText, cell?_writeCells, hcell, map_ite_eq]
          by_cases hrow : y = row
          · rw [textSymbols_eq_lineSymbols (by omega)]
            rfl
          · simp [Stroke.cellAfter, hrow]

theorem cell?_drawAll (canvas : Canvas) (strokes : List Stroke) (x y : Int) :
    (canvas.drawAll strokes).cell? x y =
      (canvas.cell? x y).map fun cell =>
        strokes.foldl (Stroke.cellAfter canvas.width x y) cell := by
  induction strokes generalizing canvas with
  | nil => exact Option.map_id'.symm
  | cons stroke later ih =>
      have hwidth := (sameSize_draw canvas stroke).1
      rw [show canvas.drawAll (stroke :: later) = (canvas.draw stroke).drawAll later from rfl,
        ih, cell?_draw, hwidth, Option.map_map]
      rfl

end Canvas

namespace Document

variable {doc : Document}

/-- The cells over which a node in its slot is drawn: the block of an element, the row
of a text. -/
def areaAt (doc : Document) (spacing : Spacing) (slot : Slot) (id : NodeId) : Region :=
  if doc.isElement id then doc.blockAt spacing slot id else ⟨slot.x, slot.y, slot.width, 1⟩

/-- The strokes that an element makes itself: its ground and the marks on its padding. -/
def ownStrokes (doc : Document) (look : Look) (place : NodeId × Slot)
    (ground : Option Terminal.Color) : List Stroke :=
  (((look.colors place.1).bg.or ground).map
      (Stroke.fill (doc.blockAt look.spacing place.2 place.1))).toList ++
    if look.marksPadding ∧ 0 < (look.spacing place.1).padding then
      [Stroke.mark (doc.blockAt look.spacing place.2 place.1)
        (doc.contentAt look.spacing place.2 place.1)]
    else []

theorem mem_ownStrokes_iff {look : Look} {place : NodeId × Slot} {ground : Option Terminal.Color}
    {stroke : Stroke} :
    stroke ∈ doc.ownStrokes look place ground ↔
      (∃ color, (look.colors place.1).bg.or ground = some color ∧
        stroke = .fill (doc.blockAt look.spacing place.2 place.1) color) ∨
      (look.marksPadding = true ∧ 0 < (look.spacing place.1).padding) ∧
        stroke = .mark (doc.blockAt look.spacing place.2 place.1)
          (doc.contentAt look.spacing place.2 place.1) := by
  have hmark (marks : Prop) [Decidable marks] (mark : Stroke) :
      stroke ∈ (if marks then [mark] else []) ↔ marks ∧ stroke = mark := by
    by_cases hmarks : marks <;> simp [hmarks]
  rw [ownStrokes, List.mem_append, hmark]
  simp only [Option.mem_toList, Option.map_eq_some_iff, @eq_comm _ stroke]

namespace Forest

theorem area_rows (h : doc.Forest) {spacing : Spacing} {slot : Slot} {id : NodeId}
    (hid : doc.contains id = true) {x y : Int}
    (hcovers : (doc.areaAt spacing slot id).Covers x y) :
    (slot.x ≤ x ∧ x < slot.x + slot.width) ∧
      slot.y ≤ y ∧ y < slot.y + doc.outerHeight spacing id := by
  unfold areaAt at hcovers
  by_cases helement : doc.isElement id = true
  · rw [if_pos helement] at hcovers
    have hheight := h.outerHeight_of_isElement spacing helement
    obtain ⟨hcolumn, htop, hbottom⟩ := hcovers
    simp only [blockAt] at hcolumn htop hbottom
    omega
  · rw [if_neg helement] at hcovers
    rw [h.outerHeight_eq_one spacing hid helement]
    exact hcovers

theorem mem_strokesAll_iff (h : doc.Forest) (look : Look) {left row : Int} {width : Nat}
    {ink : Terminal.Color} {ids : List NodeId} (howned : ∀ id ∈ ids, doc.contains id = true)
    {stroke : Stroke} :
    stroke ∈ Tree.strokesAll look left row width ink (ids.map doc.subtree) ↔
      ∃ inner ∈ doc.stack look.spacing left row width ids,
        stroke ∈ (doc.subtree inner.1).strokes look inner.2.x inner.2.y inner.2.width none ink := by
  induction ids generalizing row with
  | nil => simp [Tree.strokesAll, stack]
  | cons id later ih =>
      rw [List.map_cons, Tree.strokesAll, List.mem_append,
        h.paintedHeight_subtree look (howned id List.mem_cons_self),
        ih fun other hmem => howned other (List.mem_cons_of_mem _ hmem), stack,
        List.exists_mem_cons_iff]

theorem strokes_eq_own_append (h : doc.Forest) (look : Look) {id : NodeId}
    (hid : doc.isElement id = true) (slot : Slot) (ground : Option Terminal.Color)
    (ink : Terminal.Color) :
    (doc.subtree id).strokes look slot.x slot.y slot.width ground ink =
      doc.ownStrokes look (id, slot) ground ++
        let content := doc.contentAt look.spacing slot id
        Tree.strokesAll look content.x content.y content.width (look.colors id).fg
          ((doc.children id).map doc.subtree) :=
  h.strokes_subtree look hid slot ground ink

theorem mem_strokes_iff (h : doc.Forest) (look : Look) {id : NodeId}
    (hid : doc.isElement id = true) {slot : Slot} {ground : Option Terminal.Color}
    {ink : Terminal.Color} {stroke : Stroke} :
    stroke ∈ (doc.subtree id).strokes look slot.x slot.y slot.width ground ink ↔
      (∃ color, (look.colors id).bg.or ground = some color ∧
        stroke = .fill (doc.blockAt look.spacing slot id) color) ∨
      ((look.marksPadding = true ∧ 0 < (look.spacing id).padding) ∧
        stroke = .mark (doc.blockAt look.spacing slot id) (doc.contentAt look.spacing slot id)) ∨
      ∃ inner, doc.Nests look.spacing (id, slot) inner ∧
        stroke ∈ (doc.subtree inner.1).strokes look inner.2.x inner.2.y inner.2.width none
          (look.colors id).fg := by
  rw [h.strokes_eq_own_append look hid, List.mem_append, mem_ownStrokes_iff,
    h.mem_strokesAll_iff look fun child => h.contains_of_mem_children, or_assoc]
  rfl

theorem touches_block (h : doc.Forest) (look : Look) {id : NodeId}
    (hid : doc.isElement id = true)
    (hchildren : ∀ child ∈ doc.children id, ∀ slot stroke x y,
      stroke ∈ (doc.subtree child).strokes look slot.x slot.y slot.width none
        (look.colors id).fg → stroke.Touches x y → (doc.areaAt look.spacing slot child).Covers x y)
    {slot : Slot} {ground : Option Terminal.Color} {ink : Terminal.Color} {stroke : Stroke}
    (hmem : stroke ∈ (doc.subtree id).strokes look slot.x slot.y slot.width ground ink) {x y : Int}
    (htouches : stroke.Touches x y) : (doc.blockAt look.spacing slot id).Covers x y := by
  rcases (h.mem_strokes_iff look hid).mp hmem with
    ⟨color, -, rfl⟩ | ⟨-, rfl⟩ | ⟨inner, hnests, hstroke⟩
  · exact htouches
  · exact htouches.1
  · have hchild := hnests.mem_children
    have hcolumns := hnests.columns
    have hrows := h.nests_rows hnests
    have harea := h.area_rows (h.contains_of_mem_children hchild)
      (hchildren inner.1 hchild inner.2 stroke x y hstroke htouches)
    have hheight := h.outerHeight_of_isElement look.spacing hid
    simp only at hcolumns hrows
    simp only [Region.Covers, blockAt]
    omega

theorem touches_area (h : doc.Forest) (look : Look) {id : NodeId}
    (hid : doc.contains id = true) {slot : Slot} {ground : Option Terminal.Color}
    {ink : Terminal.Color} {stroke : Stroke}
    (hmem : stroke ∈ (doc.subtree id).strokes look slot.x slot.y slot.width ground ink) {x y : Int}
    (htouches : stroke.Touches x y) : (doc.areaAt look.spacing slot id).Covers x y := by
  induction id using h.descend generalizing slot ground ink stroke x y with
  | hstep id ih =>
      by_cases helement : doc.isElement id = true
      · rw [areaAt, if_pos helement]
        refine h.touches_block look helement ?_ hmem htouches
        intro child hchild slot stroke x y hstroke htouches
        exact ih child hchild (h.contains_of_mem_children hchild) hstroke htouches
      · obtain ⟨words, htext⟩ := h.subtree_of_not_isElement hid helement
        rw [htext] at hmem
        rw [List.mem_singleton.mp hmem] at htouches
        rw [areaAt, if_neg helement]
        obtain ⟨rfl, hcolumn⟩ := htouches
        exact ⟨hcolumn, Int.le_refl _, Int.lt_succ _⟩

end Forest

end Document

end StyledTree
