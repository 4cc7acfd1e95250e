import StyledTree.Proofs.Rendering.Measure
import StyledTree.Proofs.Rendering.Rows

/-!
# Painting stays inside boxes

Painting a node changes cells of its area only, whatever is on the canvas before and
wherever the node is painted. The children of an element are painted one after the
other, each in an outer box of its own. These boxes share no rows, and they lie inside
the content box of the element, which may be beside the element itself only when it has
no columns.
-/

namespace StyledTree

def Region.Above (upper lower : Region) : Prop := upper.y + upper.height ≤ lower.y

namespace Canvas

theorem cell?_drawAll_of_not_touches (canvas : Canvas) {strokes : List Stroke} {x y : Int}
    (h : ∀ stroke ∈ strokes, ¬stroke.Touches x y) :
    (canvas.drawAll strokes).cell? x y = canvas.cell? x y := by
  rw [cell?_drawAll]
  simp only [Stroke.foldl_of_not_touches h, Option.map_id']

end Canvas

namespace Document

/-- Paints a node in its slot, without a ground to fall back to. -/
def paintPlace (doc : Document) (look : Look) (ink : Terminal.Color) (canvas : Canvas)
    (place : NodeId × Slot) : Canvas :=
  ((doc.subtree place.1).paint look canvas place.2.x place.2.y place.2.width none ink).1

def outerBox (doc : Document) (spacing : Spacing) (place : NodeId × Slot) : Region :=
  ⟨place.2.x, place.2.y, place.2.width, doc.rowsOf spacing place.1⟩

variable {doc : Document} {spacing : Spacing}

/-! ## Boxes one below the other -/

theorem map_fst_stack (x y : Int) (width : Nat) (ids : List NodeId) :
    (doc.stack spacing x y width ids).map Prod.fst = ids := by
  induction ids generalizing y with
  | nil => rfl
  | cons id later ih => rw [stack, List.map_cons, ih]

theorem pairwise_stack (x y : Int) (width : Nat) (ids : List NodeId) :
    (doc.stack spacing x y width ids).Pairwise fun (upper lower : NodeId × Slot) =>
      upper.2.y + doc.outerHeight spacing upper.1 ≤ lower.2.y := by
  induction ids generalizing y with
  | nil => exact List.Pairwise.nil
  | cons id later ih =>
      refine List.pairwise_cons.mpr ⟨?_, ih _⟩
      intro lower hmem
      exact (stack_rows hmem).1

theorem columns_contentAt (slot : Slot) (id : NodeId) :
    let content := doc.contentAt spacing slot id
    0 < content.width →
      slot.x ≤ content.x ∧ content.x + content.width ≤ slot.x + slot.width := by
  intro content
  have hleft : content.x = slot.x + (spacing id).padding := rfl
  have hwidth : content.width = ((slot.width : Int) - 2 * ((spacing id).padding : Nat)).toNat := rfl
  omega

namespace Forest

theorem height_outerBox (h : doc.Forest) {place : NodeId × Slot}
    (hplace : doc.contains place.1 = true) :
    (doc.outerBox spacing place).height = doc.outerHeight spacing place.1 :=
  h.rowsOf_eq spacing hplace

theorem pairwise_outerBox (h : doc.Forest) (x y : Int) (width : Nat) {ids : List NodeId}
    (howned : ∀ id ∈ ids, doc.contains id = true) :
    ((doc.stack spacing x y width ids).map (doc.outerBox spacing)).Pairwise Region.Above := by
  rw [List.pairwise_map]
  refine (pairwise_stack x y width ids).imp_of_mem ?_
  intro upper lower hupper _ hrows
  rw [Region.Above, h.height_outerBox (howned upper.1 (mem_of_mem_stack hupper))]
  exact hrows

theorem outerBox_of_nests (h : doc.Forest) {outer inner : NodeId × Slot}
    (hnests : doc.Nests spacing outer inner) :
    let content := doc.contentAt spacing outer.2 outer.1
    let box := doc.outerBox spacing inner
    (content.y ≤ box.y ∧ box.y + box.height ≤ content.y + content.height) ∧
      box.x = content.x ∧ box.width = content.width := by
  intro content box
  have hchild := hnests.mem_children
  have hrows := stack_rows hnests
  have hheight : box.height = doc.outerHeight spacing inner.1 :=
    h.height_outerBox (h.contains_of_mem_children hchild)
  have hcontent : content.height = doc.stackedHeight spacing (doc.children outer.1) :=
    (height_contentAt ..).trans (contentHeight_of_children (List.ne_nil_of_mem hchild))
  obtain ⟨_, _, -, hslot⟩ := mem_stack_iff.mp hnests
  refine ⟨⟨hrows.1, ?_⟩, congrArg Slot.x hslot, congrArg Slot.width hslot⟩
  rw [hheight, hcontent]
  exact hrows.2

/-! ## Painting in boxes -/

theorem cell?_paint_of_not_covers (h : doc.Forest) (look : Look) {id : NodeId}
    (hid : doc.contains id = true) (canvas : Canvas) (x y width : Int)
    (ground : Option Terminal.Color) (ink : Terminal.Color) {column row : Int}
    (houtside : ¬(doc.areaAt look.spacing ⟨x, y, width.toNat⟩ id).Covers column row) :
    ((doc.subtree id).paint look canvas x y width ground ink).1.cell? column row =
      canvas.cell? column row := by
  rw [Tree.paint_fst]
  apply canvas.cell?_drawAll_of_not_touches
  intro stroke hmem htouches
  exact houtside (h.touches_area look hid hmem htouches)

theorem cell?_paintPlace_of_not_covers (h : doc.Forest) (look : Look) (ink : Terminal.Color)
    {place : NodeId × Slot} (hplace : doc.contains place.1 = true) (canvas : Canvas)
    {column row : Int} (houtside : ¬(doc.outerBox look.spacing place).Covers column row) :
    (doc.paintPlace look ink canvas place).cell? column row = canvas.cell? column row := by
  refine h.cell?_paint_of_not_covers look hplace canvas _ _ _ none ink fun hcovers => houtside ?_
  have hbox := h.area_rows hplace hcovers
  rw [← h.rowsOf_eq look.spacing hplace] at hbox
  exact hbox

theorem drawAll_strokesAll (h : doc.Forest) (look : Look) (canvas : Canvas) (left row : Int)
    (width : Nat) (ink : Terminal.Color) {ids : List NodeId}
    (howned : ∀ id ∈ ids, doc.contains id = true) :
    canvas.drawAll (Tree.strokesAll look left row width ink (ids.map doc.subtree)) =
      (doc.stack look.spacing left row width ids).foldl (doc.paintPlace look ink) canvas := by
  induction ids generalizing canvas row with
  | nil => rfl
  | cons id later ih =>
      have hfirst : doc.paintPlace look ink canvas (id, ⟨left, row, width⟩) =
          canvas.drawAll ((doc.subtree id).strokes look left row width none ink) :=
        Tree.paint_fst ..
      rw [List.map_cons, Tree.strokesAll, Canvas.drawAll_append,
        h.paintedHeight_subtree look (howned id List.mem_cons_self),
        ih _ _ fun other hmem => howned other (List.mem_cons_of_mem _ hmem), stack,
        List.foldl_cons, hfirst]

theorem paint_eq_foldl (h : doc.Forest) (look : Look) {id : NodeId}
    (hid : doc.isElement id = true) (canvas : Canvas) (x y width : Int)
    (ground : Option Terminal.Color) (ink : Terminal.Color) :
    let slot : Slot := ⟨x, y, width.toNat⟩
    let content := doc.contentAt look.spacing slot id
    ((doc.subtree id).paint look canvas x y width ground ink).1 =
      (doc.stack look.spacing content.x content.y content.width (doc.children id)).foldl
        (doc.paintPlace look (look.colors id).fg)
        (canvas.drawAll (doc.ownStrokes look (id, slot) ground)) := by
  intro slot content
  rw [Tree.paint_fst, h.strokes_eq_own_append look hid slot ground ink, Canvas.drawAll_append]
  exact h.drawAll_strokesAll look _ content.x content.y content.width (look.colors id).fg
    fun child => h.contains_of_mem_children

end Forest

end Document

namespace Renderer

/-- Painting an element, wherever and on whatever, changes cells only in its columns and in
its rows below the margin. Its children are painted one after the other, in their order
and each within its outer box. No two of these boxes share a row, a text has one row, and
all are in the rows of the content box; where that has columns, the boxes are in these
and in those of the element. -/
theorem painted_inside_box (number : Nat) (calls : List Document.Call) (id : NodeId)
    (styles : ComputedStyles) (renderer : Renderer) (canvas : Canvas) (x y width : Int)
    (ground : Option Terminal.Color) (ink : Terminal.Color)
    (hid : ((Document.empty number).run calls).isElement id = true) :
    let doc := (Document.empty number).run calls
    let look := renderer.look styles
    let painted := ((doc.subtree id).paint look canvas x y width ground ink).1
    let content := Tree.contentBox look.spacing x y width id ((doc.children id).map doc.subtree)
    let places := doc.stack look.spacing content.x content.y content.width (doc.children id)
    (painted.SameSize canvas ∧
      ∀ column row, ¬((x ≤ column ∧ column < x + width) ∧
          y + max (styles.styleOf id).marginTop 0 ≤ row ∧
          row < y + doc.outerHeight look.spacing id) →
        painted.cell? column row = canvas.cell? column row) ∧
    (places.map Prod.fst = doc.children id ∧
      painted = places.foldl (doc.paintPlace look (look.colors id).fg)
        (canvas.drawAll (doc.ownStrokes look (id, ⟨x, y, width.toNat⟩) ground)) ∧
      ∀ place ∈ places, ∀ before column row,
        ¬(doc.outerBox look.spacing place).Covers column row →
          (doc.paintPlace look (look.colors id).fg before place).cell? column row =
            before.cell? column row) ∧
    (places.map (doc.outerBox look.spacing)).Pairwise Region.Above ∧
    ∀ place ∈ places,
      let box := doc.outerBox look.spacing place
      (content.y ≤ box.y ∧ box.y + box.height ≤ content.y + content.height) ∧
        (0 < content.width →
          (content.x ≤ box.x ∧ box.x + box.width ≤ content.x + content.width) ∧
            x ≤ box.x ∧ box.x + box.width ≤ x + width) := by
  intro doc look painted content places
  have hforest : doc.Forest := (Document.Forest.empty number).run calls
  have hcontent : content = doc.contentAt look.spacing ⟨x, y, width.toNat⟩ id :=
    doc.contentBox_map_subtree look.spacing x y width id
  have howned : ∀ child ∈ doc.children id, doc.contains child = true :=
    fun child => hforest.contains_of_mem_children
  refine ⟨⟨?_, ?_⟩, ⟨Document.map_fst_stack .., ?_, ?_⟩, ?_, ?_⟩
  · simp only [painted]
    rw [Tree.paint_fst]
    exact Canvas.sameSize_drawAll ..
  · intro column row houtside
    refine hforest.cell?_paint_of_not_covers look (Document.contains_of_isElement hid) canvas x y
      width ground ink fun hcovers => houtside ?_
    have hheight := hforest.outerHeight_of_isElement look.spacing hid
    have hmargin : ((look.spacing id).marginTop : Int) = max (styles.styleOf id).marginTop 0 :=
      Int.toNat_eq_max _
    rw [Document.areaAt, if_pos hid] at hcovers
    obtain ⟨hcolumn, htop, hbottom⟩ := hcovers
    simp only [Document.blockAt] at hcolumn htop hbottom
    omega
  · simp only [painted, places]
    rw [hcontent]
    exact hforest.paint_eq_foldl look hid canvas x y width ground ink
  · intro place hmem before column row
    exact hforest.cell?_paintPlace_of_not_covers look _
      (howned place.1 (Document.mem_of_mem_stack hmem)) before
  · exact hforest.pairwise_outerBox content.x content.y content.width howned
  · intro place hmem box
    simp only [places] at hmem
    rw [hcontent] at hmem ⊢
    have hnests : doc.Nests look.spacing (id, ⟨x, y, width.toNat⟩) place := hmem
    obtain ⟨hrows, hleft, hwidth⟩ := hforest.outerBox_of_nests hnests
    refine ⟨hrows, fun hcolumns => ?_⟩
    have hinside := Document.columns_contentAt ⟨x, y, width.toNat⟩ id hcolumns
    simp only at hleft hwidth hinside
    simp only [box]
    omega

/-- A panel so narrow that its padding leaves no columns for the button and the text in
it, painted beside the left edge of the canvas. -/
theorem painted_inside_box_panel :
    let doc := (Document.empty 0).run [.createDiv none none, .createButton "ok" none none,
      .createText "go", .add ⟨0, 0⟩ [⟨0, 1⟩, ⟨0, 3⟩]]
    let panel : NodeId := ⟨0, 0⟩
    let styles := ComputedStyles.empty.insert panel { padding := 2, bg := some .blue }
    let renderer : Renderer := ⟨.plain, .palette, true, false⟩
    let look := renderer.look styles
    let painted := ((doc.subtree panel).paint look (Canvas.blank 6 9) 1 1 3 none .reset).1
    let places := doc.stack look.spacing 3 3 0 (doc.children panel)
    doc.isElement panel = true ∧ painted.cell? 4 3 = some {} ∧
      places.map Prod.fst = [⟨0, 1⟩, ⟨0, 3⟩] ∧
      (places.map (doc.outerBox look.spacing)).Pairwise Region.Above := by
  intro doc panel styles renderer look painted places
  have hpanel : doc.isElement panel = true := by decide
  obtain ⟨⟨-, houtside⟩, ⟨hchildren, -⟩, happart, -⟩ :=
    painted_inside_box 0 [.createDiv none none, .createButton "ok" none none, .createText "go",
      .add ⟨0, 0⟩ [⟨0, 1⟩, ⟨0, 3⟩]] panel styles renderer (Canvas.blank 6 9) 1 1 3 none .reset
      hpanel
  have hcontent : Tree.contentBox look.spacing 1 1 3 panel ((doc.children panel).map doc.subtree) =
      ⟨3, 3, 0, 2⟩ := by decide +kernel
  rw [hcontent] at hchildren happart
  refine ⟨hpanel, ?_, hchildren.trans (by decide), happart⟩
  rw [houtside 4 3 (by omega)]
  exact Canvas.cell?_blank 6 9 (by omega)

end Renderer

end StyledTree
