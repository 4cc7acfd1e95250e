import Mathlib.Algebra.GroupWithZero.Nat
import StyledTree.Proofs.Document.Growth
import StyledTree.Proofs.Rendering.Outcome

/-!
# Measuring and painting

The rows of an element are counted twice: they are measured to place a block and
to size the canvas, and they are counted again while the element is painted, node
by node. The two counts treat a missing node differently. A forest has none, so
they agree, and the rows painted below a content box begin right where it ends.
-/

namespace StyledTree

namespace Document

/-! ## Measuring -/

/-- The rows of the block of an element, measured as deep as `fuel` goes; nothing
if elements lie deeper. Whatever is no element counts as one row. -/
def blockHeightWithin (doc : Document) (spacing : Spacing) : Nat → NodeId → Option Nat
  | 0, _ => none
  | fuel + 1, id =>
      ((doc.children id).mapM fun child =>
        if doc.isElement child then
          (doc.blockHeightWithin spacing fuel child).map ((spacing child).marginTop + ·)
        else some 1).map fun heights =>
          (if heights.isEmpty then 1 else heights.sum) + 2 * (spacing id).padding

def outerHeightWithin (doc : Document) (spacing : Spacing) (fuel : Nat) (id : NodeId) :
    Option Nat :=
  (doc.blockHeightWithin spacing fuel id).map ((spacing id).marginTop + ·)

variable {doc : Document} {spacing : Spacing}

theorem mapM_of_forall_eq_some {α β : Type} {f : α → Option β} {g : α → β} {items : List α}
    (h : ∀ item ∈ items, f item = some (g item)) : items.mapM f = some (items.map g) := by
  induction items with
  | nil => rfl
  | cons item later ih =>
      have hlater := ih fun other hmem => h other (List.mem_cons_of_mem _ hmem)
      rw [List.mapM_cons, h item List.mem_cons_self, hlater]
      rfl

/-- The rows of a child among its siblings. -/
def rowsOf (doc : Document) (spacing : Spacing) (child : NodeId) : Nat :=
  if doc.isElement child then doc.outerHeight spacing child else 1

theorem contentHeight_of_children {id : NodeId} (hchildren : doc.children id ≠ []) :
    doc.contentHeight spacing id = doc.stackedHeight spacing (doc.children id) := by
  rw [contentHeight, if_neg (by simpa using hchildren)]

namespace Forest

theorem rowsOf_eq (h : doc.Forest) (spacing : Spacing) {id : NodeId}
    (hid : doc.contains id = true) : doc.rowsOf spacing id = doc.outerHeight spacing id := by
  by_cases helement : doc.isElement id = true
  · rw [rowsOf, if_pos helement]
  · rw [rowsOf, if_neg helement, h.outerHeight_eq_one spacing hid helement]

theorem sum_rowsOf (h : doc.Forest) (spacing : Spacing) {ids : List NodeId}
    (howned : ∀ id ∈ ids, doc.contains id = true) :
    (ids.map (doc.rowsOf spacing)).sum = doc.stackedHeight spacing ids := by
  induction ids with
  | nil => rfl
  | cons id later ih =>
      have hlater := ih fun other hmem => howned other (List.mem_cons_of_mem _ hmem)
      rw [List.map_cons, List.sum_cons, hlater, stackedHeight,
        h.rowsOf_eq spacing (howned id List.mem_cons_self)]

theorem contentHeight_eq (h : doc.Forest) (spacing : Spacing) (id : NodeId) :
    doc.contentHeight spacing id =
      if (doc.children id).isEmpty then 1
      else ((doc.children id).map (doc.rowsOf spacing)).sum := by
  rw [contentHeight, h.sum_rowsOf spacing fun child => h.contains_of_mem_children]

/-- Children lie deeper and no node lies deeper than there are nodes, so that much
fuel measures every element. -/
theorem blockHeightWithin_eq (h : doc.Forest) (spacing : Spacing) (id : NodeId) {fuel : Nat}
    (hfuel : doc.size < fuel + doc.depth id) :
    doc.blockHeightWithin spacing fuel id =
      some (doc.contentHeight spacing id + 2 * (spacing id).padding) := by
  induction id using h.descend generalizing fuel with
  | hstep id ih =>
      have hbound := h.depth_le_size id
      obtain ⟨fuel, rfl⟩ : ∃ less, fuel = less + 1 := ⟨fuel - 1, by omega⟩
      have hchildren : ∀ child ∈ doc.children id,
          (if doc.isElement child then
            (doc.blockHeightWithin spacing fuel child).map ((spacing child).marginTop + ·)
          else some 1) = some (doc.rowsOf spacing child) := by
        intro child hchild
        by_cases helement : doc.isElement child = true
        · have hdeeper := h.depth_child hchild
          rw [if_pos helement, ih child hchild (by omega), rowsOf, if_pos helement,
            h.outerHeight_of_isElement spacing helement]
          rfl
        · rw [if_neg helement, rowsOf, if_neg helement]
      rw [blockHeightWithin, mapM_of_forall_eq_some hchildren, Option.map_some, List.isEmpty_map,
        h.contentHeight_eq]

theorem outerHeightWithin_eq (h : doc.Forest) (spacing : Spacing) {id : NodeId}
    (hid : doc.isElement id = true) {fuel : Nat} (hfuel : doc.size ≤ fuel) :
    doc.outerHeightWithin spacing fuel id = some (doc.outerHeight spacing id) := by
  have hdepth := h.depth_pos (contains_of_isElement hid)
  rw [outerHeightWithin, h.blockHeightWithin_eq spacing id (by omega),
    h.outerHeight_of_isElement spacing hid]
  rfl

end Forest

end Document

namespace Tree

/-! ## Painting -/

/-- The box inside the padding of an element whose margin begins at a cell. -/
def contentBox (spacing : Spacing) (x y width : Int) (id : NodeId) (children : List Tree) :
    Region :=
  (Region.ofBounds x (y + (spacing id).marginTop) width (blockHeight spacing id children)).inset
    (spacing id).padding

mutual

/-- Paints a tree, node by node, and tells how many rows it took. -/
def paint (look : Look) (canvas : Canvas) (x y width : Int) (ground : Option Terminal.Color)
    (ink : Terminal.Color) : Tree → Canvas × Int
  | element id children =>
      let block :=
        Region.ofBounds x (y + (look.spacing id).marginTop) width
          (blockHeight look.spacing id children)
      let content := contentBox look.spacing x y width id children
      let filled :=
        match (look.colors id).bg.or ground with
        | some color => canvas.fillGround block color
        | none => canvas
      let marked :=
        if look.marksPadding ∧ 0 < (look.spacing id).padding then
          filled.markPadding block content
        else filled
      let painted :=
        paintAll look marked content.x content.y content.width (look.colors id).fg children
      (painted.1, (look.spacing id).marginTop + block.height)
  | text _ words => ((canvas.putText x y width words (some ink) none).2, 1)
  | missing _ => (canvas, 0)

/-- Paints trees one below the other, each from the row on at which the one before
ended, and gives the row below the last. -/
def paintAll (look : Look) (canvas : Canvas) (x row width : Int) (ink : Terminal.Color) :
    List Tree → Canvas × Int
  | [] => (canvas, row)
  | tree :: later =>
      let painted := paint look canvas x row width none ink tree
      paintAll look painted.1 x (row + painted.2) width ink later

end

end Tree

namespace Canvas

theorem textSymbols_toNat (canvas : Canvas) (x y width : Int) (words : String) :
    canvas.textSymbols x y width.toNat words = canvas.textSymbols x y width words := by
  unfold textSymbols
  by_cases hwidth : width ≤ 0
  · rw [if_pos (by omega), if_pos (by omega)]
  · rw [show (width.toNat : Int) = width by omega]

theorem drawAll_append (canvas : Canvas) (earlier later : List Stroke) :
    canvas.drawAll (earlier ++ later) = (canvas.drawAll earlier).drawAll later :=
  List.foldl_append

theorem drawAll_fill (canvas : Canvas) (block : Region) (color : Option Terminal.Color) :
    canvas.drawAll (color.map (Stroke.fill block)).toList =
      match color with
      | some color => canvas.fillGround block color
      | none => canvas := by
  cases color <;> rfl

theorem drawAll_mark (canvas : Canvas) (block content : Region) (marks : Prop)
    [Decidable marks] :
    canvas.drawAll (if marks then [Stroke.mark block content] else []) =
      if marks then canvas.markPadding block content else canvas := by
  by_cases hmarks : marks
  · rw [if_pos hmarks, if_pos hmarks]
    rfl
  · rw [if_neg hmarks, if_neg hmarks]
    rfl

end Canvas

namespace Tree

variable (look : Look)

theorem paint_snd (canvas : Canvas) (x y width : Int) (ground : Option Terminal.Color)
    (ink : Terminal.Color) (tree : Tree) :
    (paint look canvas x y width ground ink tree).2 = paintedHeight look tree := by
  cases tree with
  | element id children =>
      show ((look.spacing id).marginTop : Int) +
        ((blockHeight look.spacing id children : Int).toNat : Int) = _
      rw [Int.toNat_natCast, paintedHeight, outerHeight_element, Int.natCast_add]
  | text id words => rfl
  | missing id => rfl

mutual

theorem paint_fst (canvas : Canvas) (x y width : Int) (ground : Option Terminal.Color)
    (ink : Terminal.Color) (tree : Tree) :
    (paint look canvas x y width ground ink tree).1 =
      canvas.drawAll (strokes look x y width.toNat ground ink tree) := by
  cases tree with
  | element id children =>
      have hcontent (marked : Canvas) (content : Region) :=
        paintAll_fst marked content.x content.y content.width (look.colors id).fg children
      simp only [Int.toNat_natCast] at hcontent
      rw [strokes, Canvas.drawAll_append, Canvas.drawAll_append, Canvas.drawAll_fill,
        Canvas.drawAll_mark]
      exact hcontent _ _
  | text id words =>
      rw [paint, strokes, Canvas.putText, ← Canvas.textSymbols_toNat]
      rfl
  | missing id => rfl

theorem paintAll_fst (canvas : Canvas) (x row width : Int) (ink : Terminal.Color)
    (trees : List Tree) :
    (paintAll look canvas x row width ink trees).1 =
      canvas.drawAll (strokesAll look x row width.toNat ink trees) := by
  cases trees with
  | nil => rfl
  | cons tree later =>
      rw [paintAll, strokesAll, Canvas.drawAll_append, paintAll_fst, paint_fst, paint_snd]

end

end Tree

namespace Document

theorem contentBox_map_subtree (doc : Document) (spacing : Spacing) (x y width : Int)
    (id : NodeId) :
    Tree.contentBox spacing x y width id ((doc.children id).map doc.subtree) =
      doc.contentAt spacing ⟨x, y, width.toNat⟩ id := by
  have hblock : Tree.block spacing x y width.toNat id ((doc.children id).map doc.subtree) =
      doc.blockAt spacing ⟨x, y, width.toNat⟩ id :=
    block_map_subtree ⟨x, y, width.toNat⟩ id
  rw [Tree.contentBox, contentAt, ← hblock]
  rfl

theorem height_contentAt (doc : Document) (spacing : Spacing) (slot : Slot) (id : NodeId) :
    (doc.contentAt spacing slot id).height = doc.contentHeight spacing id := by
  show (((doc.contentHeight spacing id + 2 * (spacing id).padding : Nat) : Int) -
    2 * ((spacing id).padding : Nat)).toNat = _
  omega

variable {doc : Document}

namespace Forest

theorem paintAll_snd (h : doc.Forest) (look : Look) (canvas : Canvas) (x row width : Int)
    (ink : Terminal.Color) {ids : List NodeId} (howned : ∀ id ∈ ids, doc.contains id = true) :
    (Tree.paintAll look canvas x row width ink (ids.map doc.subtree)).2 =
      row + doc.stackedHeight look.spacing ids := by
  induction ids generalizing canvas row with
  | nil => exact (Int.add_zero row).symm
  | cons id later ih =>
      have hlater := fun canvas row =>
        ih canvas row fun other hmem => howned other (List.mem_cons_of_mem _ hmem)
      rw [List.map_cons, Tree.paintAll, hlater, Tree.paint_snd,
        h.paintedHeight_subtree look (howned id List.mem_cons_self), stackedHeight,
        Int.natCast_add, Int.add_assoc]

theorem paintAll_children_snd (h : doc.Forest) (look : Look) (canvas : Canvas)
    (x y width : Int) (ink : Terminal.Color) {id : NodeId} (hchildren : doc.children id ≠ []) :
    let trees := (doc.children id).map doc.subtree
    let content := Tree.contentBox look.spacing x y width id trees
    (Tree.paintAll look canvas content.x content.y content.width ink trees).2 =
      content.y + content.height := by
  intro trees content
  rw [h.paintAll_snd look canvas content.x content.y content.width ink
    fun child => h.contains_of_mem_children]
  simp only [content, trees]
  rw [contentBox_map_subtree, height_contentAt, contentHeight_of_children hchildren]

end Forest

end Document

namespace Renderer

theorem paint_eq_drawn (renderer : Renderer) (styles : ComputedStyles) (tree : Tree)
    (width height : Nat) :
    renderer.paint styles tree width height =
      (tree.paint (renderer.look styles) (Canvas.blank width height) 0 0 width
        (some renderer.theme.background) renderer.theme.foreground).1 :=
  (Tree.paint_fst (renderer.look styles) (Canvas.blank width height) 0 0 width
    (some renderer.theme.background) renderer.theme.foreground tree).symm

/-- The rows measured for an element are those that painting it takes, wherever and
on whatever it is painted, and as many rows has the canvas on which it is rendered. -/
theorem measured_eq_painted (number : Nat) (calls : List Document.Call) (id : NodeId)
    (styles : ComputedStyles) (renderer : Renderer)
    (hid : ((Document.empty number).run calls).isElement id = true) :
    let doc := (Document.empty number).run calls
    let look := renderer.look styles
    let style := styles.styleOf id
    let children := (doc.children id).map doc.subtree
    let height := doc.outerHeight look.spacing id
    (∀ fuel, doc.size ≤ fuel →
      doc.blockHeightWithin look.spacing fuel id = some (height - style.marginTop.toNat) ∧
        doc.outerHeightWithin look.spacing fuel id = some height) ∧
      (height : Int) = max style.marginTop 0 + 2 * style.padding +
        (if (doc.children id).isEmpty then 1
        else ((doc.children id).map fun child =>
          if doc.isElement child then doc.outerHeight look.spacing child else 1).sum) ∧
      (∀ canvas x y width ground ink,
        ((doc.subtree id).paint look canvas x y width ground ink).2 = height) ∧
      (doc.children id ≠ [] → ∀ canvas x y width ink,
        let content := Tree.contentBox look.spacing x y width id children
        (Tree.paintAll look canvas content.x content.y content.width ink children).2 =
          content.y + content.height) ∧
      ∀ width, ∃ output, renderer.Renders doc id styles width output ∧
        output.value.width = width ∧ output.value.height = min height 65535 ∧
        output.value = ((doc.subtree id).paint look (Canvas.blank width (min height 65535)) 0 0
          width (some renderer.theme.background) renderer.theme.foreground).1 := by
  intro doc look style children height
  have hforest : doc.Forest := (Document.Forest.empty number).run calls
  have hheight := hforest.outerHeight_of_isElement look.spacing hid
  have hspacing : look.spacing id = ⟨style.padding, style.marginTop.toNat⟩ := rfl
  refine ⟨?_, ?_, ?_, ?_, ?_⟩
  · intro fuel hfuel
    have hdepth := hforest.depth_pos (Document.contains_of_isElement hid)
    refine ⟨?_, hforest.outerHeightWithin_eq look.spacing hid hfuel⟩
    rw [hforest.blockHeightWithin_eq look.spacing id (by omega)]
    rw [hspacing] at hheight ⊢
    simp only [height, hheight]
    congr 1
    omega
  · have hcontent : doc.contentHeight look.spacing id = if (doc.children id).isEmpty then 1
        else ((doc.children id).map fun child =>
          if doc.isElement child then doc.outerHeight look.spacing child else 1).sum :=
      hforest.contentHeight_eq look.spacing id
    rw [← hcontent]
    rw [hspacing] at hheight
    simp only [height, hheight]
    omega
  · intro canvas x y width ground ink
    rw [Tree.paint_snd, hforest.paintedHeight_subtree look (Document.contains_of_isElement hid)]
  · intro hchildren canvas x y width ink
    exact hforest.paintAll_children_snd look canvas x y width ink hchildren
  · intro width
    obtain ⟨records, hrenders⟩ := exists_renders hid renderer styles width
    obtain ⟨hwidth, hrows⟩ := renderer.sameSize_paint styles (doc.subtree id) width
      (min height maxRows)
    exact ⟨_, hrenders, hwidth, hrows, renderer.paint_eq_drawn styles (doc.subtree id) width _⟩

theorem measured_eq_painted_button :
    let doc := (Document.empty 0).run [.createButton "ok" none none]
    let root : NodeId := ⟨0, 0⟩
    let styles := ComputedStyles.empty.insert root { padding := 1, marginTop := -3 }
    let renderer : Renderer := ⟨.plain, .palette, false, false⟩
    doc.isElement root = true ∧
      doc.outerHeightWithin (renderer.look styles).spacing 2 root = some 3 ∧
      ∃ output, renderer.render doc root styles 5 = .ok output ∧
        output.value.width = 5 ∧ output.value.height = 3 := by
  intro doc root styles renderer
  have hroot : doc.isElement root = true := by decide
  obtain ⟨hmeasured, hheight, -, -, hrendered⟩ :=
    measured_eq_painted 0 [.createButton "ok" none none] root styles renderer hroot
  have hthree : doc.outerHeight (renderer.look styles).spacing root = 3 :=
    Int.ofNat_inj.mp (hheight.trans (by decide))
  obtain ⟨output, hrenders, hwidth, hrows, -⟩ := hrendered 5
  refine ⟨hroot, ?_, output, (hrenders.fits (by decide)).1, hwidth, ?_⟩
  · rw [(hmeasured 2 (by decide)).2, hthree]
  · rw [hrows, hthree]
    rfl

end Renderer

end StyledTree
