import StyledTree.Proofs.Document.Growth
import StyledTree.Proofs.Rendering.Strokes

/-!
# The ground of a rendered cell

Painting fills grounds from the outside in, with texts and marks in between. The
ground that a cell ends up with is nevertheless that of the innermost element
whose block covers it and that has a ground of its own: other strokes keep
grounds, and of the blocks of siblings at most one covers a given row.
-/

namespace StyledTree

/-! ## Grounds under strokes -/

def Stroke.tintAll (x y : Int) (ground : Option Terminal.Color) (strokes : List Stroke) :
    Option Terminal.Color :=
  strokes.foldl (Stroke.tint x y) ground

namespace Stroke

theorem tintAll_append (x y : Int) (ground : Option Terminal.Color) (earlier later : List Stroke) :
    tintAll x y ground (earlier ++ later) = tintAll x y (tintAll x y ground earlier) later :=
  List.foldl_append

theorem tintAll_fill (x y : Int) (ground color : Option Terminal.Color) (region : Region) :
    tintAll x y ground (color.map (fill region)).toList =
      if region.Covers x y then color.or ground else ground := by
  cases color with
  | none => exact (ite_self ground).symm
  | some color => rfl

theorem tintAll_marks (x y : Int) (ground : Option Terminal.Color) (block content : Region)
    (marks : Prop) [Decidable marks] :
    tintAll x y ground (if marks then [mark block content] else []) = ground := by
  by_cases hmarks : marks
  · rw [if_pos hmarks]
    rfl
  · rw [if_neg hmarks]
    rfl

end Stroke

namespace Canvas

theorem bg_draw (canvas : Canvas) (stroke : Stroke) (x y : Int) :
    ((canvas.draw stroke).cell? x y).map Cell.bg =
      ((canvas.cell? x y).map Cell.bg).map fun ground => stroke.tint x y ground := by
  rw [cell?_draw, Option.map_map, Option.map_map]
  congr 1
  funext cell
  exact stroke.bg_cellAfter canvas.width x y cell

theorem bg_drawAll (canvas : Canvas) (strokes : List Stroke) (x y : Int) :
    ((canvas.drawAll strokes).cell? x y).map Cell.bg =
      ((canvas.cell? x y).map Cell.bg).map fun ground => Stroke.tintAll x y ground strokes := by
  induction strokes generalizing canvas with
  | nil =>
      show (canvas.cell? x y).map Cell.bg = _
      rw [Option.map_map]
      rfl
  | cons stroke later ih =>
      rw [show canvas.drawAll (stroke :: later) = (canvas.draw stroke).drawAll later from rfl,
        ih, bg_draw, Option.map_map]
      rfl

end Canvas

namespace Document

/-! ## The innermost element -/

section

variable (doc : Document) (look : Look) (start : NodeId × Slot) (x y : Int)

/-- The block of an element at or below the start covers the cell, and the element
has a ground. -/
def Shows (id : NodeId) (color : Terminal.Color) : Prop :=
  ∃ slot, doc.Within look.spacing start (id, slot) ∧ doc.isElement id = true ∧
    (doc.blockAt look.spacing slot id).Covers x y ∧ (look.colors id).bg = some color

/-- All other elements that show at the cell are above this one. -/
def ShowsOnTop (id : NodeId) (color : Terminal.Color) : Prop :=
  doc.Shows look start x y id color ∧
    ∀ other shade, doc.Shows look start x y other shade → other ∈ doc.inclusiveAncestors id

def Uncovered : Prop :=
  ∀ inner, doc.Within look.spacing start inner → doc.isElement inner.1 = true →
    ¬(doc.blockAt look.spacing inner.2 inner.1).Covers x y

/-- The ground of a cell after the strokes of nodes that begin at a list of slots:
that of the element on top, or the one from before. -/
def Grounds (starts : List (NodeId × Slot)) (before after : Option Terminal.Color) : Prop :=
  (∃ start ∈ starts, ∃ id color, doc.ShowsOnTop look start x y id color ∧ after = some color ∧
      ∀ other ∈ starts, ∀ id' color', doc.Shows look other x y id' color' → other = start) ∨
    (∀ start ∈ starts, ∀ id color, ¬doc.Shows look start x y id color) ∧ after = before

end

variable {doc : Document} {look : Look} {x y : Int}

theorem shows_iff {id top : NodeId} {slot : Slot} {color : Terminal.Color} :
    doc.Shows look (id, slot) x y top color ↔
      (top = id ∧ doc.isElement id = true ∧ (doc.blockAt look.spacing slot id).Covers x y ∧
          (look.colors id).bg = some color) ∨
        ∃ inner, doc.Nests look.spacing (id, slot) inner ∧
          doc.Shows look inner x y top color := by
  constructor
  · rintro ⟨slot', hwithin, hshows⟩
    rcases Relation.ReflTransGen.cases_head hwithin with heq | ⟨inner, hnests, hrest⟩
    · obtain ⟨rfl, rfl⟩ := Prod.mk.inj heq
      exact Or.inl ⟨rfl, hshows⟩
    · exact Or.inr ⟨inner, hnests, slot', hrest, hshows⟩
  · rintro (⟨rfl, hshows⟩ | ⟨inner, hnests, slot', hrest, hshows⟩)
    · exact ⟨slot, .refl, hshows⟩
    · exact ⟨slot', hrest.head hnests, hshows⟩

theorem Grounds.of_showsOnTop {start : NodeId × Slot} {top : NodeId} {color : Terminal.Color}
    {before after : Option Terminal.Color} (htop : doc.ShowsOnTop look start x y top color)
    (hafter : after = some color) : doc.Grounds look x y [start] before after := by
  refine Or.inl ⟨start, List.mem_singleton_self _, top, color, htop, hafter, ?_⟩
  intro other hmem _ _ _
  exact List.mem_singleton.mp hmem

theorem Grounds.of_not_shows {start : NodeId × Slot} {before after : Option Terminal.Color}
    (hnone : ∀ id color, ¬doc.Shows look start x y id color) (hafter : after = before) :
    doc.Grounds look x y [start] before after := by
  refine Or.inr ⟨?_, hafter⟩
  intro other hmem
  rw [List.mem_singleton.mp hmem]
  exact hnone

theorem Grounds.cons {first : NodeId × Slot} {rest : List (NodeId × Slot)}
    {before drawn after : Option Terminal.Color}
    (hfirst : doc.Grounds look x y [first] before drawn)
    (hrest : doc.Grounds look x y rest drawn after)
    (hapart : ∀ other ∈ rest, ∀ id color, doc.Shows look first x y id color →
      ∀ id' color', ¬doc.Shows look other x y id' color') :
    doc.Grounds look x y (first :: rest) before after := by
  rcases hfirst with ⟨start, hstart, top, color, htop, hdrawn, -⟩ | ⟨hnone, hdrawn⟩
  · rw [List.mem_singleton.mp hstart] at htop
    have hnone : ∀ other ∈ rest, ∀ id' color', ¬doc.Shows look other x y id' color' :=
      fun other hmem => hapart other hmem top color htop.1
    rcases hrest with ⟨start, hstart, top', color', htop', -⟩ | ⟨-, hsame⟩
    · exact absurd htop'.1 (hnone start hstart top' color')
    · refine Or.inl ⟨first, List.mem_cons_self, top, color, htop, hsame.trans hdrawn, ?_⟩
      intro other hmem id' color' hshows
      rcases List.mem_cons.mp hmem with rfl | hmem
      · rfl
      · exact absurd hshows (hnone other hmem id' color')
  · have hfree := hnone first (List.mem_singleton_self _)
    rcases hrest with ⟨start, hstart, top, color, htop, hafter, hunique⟩ | ⟨hrest, hsame⟩
    · refine Or.inl ⟨start, List.mem_cons_of_mem _ hstart, top, color, htop, hafter, ?_⟩
      intro other hmem id' color' hshows
      rcases List.mem_cons.mp hmem with rfl | hmem
      · exact absurd hshows (hfree id' color')
      · exact hunique other hmem id' color' hshows
    · refine Or.inr ⟨?_, hsame.trans hdrawn⟩
      intro start hmem
      rcases List.mem_cons.mp hmem with rfl | hmem
      · exact hfree
      · exact hrest start hmem

namespace Forest

theorem rows_of_shows (h : doc.Forest) {start : NodeId × Slot} {id : NodeId}
    {color : Terminal.Color} (hshows : doc.Shows look start x y id color) :
    start.2.y ≤ y ∧ y < start.2.y + doc.outerHeight look.spacing start.1 := by
  obtain ⟨slot, hwithin, helement, hcovers, -⟩ := hshows
  exact h.block_rows hwithin helement hcovers

theorem grounds_strokesAll (h : doc.Forest) (ink : Terminal.Color) (left : Int) (width : Nat)
    {ids : List NodeId} (howned : ∀ id ∈ ids, doc.contains id = true)
    (heach : ∀ id ∈ ids, ∀ slot before, doc.Grounds look x y [(id, slot)] before
      (Stroke.tintAll x y before
        ((doc.subtree id).strokes look slot.x slot.y slot.width none ink)))
    (row : Int) (before : Option Terminal.Color) :
    doc.Grounds look x y (doc.stack look.spacing left row width ids) before
      (Stroke.tintAll x y before
        (Tree.strokesAll look left row width ink (ids.map doc.subtree))) := by
  induction ids generalizing row before with
  | nil => exact Or.inr ⟨fun _ hmem => absurd hmem List.not_mem_nil, rfl⟩
  | cons id later ih =>
      let first : NodeId × Slot := (id, ⟨left, row, width⟩)
      let below := row + doc.outerHeight look.spacing id
      let drawn := Stroke.tintAll x y before
        ((doc.subtree id).strokes look left row width none ink)
      have hfirst : doc.Grounds look x y [first] before drawn :=
        heach id List.mem_cons_self ⟨left, row, width⟩ before
      have hlater := ih (fun other hmem => howned other (List.mem_cons_of_mem _ hmem))
        (fun other hmem => heach other (List.mem_cons_of_mem _ hmem)) below drawn
      have hapart : ∀ other ∈ doc.stack look.spacing left below width later, ∀ id' color',
          doc.Shows look first x y id' color' →
            ∀ id'' color'', ¬doc.Shows look other x y id'' color'' := by
        intro other hmem id' color' hshows id'' color'' hshows'
        have habove := (h.rows_of_shows hshows).2
        have hbelow := (h.rows_of_shows hshows').1
        have hrows := (stack_rows hmem).1
        simp only [first, below] at habove hrows
        omega
      rw [List.map_cons, Tree.strokesAll, Stroke.tintAll_append,
        h.paintedHeight_subtree look (howned id List.mem_cons_self)]
      exact hfirst.cons hlater hapart

theorem showsOnTop_of_child (h : doc.Forest) {id top : NodeId} {slot : Slot}
    {inner : NodeId × Slot} {color : Terminal.Color} (hid : doc.isElement id = true)
    (hnests : doc.Nests look.spacing (id, slot) inner)
    (htop : doc.ShowsOnTop look inner x y top color)
    (hunique : ∀ other, doc.Nests look.spacing (id, slot) other →
      ∀ id' color', doc.Shows look other x y id' color' → other = inner) :
    doc.ShowsOnTop look (id, slot) x y top color := by
  have hshows : doc.Shows look (id, slot) x y top color :=
    shows_iff.mpr (Or.inr ⟨inner, hnests, htop.1⟩)
  refine ⟨hshows, ?_⟩
  intro other shade hother
  rcases shows_iff.mp hother with ⟨rfl, -⟩ | ⟨inner', hnests', hother⟩
  · obtain ⟨slot', hwithin, -⟩ := hshows
    exact h.mem_inclusiveAncestors_of_within hwithin (contains_of_isElement hid)
  · rw [hunique inner' hnests' other shade hother] at hother
    exact htop.2 other shade hother

theorem showsOnTop_self (h : doc.Forest) {id : NodeId} {slot : Slot} {color : Terminal.Color}
    (hid : doc.isElement id = true) (hcovers : (doc.blockAt look.spacing slot id).Covers x y)
    (hbg : (look.colors id).bg = some color)
    (hnone : ∀ inner, doc.Nests look.spacing (id, slot) inner →
      ∀ id' color', ¬doc.Shows look inner x y id' color') :
    doc.ShowsOnTop look (id, slot) x y id color := by
  refine ⟨shows_iff.mpr (Or.inl ⟨rfl, hid, hcovers, hbg⟩), ?_⟩
  intro other shade hother
  rcases shows_iff.mp hother with ⟨rfl, -⟩ | ⟨inner, hnests, hother⟩
  · exact h.mem_inclusiveAncestors_self (contains_of_isElement hid)
  · exact absurd hother (hnone inner hnests other shade)

theorem grounds_element (h : doc.Forest) {id : NodeId} (hid : doc.isElement id = true)
    (heach : ∀ child ∈ doc.children id, ∀ slot before, doc.Grounds look x y [(child, slot)] before
      (Stroke.tintAll x y before
        ((doc.subtree child).strokes look slot.x slot.y slot.width none (look.colors id).fg)))
    (slot : Slot) (ground before : Option Terminal.Color) (ink : Terminal.Color) :
    doc.Grounds look x y [(id, slot)]
      (if (doc.blockAt look.spacing slot id).Covers x y then ground.or before else before)
      (Stroke.tintAll x y before
        ((doc.subtree id).strokes look slot.x slot.y slot.width ground ink)) := by
  let block := doc.blockAt look.spacing slot id
  let content := doc.contentAt look.spacing slot id
  let filled := if block.Covers x y then ((look.colors id).bg.or ground).or before else before
  let after := Stroke.tintAll x y filled
    (Tree.strokesAll look content.x content.y content.width (look.colors id).fg
      ((doc.children id).map doc.subtree))
  have hafter : Stroke.tintAll x y before
      ((doc.subtree id).strokes look slot.x slot.y slot.width ground ink) = after := by
    rw [h.strokes_subtree look hid, Stroke.tintAll_append, Stroke.tintAll_append,
      Stroke.tintAll_fill, Stroke.tintAll_marks]
  -- The marks keep grounds, so the children are painted over the fill alone.
  have hchildren : doc.Grounds look x y
      (doc.stack look.spacing content.x content.y content.width (doc.children id)) filled after :=
    h.grounds_strokesAll (look.colors id).fg content.x content.width
      (fun child => h.contains_of_mem_children) heach content.y filled
  rw [hafter]
  rcases hchildren with ⟨inner, hnests, top, color, htop, hcolor, hunique⟩ | ⟨hnone, hsame⟩
  · exact .of_showsOnTop (h.showsOnTop_of_child hid hnests htop hunique) hcolor
  · rw [hsame]
    have hinner {top : NodeId} {color : Terminal.Color}
        (hshows : doc.Shows look (id, slot) x y top color) :
        block.Covers x y ∧ (look.colors id).bg = some color := by
      rcases shows_iff.mp hshows with ⟨rfl, -, hown⟩ | ⟨inner, hnests, hshows⟩
      · exact hown
      · exact absurd hshows (hnone inner hnests top color)
    by_cases hcovers : block.Covers x y
    · simp only [filled, if_pos hcovers]
      cases hbg : (look.colors id).bg with
      | some color =>
          exact .of_showsOnTop (h.showsOnTop_self hid hcovers hbg hnone) rfl
      | none =>
          refine .of_not_shows ?_ (if_pos hcovers).symm
          intro top color hshows
          rw [(hinner hshows).2] at hbg
          cases hbg
    · refine .of_not_shows ?_ ?_
      · intro top color hshows
        exact hcovers (hinner hshows).1
      · exact (if_neg hcovers).trans (if_neg hcovers).symm

theorem grounds_strokes (h : doc.Forest) {id : NodeId} (hid : doc.contains id = true)
    (slot : Slot) (ink : Terminal.Color) (before : Option Terminal.Color) :
    doc.Grounds look x y [(id, slot)] before
      (Stroke.tintAll x y before
        ((doc.subtree id).strokes look slot.x slot.y slot.width none ink)) := by
  induction id using h.descend generalizing slot ink before with
  | hstep id ih =>
      by_cases helement : doc.isElement id = true
      · have hgrounds := h.grounds_element (x := x) (y := y) helement
          (fun child hchild slot before => ih child hchild (h.contains_of_mem_children hchild)
            slot (look.colors id).fg before) slot none before ink
        rwa [Option.none_or, ite_self] at hgrounds
      · -- A text has no block, and writing it keeps grounds.
        refine .of_not_shows ?_ ?_
        · intro top color hshows
          rcases shows_iff.mp hshows with ⟨-, hself, -⟩ | ⟨inner, hnests, -⟩
          · exact helement hself
          · exact helement (isElement_of_mem_children hnests.mem_children)
        · obtain ⟨words, htext⟩ := h.subtree_of_not_isElement hid helement
          rw [htext]
          rfl

theorem showsOnTop_unique (h : doc.Forest) {start : NodeId × Slot} {id id' : NodeId}
    {color color' : Terminal.Color} (htop : doc.ShowsOnTop look start x y id color)
    (htop' : doc.ShowsOnTop look start x y id' color') : id = id' ∧ color = color' := by
  obtain ⟨-, -, helement, -, hbg⟩ := htop.1
  obtain ⟨-, -, helement', -, hbg'⟩ := htop'.1
  have hid := contains_of_isElement helement
  have hid' := contains_of_isElement helement'
  have habove := htop'.2 id color htop.1
  have habove' := htop.2 id' color' htop'.1
  have hdepth : doc.depth id = doc.depth id' :=
    Nat.le_antisymm (h.depth_le_of_mem hid' habove) (h.depth_le_of_mem hid habove')
  have hsame : id = id' :=
    h.eq_of_depth_eq hid (h.mem_inclusiveAncestors_self hid) habove' hdepth
  subst hsame
  exact ⟨rfl, Option.some.inj (hbg.symm.trans hbg')⟩

theorem margin_le_of_covers (h : doc.Forest) {outer inner : NodeId × Slot}
    (hwithin : doc.Within look.spacing outer inner) (helement : doc.isElement inner.1 = true)
    (hcovers : (doc.blockAt look.spacing inner.2 inner.1).Covers x y) :
    outer.2.y + (look.spacing outer.1).marginTop ≤ y := by
  rcases Relation.ReflTransGen.cases_head hwithin with rfl | ⟨next, hnests, hrest⟩
  · exact hcovers.2.1
  · have hbelow := (h.block_rows hrest helement hcovers).1
    have hmargin := (h.nests_rows hnests).1
    omega

end Forest

/-! ## The law of grounds -/

/-- What the ground of a cell of the canvas is, for an element rendered in a
slot. -/
structure GroundLaw (doc : Document) (look : Look) (background : Terminal.Color)
    (start : NodeId × Slot) (x y : Int) (ground : Option Terminal.Color) : Prop where
  /-- The innermost element with a ground decides. -/
  onTop : ∀ id color, doc.ShowsOnTop look start x y id color → ground = some color
  /-- Where elements with a ground cover the cell, one is the innermost. -/
  exists_onTop : (∃ id color, doc.Shows look start x y id color) →
    ∃ id color, doc.ShowsOnTop look start x y id color
  /-- Elsewhere in the block of the element rendered, the theme steps in. -/
  fallback : (∀ id color, ¬doc.Shows look start x y id color) →
    (doc.blockAt look.spacing start.2 start.1).Covers x y → ground = some background
  /-- A cell in no block has no ground. -/
  bare : doc.Uncovered look start x y → ground = none
  /-- The cells in no block are those of the margin of the element rendered. -/
  bare_iff : doc.Uncovered look start x y ↔ y < start.2.y + (look.spacing start.1).marginTop

theorem Forest.groundLaw (h : doc.Forest) (look : Look) {id : NodeId}
    (hid : doc.isElement id = true) (slot : Slot) (hcolumn : slot.x ≤ x ∧ x < slot.x + slot.width)
    (hrow : y < slot.y + doc.outerHeight look.spacing id)
    (background ink : Terminal.Color) :
    doc.GroundLaw look background (id, slot) x y
      (Stroke.tintAll x y none
        ((doc.subtree id).strokes look slot.x slot.y slot.width (some background) ink)) := by
  have hgrounds := h.grounds_element (x := x) (y := y) hid
    (fun child hchild slot before => h.grounds_strokes (h.contains_of_mem_children hchild) slot
      (look.colors id).fg before) slot (some background) none ink
  have hblock : (doc.blockAt look.spacing slot id).Covers x y ↔
      slot.y + (look.spacing id).marginTop ≤ y := by
    have hheight := h.outerHeight_of_isElement look.spacing hid
    simp only [Region.Covers, blockAt]
    omega
  have hbare : doc.Uncovered look (id, slot) x y ↔ y < slot.y + (look.spacing id).marginTop := by
    rw [← Int.not_le, ← hblock]
    constructor
    · intro hnone hcovers
      exact hnone (id, slot) .refl hid hcovers
    · intro hmargin inner hwithin helement hcovers
      exact hmargin (hblock.mpr (h.margin_le_of_covers hwithin helement hcovers))
  rcases hgrounds with ⟨start, hstart, top, color, htop, hafter, -⟩ | ⟨hnone, hafter⟩
  · rw [List.mem_singleton.mp hstart] at htop
    rw [hafter]
    refine ⟨?_, fun _ => ⟨top, color, htop⟩, ?_, ?_, hbare⟩
    · intro top' color' htop'
      rw [(h.showsOnTop_unique htop htop').2]
    · intro hnone
      exact absurd htop.1 (hnone top color)
    · intro hnone
      obtain ⟨slot', hwithin, helement, hcovers, -⟩ := htop.1
      exact absurd hcovers (hnone _ hwithin helement)
  · have hfree := hnone (id, slot) (List.mem_singleton_self _)
    rw [hafter]
    refine ⟨?_, ?_, ?_, ?_, hbare⟩
    · intro top color htop
      exact absurd htop.1 (hfree top color)
    · rintro ⟨top, color, hshows⟩
      exact absurd hshows (hfree top color)
    · intro _ hcovers
      rw [if_pos hcovers]
      rfl
    · intro hnone
      rw [if_neg (hnone (id, slot) .refl hid)]

end Document

namespace Renderer

/-! ## Rendering -/

theorem bg_paint (renderer : Renderer) (styles : ComputedStyles) (tree : Tree)
    (width height : Nat) (x y : Int) :
    ((renderer.paint styles tree width height).cell? x y).map Cell.bg =
      (((Canvas.blank width height).cell? x y).map Cell.bg).map fun ground =>
        Stroke.tintAll x y ground (tree.strokes (renderer.look styles) 0 0 width
          (some renderer.theme.background) renderer.theme.foreground) :=
  Canvas.bg_drawAll ..

theorem groundLaw_paint {doc : Document} (hforest : doc.Forest) {root : NodeId}
    (hroot : doc.isElement root = true) (renderer : Renderer) (styles : ComputedStyles)
    {width height : Nat}
    (hheight : height ≤ doc.outerHeight (renderer.look styles).spacing root) {x y : Int}
    {cell : Cell}
    (hcell : (renderer.paint styles (doc.subtree root) width height).cell? x y = some cell) :
    doc.GroundLaw (renderer.look styles) renderer.theme.background (root, ⟨0, 0, width⟩) x y
      cell.bg := by
  obtain ⟨hcolumn, htop, hbottom⟩ :=
    (renderer.cell?_paint_isSome_iff styles (doc.subtree root) width height x y).mp
      (Option.isSome_of_eq_some hcell)
  have hblank := Canvas.cell?_blank width height ⟨hcolumn.1, hcolumn.2, htop, hbottom⟩
  have hlaw := hforest.groundLaw (renderer.look styles) (x := x) (y := y) hroot ⟨0, 0, width⟩
    (by simp only; omega) (by simp only; omega) renderer.theme.background
    renderer.theme.foreground
  have hbg := renderer.bg_paint styles (doc.subtree root) width height x y
  rw [hblank] at hbg
  rw [show cell.bg = _ from Option.some.inj ((congrArg _ hcell).symm.trans hbg)]
  exact hlaw

/-- The ground of every cell of a rendered canvas, for every document that calls
can lead to. -/
theorem render_grounds (number : Nat) (calls : List Document.Call) (root : NodeId)
    (styles : ComputedStyles) (options : RenderOptions) (renderer : Renderer) (width : Nat)
    (hroot : ((Document.empty number).run calls).isElement root = true)
    (hrenderer : create options = .ok renderer) :
    let doc := (Document.empty number).run calls
    let look := renderer.look styles
    ∃ output, renderer.Renders doc root styles width output ∧
      (∀ x y, (output.value.cell? x y).isSome = true ↔
        (0 ≤ x ∧ x < width) ∧ 0 ≤ y ∧ y < min (doc.outerHeight look.spacing root) maxRows) ∧
      (∀ x y cell, output.value.cell? x y = some cell →
        doc.GroundLaw look renderer.theme.background (root, ⟨0, 0, width⟩) x y cell.bg) ∧
      ∀ id color, (look.colors id).bg = some color ↔
        options.monochrome = false ∧
          ∃ shade, (styles.styleOf id).bg = some shade ∧ color = .solid shade := by
  intro doc look
  have hforest : doc.Forest := (Document.Forest.empty number).run calls
  let height := min (doc.outerHeight look.spacing root) maxRows
  have hcells := renderer.cell?_paint_isSome_iff styles (doc.subtree root) width height
  obtain ⟨records, hrenders⟩ := exists_renders hroot renderer styles width
  refine ⟨_, hrenders, hcells, ?_, look_bg_eq_some_iff hrenderer styles⟩
  intro x y cell hcell
  exact groundLaw_paint hforest hroot renderer styles (Nat.min_le_left ..) hcell

theorem render_grounds_button :
    let doc := (Document.empty 0).run [.createButton "ok" none none]
    let root : NodeId := ⟨0, 0⟩
    let styles := ComputedStyles.empty.insert root { marginTop := 1, bg := some .blue }
    let renderer : Renderer := ⟨.plain, .palette, false, false⟩
    doc.isElement root = true ∧ create {} = .ok renderer ∧
      ∃ output, renderer.render doc root styles 4 = .ok output ∧
        (output.value.cell? 1 0).map Cell.bg = some none ∧
        (output.value.cell? 1 1).map Cell.bg = some (some (.solid .blue)) := by
  intro doc root styles renderer
  have hroot : doc.isElement root = true := by decide
  have hrenderer : create {} = .ok renderer := by decide
  obtain ⟨output, hrenders, hcells, hlaw, hcolors⟩ :=
    render_grounds 0 [.createButton "ok" none none] root styles {} renderer 4 hroot hrenderer
  refine ⟨hroot, hrenderer, output, (hrenders.fits (by decide)).1, ?_, ?_⟩
  · obtain ⟨cell, hcell⟩ := Option.isSome_iff_exists.mp ((hcells 1 0).mpr (by decide))
    have hbare := (hlaw 1 0 cell hcell).bare_iff.mpr (by decide)
    rw [hcell, Option.map_some, (hlaw 1 0 cell hcell).bare hbare]
  · obtain ⟨cell, hcell⟩ := Option.isSome_iff_exists.mp ((hcells 1 1).mpr (by decide))
    have htop : doc.ShowsOnTop (renderer.look styles) (root, ⟨0, 0, 4⟩) 1 1 root
        (.solid .blue) := by
      refine ⟨⟨⟨0, 0, 4⟩, .refl, hroot, by decide, by decide⟩, ?_⟩
      rintro other shade ⟨-, -, -, -, hother⟩
      obtain ⟨-, _, hset, -⟩ := (hcolors other shade).mp hother
      by_cases hsame : other = root
      · rw [hsame]
        decide
      · have hunset : styles.get? other = none :=
          (ComputedStyles.get?_insert ..).trans (if_neg hsame)
        rw [ComputedStyles.styleOf, hunset] at hset
        cases hset
    rw [hcell, Option.map_some, (hlaw 1 1 cell hcell).onTop root _ htop]

end Renderer

end StyledTree
