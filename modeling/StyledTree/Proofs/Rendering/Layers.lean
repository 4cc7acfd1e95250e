import StyledTree.Proofs.Rendering.Lines
import StyledTree.Proofs.Rendering.Strokes

/-!
# What is drawn behind and over a node

Among the strokes of a tree, those of one node in it lie together. On a row of that
node, the strokes before them write no text, and their grounds are the same in all of
its columns; the strokes after them do not touch the row at all.
-/

namespace StyledTree

namespace Stroke

def Wordless (y : Int) : Stroke → Prop
  | fill _ _ => True
  | mark _ _ => True
  | write _ row width _ _ => y = row → width = 0

/-- The ground that the stroke gives to a row is the same in all columns of a slot. -/
def Level (slot : Slot) (y : Int) : Stroke → Prop
  | fill region _ => ∀ x x', slot.Spans x → slot.Spans x' →
      region.Covers x y → region.Covers x' y
  | mark _ _ => True
  | write _ _ _ _ _ => True

/-- On a row, the stroke is behind the columns of a slot: it writes nothing there, and
gives them all one ground or none. -/
def Behind (slot : Slot) (y : Int) (stroke : Stroke) : Prop :=
  stroke.Wordless y ∧ stroke.Level slot y

theorem behind_of_not_touches {slot : Slot} {y : Int} {stroke : Stroke}
    (h : ∀ x, ¬stroke.Touches x y) : stroke.Behind slot y := by
  cases stroke with
  | fill region color => exact ⟨trivial, fun x _ _ _ hcovers => absurd hcovers (h x)⟩
  | mark block content => exact ⟨trivial, trivial⟩
  | write left row width text color =>
      refine ⟨?_, trivial⟩
      rintro rfl
      by_contra hwidth
      refine h left ⟨rfl, Int.le_refl left, ?_⟩
      omega

/-- Strokes with a part in them: the ones before it have some property, and the ones
after it do not touch a row. -/
def Encloses (y : Int) (allowed : Stroke → Prop) (whole part : List Stroke) : Prop :=
  ∃ before after, whole = before ++ part ++ after ∧ (∀ stroke ∈ before, allowed stroke) ∧
    ∀ stroke ∈ after, ∀ x, ¬stroke.Touches x y

namespace Encloses

variable {y : Int} {allowed : Stroke → Prop}

theorem refl (y : Int) (allowed : Stroke → Prop) (strokes : List Stroke) :
    Encloses y allowed strokes strokes :=
  ⟨[], [], (List.append_nil strokes).symm, fun _ hmem => (by cases hmem),
    fun _ hmem => (by cases hmem)⟩

theorem of_append {own above part below : List Stroke} (hown : ∀ stroke ∈ own, allowed stroke)
    (habove : ∀ stroke ∈ above, allowed stroke)
    (hbelow : ∀ stroke ∈ below, ∀ x, ¬stroke.Touches x y) :
    Encloses y allowed (own ++ (above ++ (part ++ below))) part := by
  refine ⟨own ++ above, below, by simp only [List.append_assoc], ?_, hbelow⟩
  intro stroke hmem
  exact (List.mem_append.mp hmem).elim (hown stroke) (habove stroke)

theorem trans {whole middle part : List Stroke} (houter : Encloses y allowed whole middle)
    (hinner : Encloses y allowed middle part) : Encloses y allowed whole part := by
  obtain ⟨before, after, rfl, hbefore, hafter⟩ := houter
  obtain ⟨before', after', rfl, hbefore', hafter'⟩ := hinner
  refine ⟨before ++ before', after' ++ after, by simp only [List.append_assoc], ?_, ?_⟩
  · intro stroke hmem
    exact (List.mem_append.mp hmem).elim (hbefore stroke) (hbefore' stroke)
  · intro stroke hmem
    exact (List.mem_append.mp hmem).elim (hafter' stroke) (hafter stroke)

end Encloses

/-- Strokes with a part in them: on a row, the ones before it are behind the columns of
a slot, and the ones after it are elsewhere. -/
def Layered (slot : Slot) (y : Int) (whole part : List Stroke) : Prop :=
  ∃ before after, whole = before ++ part ++ after ∧ (∀ stroke ∈ before, stroke.Behind slot y) ∧
    ∀ stroke ∈ after, ∀ x, ¬stroke.Touches x y

theorem layered_iff {slot : Slot} {y : Int} {whole part : List Stroke} :
    Layered slot y whole part ↔ Encloses y (Behind slot y) whole part :=
  Iff.rfl

theorem Layered.trans {slot : Slot} {y : Int} {whole middle part : List Stroke}
    (houter : Layered slot y whole middle) (hinner : Layered slot y middle part) :
    Layered slot y whole part :=
  layered_iff.mpr ((layered_iff.mp houter).trans (layered_iff.mp hinner))

end Stroke

namespace Document

variable {doc : Document}

namespace Forest

theorem strokesAll_append (h : doc.Forest) (look : Look) (left row : Int) (width : Nat)
    (ink : Terminal.Color) {above : List NodeId} (below : List NodeId)
    (howned : ∀ id ∈ above, doc.contains id = true) :
    Tree.strokesAll look left row width ink ((above ++ below).map doc.subtree) =
      Tree.strokesAll look left row width ink (above.map doc.subtree) ++
        Tree.strokesAll look left (row + doc.stackedHeight look.spacing above) width ink
          (below.map doc.subtree) := by
  induction above generalizing row with
  | nil => rw [List.nil_append, stackedHeight, Int.natCast_zero, Int.add_zero]; rfl
  | cons id later ih =>
      rw [List.cons_append, List.map_cons, List.map_cons, Tree.strokesAll, Tree.strokesAll,
        ih _ fun other hmem => howned other (List.mem_cons_of_mem _ hmem),
        h.paintedHeight_subtree look (howned id List.mem_cons_self), stackedHeight,
        List.append_assoc, Int.natCast_add, Int.add_assoc]

/-- Everything that a stroke of an element can be: the ground of an element there, the
marks on its padding, or a text on its row. -/
theorem stroke_cases (h : doc.Forest) (look : Look) (start : NodeId × Slot)
    (hstart : doc.isElement start.1 = true) {ground : Option Terminal.Color}
    {ink : Terminal.Color} {stroke : Stroke}
    (hmem : stroke ∈ (doc.subtree start.1).strokes look start.2.x start.2.y start.2.width
      ground ink) :
    (∃ inner color, doc.Within look.spacing start inner ∧ doc.isElement inner.1 = true ∧
        ((look.colors inner.1).bg = some color ∨ inner = start ∧ ground = some color) ∧
        stroke = .fill (doc.blockAt look.spacing inner.2 inner.1) color) ∨
      (look.marksPadding = true ∧ ∃ inner, doc.Within look.spacing start inner ∧
        doc.isElement inner.1 = true ∧ 0 < (look.spacing inner.1).padding ∧
        stroke = .mark (doc.blockAt look.spacing inner.2 inner.1)
          (doc.contentAt look.spacing inner.2 inner.1)) ∨
      ∃ owner id words row, doc.Prints look.spacing start owner id words row ∧
        stroke = .write (doc.lineSlot look.spacing owner row).x row
          (doc.lineSlot look.spacing owner row).width words (look.colors owner.1).fg := by
  obtain ⟨id, slot⟩ := start
  induction id using h.descend generalizing slot ground ink with
  | hstep id ih =>
      rcases (h.mem_strokes_iff look hstart).mp hmem with
        ⟨color, hcolor, rfl⟩ | ⟨hmarks, rfl⟩ | ⟨inner, hnests, hstroke⟩
      · refine .inl ⟨(id, slot), color, .refl, hstart, ?_, rfl⟩
        exact (Option.or_eq_some_iff.mp hcolor).imp_right fun hground => ⟨rfl, hground.2⟩
      · exact .inr (.inl ⟨hmarks.1, (id, slot), .refl, hstart, hmarks.2, rfl⟩)
      · have hchild := hnests.mem_children
        by_cases helement : doc.isElement inner.1 = true
        · rcases ih inner.1 hchild inner.2 helement hstroke with
            ⟨top, color, hwithin, htop, hcolor, hfill⟩ | ⟨hmarks, top, hwithin, hmark⟩ |
              ⟨owner, text, words, row, hprints, hwrite⟩
          · have hown := hcolor.resolve_right fun hground => (by cases hground.2)
            exact .inl ⟨top, color, .head hnests hwithin, htop, .inl hown, hfill⟩
          · exact .inr (.inl ⟨hmarks, top, .head hnests hwithin, hmark⟩)
          · exact .inr (.inr ⟨owner, text, words, row,
              ⟨.head hnests hprints.within, hprints.text, hprints.place⟩, hwrite⟩)
        · obtain ⟨words, htext⟩ := exists_text (h.contains_of_mem_children hchild) helement
          rw [h.subtree_of_text htext] at hstroke
          obtain ⟨text, place⟩ := inner
          obtain ⟨above, below, hsplit, rfl⟩ := mem_stack_iff.mp hnests
          exact .inr (.inr ⟨(id, slot), text, words, _, ⟨.refl, htext, above, below, hsplit, rfl⟩,
            List.mem_singleton.mp hstroke⟩)

theorem strokesAll_rows (h : doc.Forest) (look : Look) {left row : Int} {width : Nat}
    {ink : Terminal.Color} {ids : List NodeId} (howned : ∀ id ∈ ids, doc.contains id = true)
    {stroke : Stroke}
    (hmem : stroke ∈ Tree.strokesAll look left row width ink (ids.map doc.subtree)) {x y : Int}
    (htouches : stroke.Touches x y) :
    row ≤ y ∧ y < row + doc.stackedHeight look.spacing ids := by
  obtain ⟨inner, hinner, hstroke⟩ := (h.mem_strokesAll_iff look howned).mp hmem
  have hid := howned inner.1 (mem_of_mem_stack hinner)
  have harea := h.area_rows hid (h.touches_area look hid hstroke htouches)
  have hrows := stack_rows hinner
  omega

theorem encloses_nests (h : doc.Forest) (look : Look) {outer inner : NodeId × Slot}
    (hnests : doc.Nests look.spacing outer inner) {y : Int}
    (hy : inner.2.y ≤ y ∧ y < inner.2.y + doc.outerHeight look.spacing inner.1)
    {allowed : Stroke → Prop}
    (hapart : ∀ stroke : Stroke, (∀ x, ¬stroke.Touches x y) → allowed stroke)
    (ground : Option Terminal.Color) (ink : Terminal.Color)
    (hown : ∀ stroke ∈ doc.ownStrokes look outer ground, allowed stroke) :
    Stroke.Encloses y allowed
      ((doc.subtree outer.1).strokes look outer.2.x outer.2.y outer.2.width ground ink)
      ((doc.subtree inner.1).strokes look inner.2.x inner.2.y inner.2.width none
        (look.colors outer.1).fg) := by
  have helement := isElement_of_mem_children hnests.mem_children
  obtain ⟨id, place⟩ := inner
  obtain ⟨above, below, hsplit, rfl⟩ := mem_stack_iff.mp hnests
  have howned : ∀ child ∈ above ++ id :: below, doc.contains child = true := by
    intro child hmem
    exact h.contains_of_mem_children (by rw [hsplit]; exact hmem)
  have habove := fun child hmem => howned child (List.mem_append_left _ hmem)
  have hbelow := fun child hmem =>
    howned child (List.mem_append_right _ (List.mem_cons_of_mem id hmem))
  have hid := howned id (List.mem_append_right _ List.mem_cons_self)
  rw [h.strokes_eq_own_append look helement outer.2 ground ink, hsplit]
  simp only
  rw [h.strokesAll_append look _ _ _ _ (id :: below) habove, List.map_cons, Tree.strokesAll,
    h.paintedHeight_subtree look hid]
  refine .of_append hown ?_ ?_
  · intro stroke hmem
    refine hapart stroke fun x htouches => ?_
    have hrows := h.strokesAll_rows look habove hmem htouches
    simp only at hy
    omega
  · intro stroke hmem x htouches
    have hrows := h.strokesAll_rows look hbelow hmem htouches
    simp only at hy
    omega

/-- The strokes of a node among those of a node above it, when the strokes that the
nodes between them make themselves are allowed there. -/
theorem encloses_within (h : doc.Forest) (look : Look) {outer inner : NodeId × Slot}
    (hwithin : doc.Within look.spacing outer inner) {y : Int}
    (hy : inner.2.y ≤ y ∧ y < inner.2.y + doc.outerHeight look.spacing inner.1)
    {allowed : Stroke → Prop}
    (hapart : ∀ stroke : Stroke, (∀ x, ¬stroke.Touches x y) → allowed stroke)
    (hown : ∀ middle next, doc.Nests look.spacing middle next →
      doc.Within look.spacing next inner → ∀ ground, ∀ stroke ∈ doc.ownStrokes look middle ground,
        allowed stroke)
    (ground : Option Terminal.Color) (ink : Terminal.Color) :
    ∃ ground' ink', Stroke.Encloses y allowed
      ((doc.subtree outer.1).strokes look outer.2.x outer.2.y outer.2.width ground ink)
      ((doc.subtree inner.1).strokes look inner.2.x inner.2.y inner.2.width ground' ink') := by
  induction hwithin using Relation.ReflTransGen.head_induction_on generalizing ground ink with
  | refl => exact ⟨ground, ink, .refl ..⟩
  | @head outer middle hnests hrest ih =>
      have hrows := h.within_rows hrest
      have houter := h.encloses_nests look hnests (y := y) (by omega) hapart ground ink
        (hown outer middle hnests hrest ground)
      obtain ⟨ground', ink', hinner⟩ := ih none (look.colors outer.1).fg
      exact ⟨ground', ink', houter.trans hinner⟩

theorem behind_of_mem_own {look : Look} {slot : Slot} {outer : NodeId × Slot}
    (hinside : slot.Inside outer.2) {y : Int} {ground : Option Terminal.Color} {stroke : Stroke}
    (hmem : stroke ∈ doc.ownStrokes look outer ground) : stroke.Behind slot y := by
  rcases mem_ownStrokes_iff.mp hmem with ⟨color, -, rfl⟩ | ⟨-, rfl⟩
  · refine ⟨trivial, fun x x' _ hx' hcovers => ?_⟩
    exact ⟨hinside.spans hx', hcovers.2⟩
  · exact ⟨trivial, trivial⟩

theorem layered_nests (h : doc.Forest) (look : Look) {outer inner : NodeId × Slot}
    (hnests : doc.Nests look.spacing outer inner) {slot : Slot} (hinside : slot.Inside outer.2)
    {y : Int} (hy : inner.2.y ≤ y ∧ y < inner.2.y + doc.outerHeight look.spacing inner.1)
    (ground : Option Terminal.Color) (ink : Terminal.Color) :
    Stroke.Layered slot y
      ((doc.subtree outer.1).strokes look outer.2.x outer.2.y outer.2.width ground ink)
      ((doc.subtree inner.1).strokes look inner.2.x inner.2.y inner.2.width none
        (look.colors outer.1).fg) :=
  Stroke.layered_iff.mpr (h.encloses_nests look hnests hy
    (fun _ => Stroke.behind_of_not_touches) ground ink fun _ => behind_of_mem_own hinside)

theorem layered_within (h : doc.Forest) (look : Look) {outer inner : NodeId × Slot}
    (hwithin : doc.Within look.spacing outer inner) {slot : Slot} (hinside : slot.Inside inner.2)
    {y : Int} (hy : inner.2.y ≤ y ∧ y < inner.2.y + doc.outerHeight look.spacing inner.1)
    (ground : Option Terminal.Color) (ink : Terminal.Color) :
    ∃ ground' ink', Stroke.Layered slot y
      ((doc.subtree outer.1).strokes look outer.2.x outer.2.y outer.2.width ground ink)
      ((doc.subtree inner.1).strokes look inner.2.x inner.2.y inner.2.width ground' ink') := by
  refine h.encloses_within look hwithin hy (fun _ => Stroke.behind_of_not_touches) ?_ ground ink
  intro middle next hnests hrest ground stroke hmem
  exact behind_of_mem_own ((hinside.trans (Within.inside hrest)).trans hnests.inside) hmem

theorem layered_prints (h : doc.Forest) (look : Look) {start owner : NodeId × Slot} {id : NodeId}
    {words : String} {row : Int} (hprints : doc.Prints look.spacing start owner id words row)
    (ground : Option Terminal.Color) (ink : Terminal.Color) :
    let line := doc.lineSlot look.spacing owner row
    Stroke.Layered line row
      ((doc.subtree start.1).strokes look start.2.x start.2.y start.2.width ground ink)
      [.write line.x row line.width words (look.colors owner.1).fg] := by
  intro line
  obtain ⟨hwithin, htext, hnests⟩ := prints_iff.mp hprints
  have hrow := h.lineSlot_rows look.spacing htext owner row
  have hrows := h.nests_rows hnests
  simp only at hrows
  obtain ⟨ground', ink', houter⟩ := h.layered_within look hwithin hnests.inside (y := row)
    (by omega) ground ink
  have hinner := h.layered_nests look hnests hnests.inside hrow ground' ink'
  rw [h.subtree_of_text htext, Tree.strokes] at hinner
  exact houter.trans hinner

end Forest

end Document

end StyledTree
