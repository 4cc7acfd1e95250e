import StyledTree.Paint
import StyledTree.Proofs.Document.Descent

/-!
# Where nodes are placed

Rendering gives every node at or below an element a slot: where its outer box
begins, and how wide it is. Slots nest with the nodes, and the rows of siblings do
not overlap. Heights and strokes of a subtree are restated here in terms of the
document.
-/

namespace StyledTree

/-- Whether a cell lies in a region, which may be of any size. -/
def Region.Covers (region : Region) (x y : Int) : Prop :=
  (region.x ≤ x ∧ x < region.x + region.width) ∧ region.y ≤ y ∧ y < region.y + region.height

instance (region : Region) (x y : Int) : Decidable (region.Covers x y) :=
  inferInstanceAs (Decidable (_ ∧ _))

/-- Where the outer box of a node begins, and how wide it is. -/
structure Slot where
  x : Int
  y : Int
  width : Nat
deriving Repr, DecidableEq

namespace Slot

def Spans (slot : Slot) (x : Int) : Prop := slot.x ≤ x ∧ x < slot.x + slot.width

/-- A slot without columns is inside every other. -/
def Inside (slot outer : Slot) : Prop :=
  slot.width = 0 ∨ outer.x ≤ slot.x ∧ slot.x + slot.width ≤ outer.x + outer.width

theorem Inside.trans {a b c : Slot} (hab : a.Inside b) (hbc : b.Inside c) : a.Inside c := by
  simp only [Slot.Inside] at hab hbc ⊢
  omega

theorem Inside.spans {slot outer : Slot} (h : slot.Inside outer) {x : Int}
    (hx : slot.Spans x) : outer.Spans x := by
  simp only [Slot.Inside, Slot.Spans] at h hx ⊢
  omega

end Slot

namespace Document

variable (doc : Document) (spacing : Spacing)

def outerHeight (id : NodeId) : Nat := (doc.subtree id).outerHeight spacing

def stackedHeight : List NodeId → Nat
  | [] => 0
  | id :: later => doc.outerHeight spacing id + stackedHeight later

def contentHeight (id : NodeId) : Nat :=
  if (doc.children id).isEmpty then 1 else doc.stackedHeight spacing (doc.children id)

/-- The block of an element with its outer box in a slot: below the margin, and as
wide as the slot. -/
def blockAt (slot : Slot) (id : NodeId) : Region :=
  ⟨slot.x, slot.y + (spacing id).marginTop, slot.width,
    doc.contentHeight spacing id + 2 * (spacing id).padding⟩

def contentAt (slot : Slot) (id : NodeId) : Region :=
  (doc.blockAt spacing slot id).inset (spacing id).padding

/-- The slots of nodes one below the other, all of one width. -/
def stack (x y : Int) (width : Nat) : List NodeId → List (NodeId × Slot)
  | [] => []
  | id :: later =>
      (id, ⟨x, y, width⟩) :: stack x (y + doc.outerHeight spacing id) width later

/-- One node in its slot is a child of another, in the slot that it gets there. -/
def Nests (outer inner : NodeId × Slot) : Prop :=
  let content := doc.contentAt spacing outer.2 outer.1
  inner ∈ doc.stack spacing content.x content.y content.width (doc.children outer.1)

/-- One node in its slot is at or below another, in the slot that it gets there. -/
def Within : NodeId × Slot → NodeId × Slot → Prop := Relation.ReflTransGen (doc.Nests spacing)

variable {doc spacing}

/-! ## Heights -/

theorem stackedHeight_map_subtree (ids : List NodeId) :
    Tree.stackedHeight spacing (ids.map doc.subtree) = doc.stackedHeight spacing ids := by
  induction ids with
  | nil => rfl
  | cons id later ih =>
      rw [List.map_cons, Tree.stackedHeight, ih, stackedHeight, outerHeight]

theorem block_map_subtree (slot : Slot) (id : NodeId) :
    Tree.block spacing slot.x slot.y slot.width id ((doc.children id).map doc.subtree) =
      doc.blockAt spacing slot id := by
  rw [Tree.block, Tree.blockHeight, Tree.contentHeight, List.isEmpty_map,
    stackedHeight_map_subtree]
  rfl

namespace Forest

theorem outerHeight_of_isElement (h : doc.Forest) (spacing : Spacing) {id : NodeId}
    (hid : doc.isElement id = true) :
    doc.outerHeight spacing id = (spacing id).marginTop +
      (doc.contentHeight spacing id + 2 * (spacing id).padding) := by
  rw [outerHeight, h.subtree_of_isElement hid, Tree.outerHeight_element, Tree.blockHeight,
    Tree.contentHeight, List.isEmpty_map, stackedHeight_map_subtree]
  rfl

theorem outerHeight_eq_one (h : doc.Forest) (spacing : Spacing) {id : NodeId}
    (hid : doc.contains id = true) (helement : ¬doc.isElement id = true) :
    doc.outerHeight spacing id = 1 := by
  obtain ⟨words, htext⟩ := h.subtree_of_not_isElement hid helement
  rw [outerHeight, htext]
  rfl

/-- Painting moves on by as many rows as were measured, since no node of a forest
is missing. -/
theorem paintedHeight_subtree (h : doc.Forest) (look : Look) {id : NodeId}
    (hid : doc.contains id = true) :
    (doc.subtree id).paintedHeight look = doc.outerHeight look.spacing id := by
  obtain ⟨⟨parent, content⟩, hnode⟩ := (contains_iff_node? doc id).mp hid
  rw [outerHeight, h.subtree_eq, hnode]
  cases content with
  | element element => rfl
  | text words => rfl

end Forest

/-! ## Rows of slots -/

theorem stack_rows {x y : Int} {width : Nat} {ids : List NodeId} {inner : NodeId × Slot}
    (hmem : inner ∈ doc.stack spacing x y width ids) :
    y ≤ inner.2.y ∧
      inner.2.y + doc.outerHeight spacing inner.1 ≤ y + doc.stackedHeight spacing ids := by
  induction ids generalizing y with
  | nil => cases hmem
  | cons id later ih =>
      have htotal : doc.stackedHeight spacing (id :: later) =
          doc.outerHeight spacing id + doc.stackedHeight spacing later := rfl
      rcases List.mem_cons.mp hmem with rfl | hlater
      · simp only
        omega
      · have hrows := ih hlater
        omega

theorem mem_of_mem_stack {x y : Int} {width : Nat} {ids : List NodeId} {inner : NodeId × Slot}
    (hmem : inner ∈ doc.stack spacing x y width ids) : inner.1 ∈ ids := by
  induction ids generalizing y with
  | nil => cases hmem
  | cons id later ih =>
      rcases List.mem_cons.mp hmem with rfl | hlater
      · exact List.mem_cons_self
      · exact List.mem_cons_of_mem _ (ih hlater)

theorem mem_stack_iff {x y : Int} {width : Nat} {ids : List NodeId} {id : NodeId} {slot : Slot} :
    (id, slot) ∈ doc.stack spacing x y width ids ↔
      ∃ above below, ids = above ++ id :: below ∧
        slot = ⟨x, y + doc.stackedHeight spacing above, width⟩ := by
  induction ids generalizing y with
  | nil =>
      refine ⟨fun hmem => absurd hmem List.not_mem_nil, ?_⟩
      rintro ⟨above, below, hsplit, -⟩
      cases above <;> cases hsplit
  | cons first later ih =>
      rw [stack, List.mem_cons, ih]
      constructor
      · rintro (heq | ⟨above, below, rfl, rfl⟩)
        · obtain ⟨rfl, rfl⟩ := Prod.mk.inj heq
          exact ⟨[], later, rfl, by rw [stackedHeight, Int.natCast_zero, Int.add_zero]⟩
        · refine ⟨first :: above, below, rfl, ?_⟩
          rw [stackedHeight, Int.natCast_add, Int.add_assoc]
      · rintro ⟨above, below, hsplit, rfl⟩
        cases above with
        | nil =>
            cases hsplit
            left
            rw [stackedHeight, Int.natCast_zero, Int.add_zero]
        | cons first' above =>
            cases hsplit
            right
            refine ⟨above, below, rfl, ?_⟩
            rw [stackedHeight, Int.natCast_add, Int.add_assoc]

theorem Nests.mem_children {outer inner : NodeId × Slot} (hnests : doc.Nests spacing outer inner) :
    inner.1 ∈ doc.children outer.1 :=
  mem_of_mem_stack hnests

/-! ## Columns of slots -/

theorem Nests.columns {outer inner : NodeId × Slot} (hnests : doc.Nests spacing outer inner) :
    inner.2.x = outer.2.x + (spacing outer.1).padding ∧
      inner.2.width = outer.2.width - 2 * (spacing outer.1).padding := by
  obtain ⟨_, _, -, hslot⟩ := mem_stack_iff.mp hnests
  rw [hslot]
  refine ⟨rfl, ?_⟩
  show ((outer.2.width : Int) - 2 * ((spacing outer.1).padding : Nat)).toNat = _
  omega

theorem Nests.inside {outer inner : NodeId × Slot} (hnests : doc.Nests spacing outer inner) :
    inner.2.Inside outer.2 := by
  have hcolumns := hnests.columns
  simp only [Slot.Inside]
  omega

theorem Within.inside {outer inner : NodeId × Slot} (hwithin : doc.Within spacing outer inner) :
    inner.2.Inside outer.2 := by
  induction hwithin with
  | refl => exact Or.inr ⟨Int.le_refl _, Int.le_refl _⟩
  | tail _ hnests ih => exact hnests.inside.trans ih

namespace Forest

theorem nests_rows (h : doc.Forest) {outer inner : NodeId × Slot}
    (hnests : doc.Nests spacing outer inner) :
    outer.2.y + (spacing outer.1).marginTop ≤ inner.2.y ∧
      inner.2.y + doc.outerHeight spacing inner.1 ≤
        outer.2.y + doc.outerHeight spacing outer.1 := by
  have hchild := hnests.mem_children
  have hrows := stack_rows hnests
  have hheight := h.outerHeight_of_isElement spacing
    (isElement_of_mem_children hchild)
  have hnonempty : (doc.children outer.1).isEmpty = false :=
    List.isEmpty_eq_false_iff_exists_mem.mpr ⟨_, hchild⟩
  have htop : (doc.contentAt spacing outer.2 outer.1).y =
      outer.2.y + (spacing outer.1).marginTop + (spacing outer.1).padding := rfl
  rw [contentHeight, hnonempty, if_neg Bool.false_ne_true] at hheight
  rw [htop] at hrows
  omega

theorem within_rows (h : doc.Forest) {outer inner : NodeId × Slot}
    (hwithin : doc.Within spacing outer inner) :
    outer.2.y ≤ inner.2.y ∧
      inner.2.y + doc.outerHeight spacing inner.1 ≤
        outer.2.y + doc.outerHeight spacing outer.1 := by
  induction hwithin with
  | refl => exact ⟨Int.le_refl _, Int.le_refl _⟩
  | tail _ hnests ih =>
      have hrows := h.nests_rows hnests
      omega

theorem block_rows (h : doc.Forest) {outer inner : NodeId × Slot} {x y : Int}
    (hwithin : doc.Within spacing outer inner) (helement : doc.isElement inner.1 = true)
    (hcovers : (doc.blockAt spacing inner.2 inner.1).Covers x y) :
    outer.2.y ≤ y ∧ y < outer.2.y + doc.outerHeight spacing outer.1 := by
  have hrows := h.within_rows hwithin
  have hheight := h.outerHeight_of_isElement spacing helement
  obtain ⟨-, htop, hbottom⟩ := hcovers
  simp only [blockAt] at htop hbottom
  omega

theorem mem_inclusiveAncestors_of_within (h : doc.Forest) {outer inner : NodeId × Slot}
    (hwithin : doc.Within spacing outer inner) (houter : doc.contains outer.1 = true) :
    outer.1 ∈ doc.inclusiveAncestors inner.1 := by
  induction hwithin with
  | refl => exact h.mem_inclusiveAncestors_self houter
  | tail _ hnests ih =>
      rw [h.inclusiveAncestors_of_parent ((h.linked _ _).mp hnests.mem_children)]
      exact List.mem_cons_of_mem _ ih

/-! ## Strokes -/

theorem strokes_subtree (h : doc.Forest) (look : Look) {id : NodeId}
    (hid : doc.isElement id = true) (slot : Slot) (ground : Option Terminal.Color)
    (ink : Terminal.Color) :
    (doc.subtree id).strokes look slot.x slot.y slot.width ground ink =
      let block := doc.blockAt look.spacing slot id
      let content := doc.contentAt look.spacing slot id
      (((look.colors id).bg.or ground).map (Stroke.fill block)).toList ++
        (if look.marksPadding ∧ 0 < (look.spacing id).padding then
          [Stroke.mark block content] else []) ++
        Tree.strokesAll look content.x content.y content.width (look.colors id).fg
          ((doc.children id).map doc.subtree) := by
  rw [h.subtree_of_isElement hid, Tree.strokes, block_map_subtree]
  rfl

end Forest

end Document

end StyledTree
