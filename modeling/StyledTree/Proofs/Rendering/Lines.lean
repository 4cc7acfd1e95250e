import StyledTree.Proofs.Rendering.Placement

/-!
# The lines of a rendered tree

Each text below an element gets a row of its own: the first row of the content of the
element that it belongs to, plus the rows of the nodes listed before it. Every node
has one slot only, and nodes that share a row lie on one path down the tree, so no
two texts have the same row.
-/

namespace StyledTree.Document

variable {doc : Document} {spacing : Spacing}

/-! ## One slot for each node -/

theorem slot_unique {x y : Int} {width : Nat} {ids : List NodeId} (distinct : ids.Nodup)
    {id : NodeId} {slot slot' : Slot} (hmem : (id, slot) ∈ doc.stack spacing x y width ids)
    (hmem' : (id, slot') ∈ doc.stack spacing x y width ids) : slot = slot' := by
  induction ids generalizing y with
  | nil => cases hmem
  | cons first later ih =>
      obtain ⟨hfresh, hlater⟩ := List.nodup_cons.mp distinct
      rcases List.mem_cons.mp hmem with heq | hmem
      · obtain ⟨rfl, rfl⟩ := Prod.mk.inj heq
        rcases List.mem_cons.mp hmem' with heq' | hmem'
        · exact (Prod.mk.inj heq').2.symm
        · exact absurd (mem_of_mem_stack hmem') hfresh
      · rcases List.mem_cons.mp hmem' with heq' | hmem'
        · obtain ⟨rfl, -⟩ := Prod.mk.inj heq'
          exact absurd (mem_of_mem_stack hmem) hfresh
        · exact ih hlater hmem hmem'

theorem row_unique {x y : Int} {width : Nat} {ids : List NodeId} {inner inner' : NodeId × Slot}
    (hmem : inner ∈ doc.stack spacing x y width ids)
    (hmem' : inner' ∈ doc.stack spacing x y width ids) {row : Int}
    (hrow : inner.2.y ≤ row ∧ row < inner.2.y + doc.outerHeight spacing inner.1)
    (hrow' : inner'.2.y ≤ row ∧ row < inner'.2.y + doc.outerHeight spacing inner'.1) :
    inner = inner' := by
  induction ids generalizing y with
  | nil => cases hmem
  | cons first later ih =>
      rcases List.mem_cons.mp hmem with rfl | hmem
      · rcases List.mem_cons.mp hmem' with rfl | hmem'
        · rfl
        · have hbelow := (stack_rows hmem').1
          simp only at hrow
          omega
      · rcases List.mem_cons.mp hmem' with rfl | hmem'
        · have hbelow := (stack_rows hmem).1
          simp only at hrow'
          omega
        · exact ih hmem hmem'

namespace Forest

theorem depth_le_of_within (h : doc.Forest) {outer inner : NodeId × Slot}
    (hwithin : doc.Within spacing outer inner) : doc.depth outer.1 ≤ doc.depth inner.1 := by
  induction hwithin with
  | refl => exact Nat.le_refl _
  | tail _ hnests ih =>
      rw [h.depth_child hnests.mem_children]
      exact Nat.le_succ_of_le ih

theorem within_unique (h : doc.Forest) {start inner inner' : NodeId × Slot}
    (hwithin : doc.Within spacing start inner) (hwithin' : doc.Within spacing start inner')
    (hsame : inner.1 = inner'.1) : inner = inner' := by
  induction hwithin generalizing inner' with
  | refl =>
      rcases Relation.ReflTransGen.cases_tail hwithin' with heq | ⟨outer, hrest, hnests⟩
      · exact heq.symm
      · have hle := h.depth_le_of_within hrest
        rw [hsame, h.depth_child hnests.mem_children] at hle
        omega
  | @tail outer inner hrest hnests ih =>
      have hparent := (h.linked _ _).mp hnests.mem_children
      rcases Relation.ReflTransGen.cases_tail hwithin' with heq | ⟨outer', hrest', hnests'⟩
      · have hle := h.depth_le_of_within hrest
        rw [← heq, ← hsame, h.depth_child hnests.mem_children] at hle
        omega
      · have hparent' := (h.linked _ _).mp hnests'.mem_children
        rw [← hsame, hparent] at hparent'
        obtain rfl := ih hrest' (Option.some.inj hparent')
        obtain ⟨id, slot⟩ := inner
        obtain ⟨id', slot'⟩ := inner'
        obtain rfl : id = id' := hsame
        rw [slot_unique (h.distinct outer.1) hnests hnests']

theorem within_total (h : doc.Forest) {start inner inner' : NodeId × Slot}
    (hwithin : doc.Within spacing start inner) (hwithin' : doc.Within spacing start inner')
    {row : Int} (hrow : inner.2.y ≤ row ∧ row < inner.2.y + doc.outerHeight spacing inner.1)
    (hrow' : inner'.2.y ≤ row ∧ row < inner'.2.y + doc.outerHeight spacing inner'.1) :
    doc.Within spacing inner inner' ∨ doc.Within spacing inner' inner := by
  induction hwithin using Relation.ReflTransGen.head_induction_on with
  | refl => exact Or.inl hwithin'
  | @head start middle hnests hrest ih =>
      rcases Relation.ReflTransGen.cases_head hwithin' with rfl | ⟨middle', hnests', hrest'⟩
      · exact Or.inr (.head hnests hrest)
      · -- The children on the two paths share the row and are therefore the same.
        have hrows := h.within_rows hrest
        have hrows' := h.within_rows hrest'
        have hmiddle : middle.2.y ≤ row ∧ row < middle.2.y + doc.outerHeight spacing middle.1 := by
          omega
        obtain rfl := row_unique hnests hnests' hmiddle (by omega)
        exact ih hrest'

theorem exists_within (h : doc.Forest) {root : NodeId} (slot : Slot) {id : NodeId}
    (hid : doc.contains id = true) (hbelow : root ∈ doc.inclusiveAncestors id) :
    ∃ inner, doc.Within spacing (root, slot) (id, inner) := by
  have hchain := h.inclusiveAncestors_spec hid
  generalize doc.inclusiveAncestors id = chain at hchain hbelow
  induction hchain with
  | top owned alone =>
      rw [List.mem_singleton.mp hbelow]
      exact ⟨slot, .refl⟩
  | @up id above chain link rest ih =>
      rcases List.mem_cons.mp hbelow with rfl | hbelow
      · exact ⟨slot, .refl⟩
      · obtain ⟨outer, hwithin⟩ := ih rest.contains hbelow
        obtain ⟨before, after, hsplit⟩ := List.append_of_mem ((h.linked above id).mpr link)
        exact ⟨_, hwithin.tail (mem_stack_iff.mpr ⟨before, after, hsplit, rfl⟩)⟩

end Forest

/-! ## Texts -/

/-- A text on its row: it stands in the content of an element at or below the start,
below the nodes listed before it. -/
structure Prints (doc : Document) (spacing : Spacing) (start owner : NodeId × Slot) (id : NodeId)
    (words : String) (row : Int) : Prop where
  within : doc.Within spacing start owner
  text : doc.text id = .ok words
  place : ∃ above below, doc.children owner.1 = above ++ id :: below ∧
    row = (doc.contentAt spacing owner.2 owner.1).y + doc.stackedHeight spacing above

def lineSlot (doc : Document) (spacing : Spacing) (owner : NodeId × Slot) (row : Int) : Slot :=
  let content := doc.contentAt spacing owner.2 owner.1
  ⟨content.x, row, content.width⟩

theorem prints_iff {start owner : NodeId × Slot} {id : NodeId} {words : String} {row : Int} :
    doc.Prints spacing start owner id words row ↔
      doc.Within spacing start owner ∧ doc.text id = .ok words ∧
        doc.Nests spacing owner (id, doc.lineSlot spacing owner row) := by
  constructor
  · rintro ⟨hwithin, htext, above, below, hsplit, rfl⟩
    exact ⟨hwithin, htext, mem_stack_iff.mpr ⟨above, below, hsplit, rfl⟩⟩
  · rintro ⟨hwithin, htext, hnests⟩
    obtain ⟨above, below, hsplit, hslot⟩ := mem_stack_iff.mp hnests
    exact ⟨hwithin, htext, above, below, hsplit, congrArg Slot.y hslot⟩

namespace Forest

theorem exists_prints (h : doc.Forest) {root : NodeId} (hroot : doc.isElement root = true)
    (slot : Slot) {id : NodeId} {words : String} (htext : doc.text id = .ok words)
    (hbelow : root ∈ doc.inclusiveAncestors id) :
    ∃ owner row, doc.Prints spacing (root, slot) owner id words row := by
  obtain ⟨inner, hwithin⟩ := h.exists_within slot (contains_of_text htext) hbelow
  rcases Relation.ReflTransGen.cases_tail hwithin with heq | ⟨owner, hrest, hnests⟩
  · obtain ⟨rfl, -⟩ := Prod.mk.inj heq
    exact absurd hroot (not_isElement_of_text htext)
  · obtain ⟨above, below, hsplit, -⟩ := mem_stack_iff.mp hnests
    exact ⟨owner, _, hrest, htext, above, below, hsplit, rfl⟩

theorem eq_of_within_text {text other : NodeId × Slot} (hnone : ¬doc.isElement text.1 = true)
    (hbelow : doc.Within spacing text other) : text = other := by
  rcases Relation.ReflTransGen.cases_head hbelow with heq | ⟨next, hnext, -⟩
  · exact heq
  · exact absurd (isElement_of_mem_children hnext.mem_children) hnone

theorem lineSlot_rows (h : doc.Forest) (spacing : Spacing) {id : NodeId} {words : String}
    (htext : doc.text id = .ok words) (owner : NodeId × Slot) (row : Int) :
    (doc.lineSlot spacing owner row).y ≤ row ∧
      row < (doc.lineSlot spacing owner row).y + doc.outerHeight spacing id := by
  rw [h.outerHeight_eq_one spacing (contains_of_text htext) (not_isElement_of_text htext)]
  exact ⟨Int.le_refl row, Int.lt_succ row⟩

theorem prints_unique (h : doc.Forest) {start owner owner' : NodeId × Slot} {id id' : NodeId}
    {words words' : String} {row row' : Int}
    (hprints : doc.Prints spacing start owner id words row)
    (hprints' : doc.Prints spacing start owner' id' words' row') : id = id' ↔ row = row' := by
  obtain ⟨howner, htext, hnests⟩ := prints_iff.mp hprints
  obtain ⟨howner', htext', hnests'⟩ := prints_iff.mp hprints'
  have hwithin := howner.tail hnests
  have hwithin' := howner'.tail hnests'
  constructor
  · intro hsame
    exact congrArg (·.2.y) (h.within_unique hwithin hwithin' hsame)
  · rintro rfl
    rcases h.within_total hwithin hwithin' (h.lineSlot_rows spacing htext owner row)
      (h.lineSlot_rows spacing htext' owner' row) with hbelow | hbelow
    · exact congrArg Prod.fst (eq_of_within_text (not_isElement_of_text htext) hbelow)
    · exact (congrArg Prod.fst (eq_of_within_text (not_isElement_of_text htext') hbelow)).symm

end Forest

end StyledTree.Document
