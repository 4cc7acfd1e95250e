import StyledTree.Proofs.Document.Descent

/-!
# Every node is in one tree

The way up from a node ends at a root, and the trees of the roots are where its
way up says they are: each node is in one of them, once.
-/

namespace StyledTree.Document

/-- The nodes without a parent, in the order in which they were made. -/
def roots (doc : Document) : List NodeId := doc.ids.filter fun id => (doc.parent id).isNone

theorem mem_roots_iff (doc : Document) (id : NodeId) :
    id ∈ doc.roots ↔ doc.contains id = true ∧ doc.parent id = none := by
  rw [roots, List.mem_filter, mem_ids_iff, Option.isNone_iff_eq_none]

theorem Ascent.exists_root {doc : Document} {id : NodeId} {chain : List NodeId}
    (h : doc.Ascent id chain) : ∃ root ∈ doc.roots, chain.getLast? = some root := by
  induction h with
  | @top id owned alone => exact ⟨id, (mem_roots_iff doc id).mpr ⟨owned, alone⟩, rfl⟩
  | up link rest ih =>
      obtain ⟨root, hroot, hlast⟩ := ih
      refine ⟨root, hroot, ?_⟩
      rw [List.getLast?_cons, hlast, Option.getD_some]

theorem depth_of_mem_roots {doc : Document} {id : NodeId} (hid : id ∈ doc.roots) :
    doc.depth id = 1 := by
  obtain ⟨howned, halone⟩ := (mem_roots_iff doc id).mp hid
  rw [depth, inclusiveAncestors_of_parent_none howned halone, List.length_singleton]

namespace Forest

variable {doc : Document}

theorem root_unique (h : doc.Forest) {id a b : NodeId} (hid : doc.contains id = true)
    (ha : a ∈ doc.roots) (hb : b ∈ doc.roots) (hida : a ∈ doc.inclusiveAncestors id)
    (hidb : b ∈ doc.inclusiveAncestors id) : a = b := by
  apply h.eq_of_depth_eq hid hida hidb
  rw [depth_of_mem_roots ha, depth_of_mem_roots hb]

theorem eq_of_mem_inclusiveDescendants_roots (h : doc.Forest) {id a b : NodeId}
    (ha : a ∈ doc.roots) (hb : b ∈ doc.roots) (hida : id ∈ doc.inclusiveDescendants a)
    (hidb : id ∈ doc.inclusiveDescendants b) : a = b := by
  have hid := h.contains_of_mem_inclusiveDescendants hida
  have howneda := ((mem_roots_iff doc a).mp ha).1
  have hownedb := ((mem_roots_iff doc b).mp hb).1
  exact h.root_unique hid ha hb ((h.mem_inclusiveDescendants_iff howneda hid).mp hida)
    ((h.mem_inclusiveDescendants_iff hownedb hid).mp hidb)

theorem exists_root_above (h : doc.Forest) {id : NodeId} (hid : doc.contains id = true) :
    ∃ root ∈ doc.roots, id ∈ doc.inclusiveDescendants root := by
  obtain ⟨root, hroot, hlast⟩ := (h.inclusiveAncestors_spec hid).exists_root
  refine ⟨root, hroot, ?_⟩
  rw [h.mem_inclusiveDescendants_iff ((mem_roots_iff doc root).mp hroot).1 hid]
  exact List.mem_of_getLast? hlast

theorem flatMap_roots_perm (h : doc.Forest) :
    (doc.roots.flatMap doc.inclusiveDescendants).Perm doc.ids := by
  have hroots : doc.roots.Nodup := doc.nodup_ids.filter _
  have hnodup : (doc.roots.flatMap doc.inclusiveDescendants).Nodup := by
    rw [List.nodup_flatMap]
    refine ⟨fun root _ => h.nodup_inclusiveDescendants root, hroots.imp_of_mem ?_⟩
    intro a b ha hb hne id hida hidb
    exact hne (h.eq_of_mem_inclusiveDescendants_roots ha hb hida hidb)
  rw [List.perm_ext_iff_of_nodup hnodup doc.nodup_ids]
  intro id
  rw [List.mem_flatMap, mem_ids_iff]
  constructor
  · rintro ⟨root, -, hmem⟩
    exact h.contains_of_mem_inclusiveDescendants hmem
  · exact h.exists_root_above

end Forest

/-- A node is on the walk from another exactly if that one is on its way up, which
leads from the node, link by link and without a repetition, to one without a parent.
The walks from the nodes without a parent share out the document: each of its nodes is
on one of them, once, and all of them together are its nodes. -/
theorem mem_descendants_iff_and_partition (number : Nat) (calls : List Call) :
    let doc := (Document.empty number).run calls
    (∀ root id, doc.contains root = true → doc.contains id = true →
      (id ∈ doc.inclusiveDescendants root ↔ root ∈ doc.inclusiveAncestors id)) ∧
    (∀ id, doc.contains id = true → doc.Ascent id (doc.inclusiveAncestors id) ∧
      (doc.inclusiveAncestors id).head? = some id ∧
      (∃ top, (doc.inclusiveAncestors id).getLast? = some top ∧ doc.parent top = none) ∧
      (doc.inclusiveAncestors id).Nodup) ∧
    (∀ id, doc.contains id = true → ∃ top ∈ doc.roots,
      (doc.inclusiveDescendants top).count id = 1 ∧
        ∀ other ∈ doc.roots, other ≠ top → id ∉ doc.inclusiveDescendants other) ∧
    (doc.roots.flatMap doc.inclusiveDescendants).Perm doc.ids := by
  intro doc
  have hforest : doc.Forest := (Forest.empty number).run calls
  refine ⟨?_, ?_, ?_, hforest.flatMap_roots_perm⟩
  · intro root id hroot hid
    exact hforest.mem_inclusiveDescendants_iff hroot hid
  · intro id hid
    have hchain := hforest.inclusiveAncestors_spec hid
    obtain ⟨top, htop, hlast⟩ := hchain.exists_root
    exact ⟨hchain, hchain.head?_eq, ⟨top, hlast, ((mem_roots_iff doc top).mp htop).2⟩,
      hchain.nodup⟩
  · intro id hid
    obtain ⟨top, htop, hmem⟩ := hforest.exists_root_above hid
    refine ⟨top, htop, ?_, ?_⟩
    · rw [(hforest.nodup_inclusiveDescendants top).count, if_pos hmem]
    · intro other hother hne hmem'
      exact hne (hforest.eq_of_mem_inclusiveDescendants_roots hother htop hmem' hmem)

/-- The labels of two buttons, of which one is below an element, are in different
trees. -/
theorem mem_descendants_iff_and_partition_buttons :
    let doc := (Document.empty 0).run [.createDiv none none, .createButton "yes" none none,
      .createButton "no" none none, .add ⟨0, 0⟩ [⟨0, 3⟩]]
    doc.roots = [⟨0, 0⟩, ⟨0, 1⟩] ∧ ⟨0, 4⟩ ∈ doc.inclusiveDescendants ⟨0, 0⟩ ∧
      (doc.inclusiveAncestors ⟨0, 4⟩).head? = some ⟨0, 4⟩ ∧
      (∃ top ∈ doc.roots, (doc.inclusiveDescendants top).count ⟨0, 2⟩ = 1) ∧
      (doc.roots.flatMap doc.inclusiveDescendants).Perm doc.ids := by
  intro doc
  obtain ⟨hmem, hup, hone, hall⟩ := mem_descendants_iff_and_partition 0 [.createDiv none none,
    .createButton "yes" none none, .createButton "no" none none, .add ⟨0, 0⟩ [⟨0, 3⟩]]
  obtain ⟨top, htop, hcount, -⟩ := hone ⟨0, 2⟩ (by decide)
  exact ⟨by decide, (hmem ⟨0, 0⟩ ⟨0, 4⟩ (by decide) (by decide)).mpr (by decide),
    (hup ⟨0, 4⟩ (by decide)).2.1, ⟨top, htop, hcount⟩, hall⟩

end StyledTree.Document
