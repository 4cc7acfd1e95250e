import Mathlib.Data.List.Nodup
import StyledTree.Document.Tree
import StyledTree.Proofs.Document.Forest

/-!
# Going down a forest

In a forest every way down ends as well, since a node lies deeper than its
parent and no deeper than there are nodes. So `subtree` and `walk` reach the
bottom with the fuel they have: the walk lists a tree in pre-order, and a node is
on the walk from another exactly if that one is on its way up.
-/

namespace StyledTree

theorem Tree.preorderAll_eq_flatMap (trees : List Tree) :
    Tree.preorderAll trees = trees.flatMap Tree.preorder := by
  induction trees with
  | nil => rfl
  | cons tree later ih => rw [Tree.preorderAll, ih, List.flatMap_cons]

namespace Document

/-- How many nodes there are on the way up from a node. -/
def depth (doc : Document) (id : NodeId) : Nat := (doc.inclusiveAncestors id).length

def preorder (doc : Document) (id : NodeId) : List NodeId := (doc.subtree id).preorder

theorem nodup_ids (doc : Document) : doc.ids.Nodup := by
  refine List.nodup_range.map ?_
  intro a b hab
  injection hab

theorem inclusiveDescendants_of_not_contains {doc : Document} {root : NodeId}
    (hroot : ¬doc.contains root = true) : doc.inclusiveDescendants root = [] := by
  rw [inclusiveDescendants, if_neg hroot]

theorem contains_root_of_mem_inclusiveDescendants {doc : Document} {root id : NodeId}
    (hmem : id ∈ doc.inclusiveDescendants root) : doc.contains root = true := by
  by_contra hroot
  rw [inclusiveDescendants_of_not_contains hroot] at hmem
  cases hmem

namespace Forest

variable {doc : Document}

/-! ## Depth -/

theorem inclusiveAncestors_spec (h : doc.Forest) {id : NodeId} (hid : doc.contains id = true) :
    doc.Ascent id (doc.inclusiveAncestors id) := by
  obtain ⟨chain, hchain⟩ := h.ascent id hid
  rw [hchain.inclusiveAncestors_eq]
  exact hchain

theorem inclusiveAncestors_of_parent (h : doc.Forest) {id above : NodeId}
    (hparent : doc.parent id = some above) :
    doc.inclusiveAncestors id = id :: doc.inclusiveAncestors above := by
  have habove := contains_of_isElement (h.isElement_of_parent hparent)
  exact (Ascent.up hparent (h.inclusiveAncestors_spec habove)).inclusiveAncestors_eq

theorem mem_inclusiveAncestors_self (h : doc.Forest) {id : NodeId}
    (hid : doc.contains id = true) : id ∈ doc.inclusiveAncestors id :=
  (h.inclusiveAncestors_spec hid).head_mem

theorem depth_pos (h : doc.Forest) {id : NodeId} (hid : doc.contains id = true) :
    0 < doc.depth id :=
  List.length_pos_of_mem (h.mem_inclusiveAncestors_self hid)

theorem depth_le_size (h : doc.Forest) (id : NodeId) : doc.depth id ≤ doc.size := by
  by_cases hid : doc.contains id = true
  · exact (h.inclusiveAncestors_spec hid).length_le_size
  · rw [depth, inclusiveAncestors, if_neg hid]
    exact Nat.zero_le _

theorem depth_child (h : doc.Forest) {id child : NodeId} (hchild : child ∈ doc.children id) :
    doc.depth child = doc.depth id + 1 := by
  have hparent := (h.linked id child).mp hchild
  rw [depth, h.inclusiveAncestors_of_parent hparent, List.length_cons, depth]

theorem suffix_of_mem (h : doc.Forest) {id other : NodeId} (hid : doc.contains id = true)
    (hmem : other ∈ doc.inclusiveAncestors id) :
    doc.inclusiveAncestors other <:+ doc.inclusiveAncestors id := by
  obtain ⟨below, rest, hsplit, hrest⟩ := (h.inclusiveAncestors_spec hid).of_mem hmem
  rw [hrest.inclusiveAncestors_eq]
  exact ⟨below, hsplit.symm⟩

theorem depth_le_of_mem (h : doc.Forest) {id other : NodeId} (hid : doc.contains id = true)
    (hmem : other ∈ doc.inclusiveAncestors id) : doc.depth other ≤ doc.depth id :=
  (h.suffix_of_mem hid hmem).length_le

theorem eq_of_depth_eq (h : doc.Forest) {id a b : NodeId} (hid : doc.contains id = true)
    (ha : a ∈ doc.inclusiveAncestors id) (hb : b ∈ doc.inclusiveAncestors id)
    (hdepth : doc.depth a = doc.depth b) : a = b := by
  have hchain := h.inclusiveAncestors_spec hid
  obtain ⟨belowA, restA, hsplitA, hA⟩ := hchain.of_mem ha
  obtain ⟨belowB, restB, hsplitB, hB⟩ := hchain.of_mem hb
  rw [depth, depth, hA.inclusiveAncestors_eq, hB.inclusiveAncestors_eq] at hdepth
  have hrest : restA = restB :=
    (List.append_inj' (hsplitA.symm.trans hsplitB) hdepth).2
  have hheadA := hA.head?_eq
  have hheadB := hB.head?_eq
  rw [hrest, hheadB] at hheadA
  exact (Option.some.inj hheadA).symm

theorem isElement_of_mem_inclusiveAncestors (h : doc.Forest) {root top : NodeId}
    (hroot : doc.isElement root = true) (htop : top ∈ doc.inclusiveAncestors root) :
    doc.isElement top = true := by
  have hchain := h.inclusiveAncestors_spec (contains_of_isElement hroot)
  generalize doc.inclusiveAncestors root = chain at hchain htop
  induction hchain with
  | top owned alone => rwa [List.mem_singleton.mp htop]
  | up link rest ih =>
      rcases List.mem_cons.mp htop with rfl | htop
      · exact hroot
      · exact ih (h.isElement_of_parent link) htop

/-- What holds of a node as soon as it holds of its children holds of every
node. -/
theorem descend (h : doc.Forest) {motive : NodeId → Prop}
    (hstep : ∀ id, (∀ child ∈ doc.children id, motive child) → motive id) (id : NodeId) :
    motive id := by
  -- Children lie deeper, and no depth goes beyond the size: what is left shrinks.
  induction hroom : doc.size - doc.depth id using Nat.strongRecOn generalizing id with
  | ind room ih =>
      apply hstep
      intro child hchild
      have hdeeper := h.depth_child hchild
      have hbound := h.depth_le_size child
      exact ih (doc.size - doc.depth child) (by omega) child rfl

/-! ## Subtrees -/

theorem treeWithin_of_not_contains {id : NodeId} (hid : ¬doc.contains id = true) (fuel : Nat) :
    doc.treeWithin fuel id = .missing id := by
  cases fuel with
  | zero => rfl
  | succ fuel => simp [treeWithin, node?_eq_none_of_not_contains hid]

theorem children_of_content {id : NodeId} {element : Element}
    (hcontent : (doc.node? id).map Node.content = some (.element element)) :
    doc.children id = element.children := by
  obtain ⟨node, hnode, hheld⟩ := Option.map_eq_some_iff.mp hcontent
  apply children_of_element?
  rw [element?, hnode, Option.bind_some, Node.element?, hheld]

theorem treeWithin_eq (h : doc.Forest) (id : NodeId) {fuel fuel' : Nat}
    (hfuel : doc.size < fuel + doc.depth id) (hfuel' : doc.size < fuel' + doc.depth id) :
    doc.treeWithin fuel id = doc.treeWithin fuel' id := by
  induction id using h.descend generalizing fuel fuel' with
  | hstep id ih =>
      have hbound := h.depth_le_size id
      obtain ⟨fuel, rfl⟩ : ∃ less, fuel = less + 1 := ⟨fuel - 1, by omega⟩
      obtain ⟨fuel', rfl⟩ : ∃ less, fuel' = less + 1 := ⟨fuel' - 1, by omega⟩
      rw [treeWithin, treeWithin]
      cases hcontent : (doc.node? id).map Node.content with
      | none => rfl
      | some content =>
          cases content with
          | text words => rfl
          | element element =>
              have hsame : element.children.map (doc.treeWithin fuel) =
                  element.children.map (doc.treeWithin fuel') := by
                apply List.map_congr_left
                intro child hmem
                rw [← children_of_content hcontent] at hmem
                have hdeeper := h.depth_child hmem
                exact ih child hmem (by omega) (by omega)
              exact congrArg (Tree.element id) hsame

theorem subtree_eq (h : doc.Forest) (id : NodeId) :
    doc.subtree id =
      match (doc.node? id).map Node.content with
      | none => .missing id
      | some (.text words) => .text id words
      | some (.element _) => .element id ((doc.children id).map doc.subtree) := by
  cases hcontent : (doc.node? id).map Node.content with
  | none =>
      have hid : ¬doc.contains id = true := by
        rw [contains_iff_node?]
        rintro ⟨node, hnode⟩
        simp [hnode] at hcontent
      exact treeWithin_of_not_contains hid _
  | some content =>
      have hid : doc.contains id = true := by
        obtain ⟨node, hnode, -⟩ := Option.map_eq_some_iff.mp hcontent
        exact (contains_iff_node? doc id).mpr ⟨node, hnode⟩
      have hdepth := h.depth_pos hid
      have hbound := h.depth_le_size id
      obtain ⟨fuel, hsize⟩ : ∃ fuel, doc.size = fuel + 1 := ⟨doc.size - 1, by omega⟩
      rw [subtree, hsize, treeWithin, hcontent]
      cases content with
      | text words => rfl
      | element element =>
          have hsame : element.children.map (doc.treeWithin fuel) =
              (doc.children id).map doc.subtree := by
            rw [children_of_content hcontent]
            apply List.map_congr_left
            intro child hmem
            rw [← children_of_content hcontent] at hmem
            have hdeeper := h.depth_child hmem
            exact h.treeWithin_eq child (by omega) (by omega)
          exact congrArg (Tree.element id) hsame

theorem subtree_of_isElement (h : doc.Forest) {id : NodeId} (hid : doc.isElement id = true) :
    doc.subtree id = .element id ((doc.children id).map doc.subtree) := by
  obtain ⟨element, helement⟩ := (isElement_iff doc id).mp hid
  obtain ⟨⟨parent, content⟩, hnode, hheld⟩ := Option.bind_eq_some_iff.mp helement
  cases content with
  | element held => rw [h.subtree_eq, hnode]; rfl
  | text words => simp [Node.element?] at hheld

theorem subtree_of_text (h : doc.Forest) {id : NodeId} {words : String}
    (htext : doc.text id = .ok words) : doc.subtree id = .text id words := by
  rw [h.subtree_eq, (text_eq_ok_iff doc id words).mp htext]

theorem subtree_of_not_isElement (h : doc.Forest) {id : NodeId} (hid : doc.contains id = true)
    (helement : ¬doc.isElement id = true) : ∃ words, doc.subtree id = .text id words := by
  obtain ⟨words, htext⟩ := exists_text hid helement
  exact ⟨words, h.subtree_of_text htext⟩

/-! ## Walks -/

theorem preorder_eq (h : doc.Forest) (id : NodeId) :
    doc.preorder id = id :: (doc.children id).flatMap doc.preorder := by
  have hleaf (hnone : doc.element? id = none) : (doc.children id).flatMap doc.preorder = [] := by
    simp [children, hnone]
  rw [preorder, h.subtree_eq]
  cases hnode : doc.node? id with
  | none =>
      have hnone : doc.element? id = none := by rw [element?, hnode]; rfl
      exact congrArg (List.cons id) (hleaf hnone).symm
  | some node =>
      obtain ⟨parent, content⟩ := node
      cases content with
      | text words =>
          have hnone : doc.element? id = none := by rw [element?, hnode]; rfl
          exact congrArg (List.cons id) (hleaf hnone).symm
      | element element =>
          show id :: Tree.preorderAll ((doc.children id).map doc.subtree) = _
          rw [Tree.preorderAll_eq_flatMap, List.flatMap_map]
          rfl

theorem walk_eq_take (h : doc.Forest) (fuel : Nat) (stack : List NodeId) :
    doc.walk fuel stack = (stack.flatMap doc.preorder).take fuel := by
  induction fuel generalizing stack with
  | zero => rw [walk, List.take_zero]
  | succ fuel ih =>
      cases stack with
      | nil => rfl
      | cons id stack =>
          rw [walk, ih, List.flatMap_cons, h.preorder_eq id, List.cons_append,
            List.take_succ_cons, List.flatMap_append]

theorem mem_preorder_self (h : doc.Forest) (id : NodeId) : id ∈ doc.preorder id := by
  rw [h.preorder_eq]
  exact List.mem_cons_self

theorem mem_preorder_of_child (h : doc.Forest) {root id child : NodeId}
    (hid : id ∈ doc.preorder root) (hchild : child ∈ doc.children id) :
    child ∈ doc.preorder root := by
  induction root using h.descend with
  | hstep root ih =>
      rw [h.preorder_eq] at hid ⊢
      apply List.mem_cons_of_mem
      rcases List.mem_cons.mp hid with rfl | hbelow
      · exact List.mem_flatMap.mpr ⟨child, hchild, h.mem_preorder_self child⟩
      · obtain ⟨next, hnext, hmem⟩ := List.mem_flatMap.mp hbelow
        exact List.mem_flatMap.mpr ⟨next, hnext, ih next hnext hmem⟩

theorem mem_preorder_iff (h : doc.Forest) {id : NodeId} (hid : doc.contains id = true)
    (root : NodeId) : id ∈ doc.preorder root ↔ root ∈ doc.inclusiveAncestors id := by
  constructor
  · intro hmem
    induction root using h.descend with
    | hstep root ih =>
        rw [h.preorder_eq] at hmem
        rcases List.mem_cons.mp hmem with rfl | hbelow
        · exact h.mem_inclusiveAncestors_self hid
        · obtain ⟨next, hnext, hmem⟩ := List.mem_flatMap.mp hbelow
          have hup := h.suffix_of_mem hid (ih next hnext hmem)
          rw [h.inclusiveAncestors_of_parent ((h.linked root next).mp hnext)] at hup
          have hroot := contains_of_isElement (isElement_of_mem_children hnext)
          exact hup.subset (List.mem_cons_of_mem _ (h.mem_inclusiveAncestors_self hroot))
  · intro hmem
    have hchain := h.inclusiveAncestors_spec hid
    generalize doc.inclusiveAncestors id = chain at hchain hmem
    induction hchain with
    | top owned alone =>
        rw [List.mem_singleton.mp hmem]
        exact h.mem_preorder_self _
    | @up id above chain link rest ih =>
        rcases List.mem_cons.mp hmem with rfl | hmem
        · exact h.mem_preorder_self _
        · exact h.mem_preorder_of_child (ih rest.contains hmem) ((h.linked above id).mpr link)

theorem contains_of_mem_preorder (h : doc.Forest) {root id : NodeId}
    (hroot : doc.contains root = true) (hmem : id ∈ doc.preorder root) :
    doc.contains id = true := by
  induction root using h.descend with
  | hstep root ih =>
      rw [h.preorder_eq] at hmem
      rcases List.mem_cons.mp hmem with rfl | hbelow
      · exact hroot
      · obtain ⟨next, hnext, hmem⟩ := List.mem_flatMap.mp hbelow
        exact ih next hnext (h.contains_of_mem_children hnext) hmem

theorem eq_of_mem_preorder_children (h : doc.Forest) {parent a b id : NodeId}
    (ha : a ∈ doc.children parent) (hb : b ∈ doc.children parent)
    (hida : id ∈ doc.preorder a) (hidb : id ∈ doc.preorder b) : a = b := by
  have hid := h.contains_of_mem_preorder (h.contains_of_mem_children ha) hida
  apply h.eq_of_depth_eq hid ((h.mem_preorder_iff hid a).mp hida)
    ((h.mem_preorder_iff hid b).mp hidb)
  rw [h.depth_child ha, h.depth_child hb]

theorem not_mem_preorder_child (h : doc.Forest) {parent child : NodeId}
    (hchild : child ∈ doc.children parent) : parent ∉ doc.preorder child := by
  intro hmem
  have hparent := contains_of_isElement (isElement_of_mem_children hchild)
  have hle := h.depth_le_of_mem hparent ((h.mem_preorder_iff hparent child).mp hmem)
  rw [h.depth_child hchild] at hle
  omega

theorem nodup_preorder (h : doc.Forest) (root : NodeId) : (doc.preorder root).Nodup := by
  induction root using h.descend with
  | hstep root ih =>
      rw [h.preorder_eq, List.nodup_cons]
      constructor
      · intro hmem
        obtain ⟨next, hnext, hmem⟩ := List.mem_flatMap.mp hmem
        exact h.not_mem_preorder_child hnext hmem
      · rw [List.nodup_flatMap]
        refine ⟨ih, (h.distinct root).imp_of_mem ?_⟩
        intro a b ha hb hne id hida hidb
        exact hne (h.eq_of_mem_preorder_children ha hb hida hidb)

theorem length_preorder_le (h : doc.Forest) {root : NodeId} (hroot : doc.contains root = true) :
    (doc.preorder root).length ≤ doc.size := by
  have hsubset : doc.preorder root ⊆ doc.ids := by
    intro id hmem
    exact (mem_ids_iff doc id).mpr (h.contains_of_mem_preorder hroot hmem)
  have hle := (h.nodup_preorder root).length_le_of_subset hsubset
  simpa [ids] using hle

/-- The fuel of `inclusiveDescendants` is enough for every walk. -/
theorem inclusiveDescendants_eq (h : doc.Forest) {root : NodeId}
    (hroot : doc.contains root = true) : doc.inclusiveDescendants root = doc.preorder root := by
  rw [inclusiveDescendants, if_pos hroot, h.walk_eq_take, List.flatMap_singleton]
  exact List.take_of_length_le (h.length_preorder_le hroot)

theorem contains_of_mem_inclusiveDescendants (h : doc.Forest) {root id : NodeId}
    (hmem : id ∈ doc.inclusiveDescendants root) : doc.contains id = true := by
  have hroot := contains_root_of_mem_inclusiveDescendants hmem
  rw [h.inclusiveDescendants_eq hroot] at hmem
  exact h.contains_of_mem_preorder hroot hmem

theorem nodup_inclusiveDescendants (h : doc.Forest) (root : NodeId) :
    (doc.inclusiveDescendants root).Nodup := by
  by_cases hroot : doc.contains root = true
  · rw [h.inclusiveDescendants_eq hroot]
    exact h.nodup_preorder root
  · rw [inclusiveDescendants_of_not_contains hroot]
    exact List.nodup_nil

theorem mem_inclusiveDescendants_iff (h : doc.Forest) {root id : NodeId}
    (hroot : doc.contains root = true) (hid : doc.contains id = true) :
    id ∈ doc.inclusiveDescendants root ↔ root ∈ doc.inclusiveAncestors id := by
  rw [h.inclusiveDescendants_eq hroot]
  exact h.mem_preorder_iff hid root

end Forest

end Document

end StyledTree
