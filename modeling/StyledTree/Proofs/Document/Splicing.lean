import StyledTree.Proofs.Document.Attachment

/-!
# What attaching does to walks

Where two documents differ in the children of one node only, the walks that meet this
node differ in its tree only, and all others are the same. When nodes are attached
below it, its tree gets theirs at the end. So the walks of the attached nodes come in
one piece into each walk that meets their parent, right after all that was below it.
-/

namespace StyledTree

/-- The list `result` is `whole` with `added` put in right after `spot`, a piece of
it. -/
def SplicedAfter {α : Type} (spot added whole result : List α) : Prop :=
  ∃ before after, whole = before ++ spot ++ after ∧ result = before ++ spot ++ added ++ after

theorem SplicedAfter.filterMap {α β : Type} {spot added whole result : List α}
    (h : SplicedAfter spot added whole result) (f : α → Option β) :
    SplicedAfter (spot.filterMap f) (added.filterMap f) (whole.filterMap f)
      (result.filterMap f) := by
  obtain ⟨before, after, rfl, rfl⟩ := h
  refine ⟨before.filterMap f, after.filterMap f, ?_, ?_⟩
  · rw [List.filterMap_append, List.filterMap_append]
  · rw [List.filterMap_append, List.filterMap_append, List.filterMap_append]

namespace Document

/-- Only the node `spot` may have other children in the later document. -/
def SameElsewhere (doc later : Document) (spot : NodeId) : Prop :=
  ∀ id, id ≠ spot → later.children id = doc.children id

namespace Forest

variable {doc later : Document} {spot : NodeId}

theorem preorder_eq_of_not_mem (h : doc.Forest) (hlater : later.Forest)
    (hsame : doc.SameElsewhere later spot) {root : NodeId} (hroot : spot ∉ doc.preorder root) :
    later.preorder root = doc.preorder root := by
  induction root using h.descend with
  | hstep root ih =>
      rw [h.preorder_eq, List.mem_cons, not_or] at hroot
      obtain ⟨hne, hbelow⟩ := hroot
      rw [hlater.preorder_eq, h.preorder_eq, hsame root (Ne.symm hne)]
      apply congrArg (List.cons root)
      apply List.flatMap_congr
      intro child hchild
      apply ih child hchild
      intro hmem
      exact hbelow (List.mem_flatMap.mpr ⟨child, hchild, hmem⟩)

theorem flatMap_preorder_eq (h : doc.Forest) (hlater : later.Forest)
    (hsame : doc.SameElsewhere later spot) {roots : List NodeId}
    (hroots : ∀ root ∈ roots, spot ∉ doc.preorder root) :
    roots.flatMap later.preorder = roots.flatMap doc.preorder :=
  List.flatMap_congr fun root hroot => h.preorder_eq_of_not_mem hlater hsame (hroots root hroot)

theorem exists_branch (h : doc.Forest) {root : NodeId} (hroot : spot ≠ root)
    (hmem : spot ∈ doc.preorder root) :
    ∃ left child right, doc.children root = left ++ child :: right ∧
      spot ∈ doc.preorder child ∧ ∀ sibling ∈ left ++ right, spot ∉ doc.preorder sibling := by
  rw [h.preorder_eq, List.mem_cons, or_iff_right hroot, List.mem_flatMap] at hmem
  obtain ⟨child, hchild, hmem⟩ := hmem
  obtain ⟨left, right, hsplit⟩ := List.append_of_mem hchild
  have hdistinct := h.distinct root
  rw [hsplit, List.nodup_middle, List.nodup_cons] at hdistinct
  refine ⟨left, child, right, hsplit, hmem, ?_⟩
  intro sibling hsibling hmem'
  have hlisted : sibling ∈ doc.children root := by
    rw [hsplit, List.mem_append, List.mem_cons]
    exact (List.mem_append.mp hsibling).imp id Or.inr
  have hsame := h.eq_of_mem_preorder_children hlisted hchild hmem' hmem
  exact hdistinct.1 (hsame ▸ hsibling)

/-- A walk meets the tree of a node in one piece, and what is around it does not depend
on the children of the node. -/
theorem exists_around (h : doc.Forest) {root : NodeId} (hmem : spot ∈ doc.preorder root) :
    ∃ before after, ∀ later : Document, later.Forest → doc.SameElsewhere later spot →
      later.preorder root = before ++ later.preorder spot ++ after := by
  induction root using h.descend with
  | hstep root ih =>
      by_cases hroot : root = spot
      · refine ⟨[], [], ?_⟩
        intro later _ _
        rw [hroot, List.nil_append, List.append_nil]
      · obtain ⟨left, child, right, hsplit, hbelow, hothers⟩ :=
          h.exists_branch (Ne.symm hroot) hmem
        obtain ⟨before, after, haround⟩ := ih child (by simp [hsplit]) hbelow
        refine ⟨root :: left.flatMap doc.preorder ++ before,
          after ++ right.flatMap doc.preorder, ?_⟩
        intro later hlater hsame
        have hleft := h.flatMap_preorder_eq hlater hsame
          fun sibling hsibling => hothers sibling (List.mem_append_left _ hsibling)
        have hright := h.flatMap_preorder_eq hlater hsame
          fun sibling hsibling => hothers sibling (List.mem_append_right _ hsibling)
        rw [hlater.preorder_eq, hsame root hroot, hsplit, List.flatMap_append, List.flatMap_cons,
          hleft, hright, haround later hlater hsame]
        simp only [List.cons_append, List.append_assoc]

end Forest

/-! ## Attaching -/

/-- The walks after nodes have been attached below `parent`, from those before. -/
structure Spliced (doc : Document) (parent : NodeId) (added : List NodeId) (grown : Document) :
    Prop where
  elsewhere : ∀ root, parent ∉ doc.inclusiveDescendants root →
    grown.inclusiveDescendants root = doc.inclusiveDescendants root
  below : ∀ root, parent ∈ doc.inclusiveDescendants root →
    SplicedAfter (doc.inclusiveDescendants parent) (added.flatMap doc.inclusiveDescendants)
      (doc.inclusiveDescendants root) (grown.inclusiveDescendants root)

namespace Attached

variable {doc grown : Document} {parent : NodeId} {added : List NodeId}

theorem contains_eq (h : doc.Attached parent added grown) (id : NodeId) :
    grown.contains id = doc.contains id := by
  rw [contains, h.number, h.size, ← contains]

theorem sameElsewhere (h : doc.Attached parent added grown) :
    doc.SameElsewhere grown parent := by
  intro id hid
  rw [h.children, if_neg hid]

end Attached

namespace Forest

variable {doc grown : Document} {parent : NodeId} {added : List NodeId}

theorem preorder_attached (h : doc.Forest) (hgrown : grown.Forest)
    (hacceptable : doc.Acceptable parent added) (hattached : doc.Attached parent added grown) :
    grown.preorder parent = doc.preorder parent ++ added.flatMap doc.preorder := by
  have hchildren : (doc.children parent).flatMap grown.preorder =
      (doc.children parent).flatMap doc.preorder :=
    h.flatMap_preorder_eq hgrown hattached.sameElsewhere fun _ => h.not_mem_preorder_child
  have hadded : added.flatMap grown.preorder = added.flatMap doc.preorder := by
    apply h.flatMap_preorder_eq hgrown hattached.sameElsewhere
    intro child hchild
    rw [← h.inclusiveDescendants_eq (hacceptable.owned child hchild)]
    exact hacceptable.not_within child hchild
  rw [hgrown.preorder_eq, hattached.children, if_pos rfl, List.flatMap_append, hchildren, hadded,
    h.preorder_eq parent, List.cons_append]

theorem spliced (h : doc.Forest) (hgrown : grown.Forest)
    (hacceptable : doc.Acceptable parent added) (hattached : doc.Attached parent added grown) :
    doc.Spliced parent added grown where
  elsewhere := by
    intro root hparent
    by_cases hroot : doc.contains root = true
    · rw [h.inclusiveDescendants_eq hroot] at hparent ⊢
      rw [hgrown.inclusiveDescendants_eq (by rw [hattached.contains_eq, hroot])]
      exact h.preorder_eq_of_not_mem hgrown hattached.sameElsewhere hparent
    · rw [inclusiveDescendants_of_not_contains hroot, inclusiveDescendants_of_not_contains]
      rwa [hattached.contains_eq]
  below := by
    intro root hparent
    have hroot := contains_root_of_mem_inclusiveDescendants hparent
    have hadded : added.flatMap doc.inclusiveDescendants = added.flatMap doc.preorder :=
      List.flatMap_congr fun child hchild =>
        h.inclusiveDescendants_eq (hacceptable.owned child hchild)
    rw [h.inclusiveDescendants_eq hroot] at hparent ⊢
    rw [hgrown.inclusiveDescendants_eq (by rw [hattached.contains_eq, hroot]), hadded,
      h.inclusiveDescendants_eq (contains_of_isElement hacceptable.isElement)]
    obtain ⟨before, after, haround⟩ := h.exists_around hparent
    refine ⟨before, after, haround doc h fun _ _ => rfl, ?_⟩
    rw [haround grown hgrown hattached.sameElsewhere,
      h.preorder_attached hgrown hacceptable hattached, ← List.append_assoc]

end Forest

end Document

end StyledTree
