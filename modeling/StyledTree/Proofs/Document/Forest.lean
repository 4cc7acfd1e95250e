import StyledTree.Proofs.Document.Growth

/-!
# Documents are forests

In every document that calls can lead to, the two stored directions of each link
agree, no node is listed twice, and every way up ends. The last part is carried
as an explicit chain of nodes, from which distinctness and the bound on its
length follow.
-/

namespace StyledTree.Document

/-! ## Ways up -/

/-- The way up from a node: the node, its parent and so on, to a node without
one. -/
inductive Ascent (doc : Document) : NodeId → List NodeId → Prop where
  | top {id : NodeId} (owned : doc.contains id = true) (alone : doc.parent id = none) :
      Ascent doc id [id]
  | up {id above : NodeId} {chain : List NodeId} (link : doc.parent id = some above)
      (rest : Ascent doc above chain) : Ascent doc id (id :: chain)

namespace Ascent

variable {doc : Document} {id other : NodeId} {chain chain' : List NodeId}

theorem contains (h : doc.Ascent id chain) : doc.contains id = true := by
  cases h with
  | top owned alone => exact owned
  | up link rest => exact contains_of_parent link

theorem head_mem (h : doc.Ascent id chain) : id ∈ chain := by
  cases h with
  | top owned alone => exact List.mem_cons_self
  | up link rest => exact List.mem_cons_self

theorem head?_eq (h : doc.Ascent id chain) : chain.head? = some id := by
  cases h <;> rfl

theorem unique (h : doc.Ascent id chain) (h' : doc.Ascent id chain') : chain = chain' := by
  induction h generalizing chain' with
  | top owned alone =>
      cases h' with
      | top owned' alone' => rfl
      | up link' rest' => rw [alone] at link'; cases link'
  | up link rest ih =>
      cases h' with
      | top owned' alone' => rw [alone'] at link; cases link
      | up link' rest' =>
          rw [link] at link'
          cases link'
          rw [ih rest']

theorem of_mem (h : doc.Ascent id chain) (hmem : other ∈ chain) :
    ∃ below rest, chain = below ++ rest ∧ doc.Ascent other rest := by
  induction h with
  | top owned alone =>
      rw [List.mem_singleton.mp hmem]
      exact ⟨[], _, rfl, .top owned alone⟩
  | @up id above chain link rest ih =>
      rcases List.mem_cons.mp hmem with rfl | hmem
      · exact ⟨[], _, rfl, .up link rest⟩
      · obtain ⟨below, rest', hsplit, hrest⟩ := ih hmem
        exact ⟨id :: below, rest', by rw [hsplit]; rfl, hrest⟩

/-- A node on its own way up would make the way longer than itself. -/
theorem nodup (h : doc.Ascent id chain) : chain.Nodup := by
  induction h with
  | top owned alone => exact List.pairwise_singleton _ _
  | up link rest ih =>
      refine List.nodup_cons.mpr ⟨?_, ih⟩
      intro hmem
      obtain ⟨below, rest', hsplit, hrest⟩ := rest.of_mem hmem
      have hsame := (Ascent.up link rest).unique hrest
      have hlength := congrArg List.length hsplit
      rw [← hsame, List.length_append, List.length_cons] at hlength
      omega

theorem contains_of_mem (h : doc.Ascent id chain) (hmem : other ∈ chain) :
    doc.contains other = true := by
  obtain ⟨below, rest, -, hrest⟩ := h.of_mem hmem
  exact hrest.contains

theorem length_le_size (h : doc.Ascent id chain) : chain.length ≤ doc.size := by
  have hsubset : chain ⊆ doc.ids := by
    intro node hmem
    exact (mem_ids_iff doc node).mpr (h.contains_of_mem hmem)
  have hle := h.nodup.length_le_of_subset hsubset
  simpa [ids] using hle

theorem lineage_eq (h : doc.Ascent id chain) {fuel : Nat} (hfuel : chain.length ≤ fuel) :
    doc.lineage fuel id = chain := by
  induction h generalizing fuel with
  | top owned alone =>
      obtain ⟨fuel, rfl⟩ := Nat.exists_eq_add_of_le' hfuel
      show doc.lineage (fuel + 1) _ = _
      rw [lineage, alone]
  | up link rest ih =>
      obtain ⟨fuel, rfl⟩ := Nat.exists_eq_add_of_le' hfuel
      rw [List.length_cons, ← Nat.add_assoc, lineage, link]
      exact congrArg (List.cons _) (ih (Nat.le_add_left _ _))

/-- The fuel of `inclusiveAncestors` is enough for every way up. -/
theorem inclusiveAncestors_eq (h : doc.Ascent id chain) : doc.inclusiveAncestors id = chain := by
  rw [inclusiveAncestors, if_pos h.contains]
  exact h.lineage_eq h.length_le_size

theorem mono {changed : Document} (h : doc.Ascent id chain)
    (hcontains : ∀ node, doc.contains node = true → changed.contains node = true)
    (hparent : ∀ node ∈ chain, changed.parent node = doc.parent node) :
    changed.Ascent id chain := by
  induction h with
  | top owned alone =>
      exact .top (hcontains _ owned) ((hparent _ List.mem_cons_self).trans alone)
  | up link rest ih =>
      refine .up ((hparent _ List.mem_cons_self).trans link) (ih ?_)
      intro node hmem
      exact hparent node (List.mem_cons_of_mem _ hmem)

end Ascent

/-- The node a number of links further up, if the way goes on that long. -/
def climb (doc : Document) : Nat → NodeId → Option NodeId
  | 0, id => some id
  | steps + 1, id => (doc.parent id).bind (doc.climb steps)

theorem Ascent.climb_eq {doc : Document} {id : NodeId} {chain : List NodeId}
    (h : doc.Ascent id chain) (steps : Nat) : doc.climb steps id = chain[steps]? := by
  induction h generalizing steps with
  | top owned alone =>
      cases steps with
      | zero => rfl
      | succ steps => simp [climb, alone]
  | up link rest ih =>
      cases steps with
      | zero => rfl
      | succ steps => rw [climb, link, Option.bind_some, ih, List.getElem?_cons_succ]

theorem Ascent.exists_top {doc : Document} {id : NodeId} {chain : List NodeId}
    (h : doc.Ascent id chain) :
    ∃ steps top, steps < chain.length ∧ doc.climb steps id = some top ∧ doc.parent top = none := by
  induction h with
  | @top id owned alone => exact ⟨0, id, Nat.zero_lt_one, rfl, alone⟩
  | up link rest ih =>
      obtain ⟨steps, top, hlt, hclimb, halone⟩ := ih
      refine ⟨steps + 1, top, Nat.succ_lt_succ hlt, ?_, halone⟩
      rw [climb, link, Option.bind_some, hclimb]

theorem Admits.ascent_link {doc : Document} {parent : NodeId} {children lineage : List NodeId}
    (admitted : doc.Admits parent children) (hlineage : doc.Ascent parent lineage) :
    (doc.link parent children).Ascent parent lineage := by
  refine hlineage.mono ?_ ?_
  · intro node hnode
    rw [contains_link]
    exact hnode
  · intro node hmem
    have hfree : node ∉ children := by
      intro hchild
      apply admitted.not_above node hchild
      rw [hlineage.inclusiveAncestors_eq]
      exact hmem
    rw [parent_link admitted.owned, if_neg hfree]

/-! ## The invariant -/

/-- Both directions of every link are there, once, and links do not go round in
circles. -/
structure Forest (doc : Document) : Prop where
  linked : ∀ parent child, child ∈ doc.children parent ↔ doc.parent child = some parent
  distinct : ∀ parent, (doc.children parent).Nodup
  ascent : ∀ id, doc.contains id = true → ∃ chain, doc.Ascent id chain

namespace Forest

theorem empty (number : Nat) : (Document.empty number).Forest where
  linked := by
    intro parent child
    simp [Document.empty, children, element?, Document.parent, node?]
  distinct := by
    intro parent
    simp [Document.empty, children, element?, node?]
  ascent := by
    intro id hcontains
    simp [Document.empty, Document.contains, size] at hcontains

theorem addNode {doc : Document} (h : doc.Forest) {content : Content}
    (hbare : content.unlinked = content) : (doc.addNode content).2.Forest where
  linked := by
    intro parent child
    rw [children_addNode doc hbare, parent_addNode]
    exact h.linked parent child
  distinct := by
    intro parent
    rw [children_addNode doc hbare]
    exact h.distinct parent
  ascent := by
    intro id hcontains
    rcases (contains_addNode doc content id).mp hcontains with rfl | hold
    · have halone : (doc.addNode content).2.parent (doc.addNode content).1 = none :=
        (parent_addNode doc content _).trans
          (parent_eq_none_of_not_contains (not_contains_addNode doc content))
      exact ⟨_, .top hcontains halone⟩
    · obtain ⟨chain, hchain⟩ := h.ascent id hold
      refine ⟨chain, hchain.mono ?_ fun node _ => parent_addNode doc content node⟩
      intro node hnode
      exact (contains_addNode doc content node).mpr (Or.inr hnode)

theorem of_perm {doc changed : Document} (h : doc.Forest)
    (hcontains : ∀ node, changed.contains node = doc.contains node)
    (hparent : ∀ node, changed.parent node = doc.parent node)
    (hchildren : ∀ node, (changed.children node).Perm (doc.children node)) : changed.Forest where
  linked := by
    intro parent child
    rw [(hchildren parent).mem_iff, hparent]
    exact h.linked parent child
  distinct := fun parent => (hchildren parent).nodup_iff.mpr (h.distinct parent)
  ascent := by
    intro id hid
    rw [hcontains] at hid
    obtain ⟨chain, hchain⟩ := h.ascent id hid
    exact ⟨chain, hchain.mono (fun node hnode => (hcontains node).trans hnode)
      fun node _ => hparent node⟩

theorem relabel {doc : Document} (h : doc.Forest) (id : NodeId) {f : Element → Element}
    (keeps : Relabels f) : (doc.modifyNode id (Node.mapElement f)).Forest := by
  refine h.of_perm (contains_modifyNode doc id _) (parent_modifyNode (Node.parent_mapElement f)) ?_
  intro node
  rw [children_modifyNode_mapElement keeps.children]

/-- After linking, a way up that ended at one of the linked nodes goes on with the
way up from their parent, and every other is as before. -/
theorem ascent_link {doc : Document} (h : doc.Forest) {parent : NodeId} {children : List NodeId}
    (admitted : doc.Admits parent children) {id : NodeId} {chain : List NodeId}
    (hchain : doc.Ascent id chain) :
    ∃ chain', (doc.link parent children).Ascent id chain' := by
  obtain ⟨lineage, hlineage⟩ := h.ascent parent (contains_of_isElement admitted.isElement)
  have habove := admitted.ascent_link hlineage
  induction hchain with
  | @top id owned alone =>
      by_cases hchild : id ∈ children
      · refine ⟨_, .up ?_ habove⟩
        rw [parent_link admitted.owned, if_pos hchild]
      · refine ⟨_, .top ?_ ?_⟩
        · rw [contains_link]
          exact owned
        · rw [parent_link admitted.owned, if_neg hchild]
          exact alone
  | @up id above chain link rest ih =>
      obtain ⟨chain', hchain'⟩ := ih
      have hfree : id ∉ children := by
        intro hchild
        rw [admitted.detached id hchild] at link
        cases link
      refine ⟨_, .up ?_ hchain'⟩
      rw [parent_link admitted.owned, if_neg hfree]
      exact link

theorem link {doc : Document} (h : doc.Forest) {parent : NodeId} {children : List NodeId}
    (admitted : doc.Admits parent children) : (doc.link parent children).Forest where
  linked := by
    intro above child
    rw [children_link admitted.isElement, parent_link admitted.owned]
    by_cases hchild : child ∈ children
    · have hnot (other : NodeId) : child ∉ doc.children other := by
        rw [h.linked, admitted.detached child hchild]
        simp
      by_cases habove : above = parent
      · simp [hchild, habove]
      · simp [hchild, habove, hnot, Ne.symm habove]
    · by_cases habove : above = parent
      · simp [hchild, habove, h.linked]
      · simp [hchild, habove, h.linked]
  distinct := by
    intro above
    rw [children_link admitted.isElement]
    by_cases habove : above = parent
    · rw [if_pos habove]
      refine List.nodup_append.mpr ⟨h.distinct parent, admitted.distinct, ?_⟩
      intro node hold child hchild heq
      have hlink := (h.linked parent node).mp hold
      rw [heq, admitted.detached child hchild] at hlink
      cases hlink
    · rw [if_neg habove]
      exact h.distinct above
  ascent := by
    intro id hcontains
    rw [contains_link] at hcontains
    obtain ⟨chain, hchain⟩ := h.ascent id hcontains
    exact h.ascent_link admitted hchain

theorem step {doc changed : Document} (hstep : Step doc changed) (h : doc.Forest) :
    changed.Forest := by
  cases hstep with
  | grow content bare => exact h.addNode bare
  | relabel id f keeps => exact h.relabel id keeps
  | link parent children admitted => exact h.link admitted

theorem run {doc : Document} (h : doc.Forest) (calls : List Call) : (doc.run calls).Forest :=
  run_preserves (fun _ _ => step) h calls

theorem contains_of_mem_children {doc : Document} (h : doc.Forest) {parent child : NodeId}
    (hmem : child ∈ doc.children parent) : doc.contains child = true :=
  contains_of_parent ((h.linked parent child).mp hmem)

theorem isElement_of_parent {doc : Document} (h : doc.Forest) {parent child : NodeId}
    (hparent : doc.parent child = some parent) : doc.isElement parent = true :=
  isElement_of_mem_children ((h.linked parent child).mpr hparent)

theorem climb_ne_self {doc : Document} (h : doc.Forest) (id : NodeId) (steps : Nat) :
    doc.climb (steps + 1) id ≠ some id := by
  intro hclimb
  by_cases hcontains : doc.contains id = true
  · obtain ⟨chain, hchain⟩ := h.ascent id hcontains
    have hstart : chain[0]? = some id := (hchain.climb_eq 0).symm
    have hagain : chain[steps + 1]? = some id := (hchain.climb_eq _).symm.trans hclimb
    have hlt := (List.getElem?_eq_some_iff.mp hstart).1
    have hsame := (List.getElem?_inj hlt hchain.nodup).mp (hstart.trans hagain.symm)
    omega
  · rw [climb, parent_eq_none_of_not_contains hcontains] at hclimb
    cases hclimb

end Forest

/-- Whatever calls are made, all handles stored in a document are its own, parents
and children agree one to one, and every way up ends, without a repetition, after
fewer links than there are nodes. -/
theorem run_linked_and_grounded (number : Nat) (calls : List Call) :
    let doc := (Document.empty number).run calls
    (∀ id node, doc.node? id = some node →
      (∀ above, node.parent = some above → doc.contains above = true) ∧
        ∀ element, node.element? = some element →
          ∀ child ∈ element.children, doc.contains child = true) ∧
      (∀ parent child, child ∈ doc.children parent ↔ doc.parent child = some parent) ∧
      (∀ parent child, doc.parent child = some parent →
        (doc.children parent).count child = 1 ∧ doc.isElement parent = true) ∧
      (∀ id steps, doc.climb (steps + 1) id ≠ some id) ∧
      ∀ id, doc.contains id = true →
        (∃ steps top, steps < doc.size ∧ doc.climb steps id = some top ∧ doc.parent top = none) ∧
          doc.Ascent id (doc.inclusiveAncestors id) ∧ (doc.inclusiveAncestors id).Nodup := by
  intro doc
  have hforest : doc.Forest := (Forest.empty number).run calls
  refine ⟨?_, hforest.linked, ?_, hforest.climb_ne_self, ?_⟩
  · intro id node hnode
    constructor
    · intro above habove
      have hparent : doc.parent id = some above := by
        rw [Document.parent, hnode, Option.bind_some, habove]
      exact contains_of_isElement (hforest.isElement_of_parent hparent)
    · intro element helement child hmem
      have hread : doc.element? id = some element := by
        rw [element?, hnode, Option.bind_some, helement]
      rw [← children_of_element? hread] at hmem
      exact hforest.contains_of_mem_children hmem
  · intro parent child hparent
    have hmem := (hforest.linked parent child).mpr hparent
    have hcount : (doc.children parent).count child = 1 := by
      rw [(hforest.distinct parent).count, if_pos hmem]
    exact ⟨hcount, hforest.isElement_of_parent hparent⟩
  · intro id hcontains
    obtain ⟨chain, hchain⟩ := hforest.ascent id hcontains
    rw [hchain.inclusiveAncestors_eq]
    obtain ⟨steps, top, hlt, hclimb, halone⟩ := hchain.exists_top
    exact ⟨⟨steps, top, Nat.lt_of_lt_of_le hlt hchain.length_le_size, hclimb, halone⟩,
      hchain, hchain.nodup⟩

end StyledTree.Document
