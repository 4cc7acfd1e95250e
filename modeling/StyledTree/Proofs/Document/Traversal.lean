import StyledTree.Proofs.Document.Descent

/-!
# Walking one node at a time

A walk can be taken step by step. Its place is a stack with the nodes still to come,
the next of them last, and a step puts the children of that node where it was. No
count of steps is needed in a forest: ahead of a stack are the trees of its nodes, one
after the other, and each step takes the first node off that list.
-/

namespace StyledTree.Document

/-- Takes the next node off a stack and puts its children there, the first of them
last. -/
def visitNext? (doc : Document) (stack : Array NodeId) : Option (NodeId × Array NodeId) :=
  stack.back?.map fun id => (id, stack.pop ++ (doc.children id).reverse)

/-- The stack of a walk before its first step. -/
def stackAt (doc : Document) (root : NodeId) : Array NodeId :=
  if doc.contains root then #[root] else #[]

/-- The nodes that are visited from a stack until nothing is left on it. -/
inductive Visits (doc : Document) : Array NodeId → List NodeId → Prop where
  | finished {stack : Array NodeId} (done : doc.visitNext? stack = none) : Visits doc stack []
  | visit {stack rest : Array NodeId} {id : NodeId} {later : List NodeId}
      (next : doc.visitNext? stack = some (id, rest)) (onward : Visits doc rest later) :
      Visits doc stack (id :: later)

theorem Visits.unique {doc : Document} {stack : Array NodeId} {ids ids' : List NodeId}
    (h : doc.Visits stack ids) (h' : doc.Visits stack ids') : ids = ids' := by
  induction h generalizing ids' with
  | finished done =>
      cases h' with
      | finished done' => rfl
      | visit next' onward' => rw [done] at next'; cases next'
  | visit next onward ih =>
      cases h' with
      | finished done' => rw [done'] at next; cases next
      | visit next' onward' =>
          rw [next] at next'
          cases next'
          rw [ih onward']

/-! ## Stacks by what is ahead of them -/

/-- The stack with these nodes still to come, first to last. -/
def stackOf (ahead : List NodeId) : Array NodeId := ahead.reverse.toArray

theorem visitNext?_nil (doc : Document) : doc.visitNext? (stackOf []) = none := rfl

theorem visitNext?_cons (doc : Document) (id : NodeId) (ahead : List NodeId) :
    doc.visitNext? (stackOf (id :: ahead)) = some (id, stackOf (doc.children id ++ ahead)) := by
  simp [visitNext?, stackOf]

theorem stackAt_eq (doc : Document) (root : NodeId) :
    doc.stackAt root = stackOf (if doc.contains root then [root] else []) := by
  unfold stackAt
  split <;> rfl

namespace Forest

variable {doc : Document}

theorem visits_stackOf (h : doc.Forest) (ahead : List NodeId) :
    doc.Visits (stackOf ahead) (ahead.flatMap doc.preorder) := by
  generalize hids : ahead.flatMap doc.preorder = ids
  -- A step may leave more nodes on the stack, but never as many to be visited.
  induction ids generalizing ahead with
  | nil =>
      cases ahead with
      | nil => exact .finished (visitNext?_nil doc)
      | cons first rest =>
          rw [List.flatMap_cons, h.preorder_eq] at hids
          cases hids
  | cons id later ih =>
      cases ahead with
      | nil => cases hids
      | cons first rest =>
          rw [List.flatMap_cons, h.preorder_eq, List.cons_append] at hids
          obtain ⟨rfl, hlater⟩ := List.cons.inj hids
          refine .visit (visitNext?_cons doc first rest) (ih _ ?_)
          rw [List.flatMap_append, hlater]

theorem visits_stackAt (h : doc.Forest) (root : NodeId) :
    doc.Visits (doc.stackAt root) (doc.inclusiveDescendants root) := by
  have hvisits := h.visits_stackOf (if doc.contains root then [root] else [])
  rw [← stackAt_eq] at hvisits
  by_cases hroot : doc.contains root = true
  · rw [if_pos hroot, List.flatMap_singleton] at hvisits
    rwa [h.inclusiveDescendants_eq hroot]
  · rw [if_neg hroot, List.flatMap_nil] at hvisits
    rwa [inclusiveDescendants_of_not_contains hroot]

theorem eq_preorder (h : doc.Forest) {listing : NodeId → List NodeId}
    (hlisting : ∀ id, listing id = id :: (doc.children id).flatMap listing) :
    listing = doc.preorder := by
  funext id
  induction id using h.descend with
  | hstep id ih =>
      rw [hlisting, h.preorder_eq]
      exact congrArg (List.cons id) (List.flatMap_congr ih)

theorem preorder_of_text (h : doc.Forest) {id : NodeId} {words : String}
    (htext : doc.text id = .ok words) : doc.preorder id = [id] := by
  rw [preorder, h.subtree_of_text htext, Tree.preorder]

end Forest

/-- The recursive pre-order is the one way to list every node before the lists of its
children. A walk taken step by step ends after visiting just that, and is over at once
for a handle from elsewhere. -/
theorem visits_iff_preorder (number : Nat) (calls : List Call) :
    let doc := (Document.empty number).run calls
    (∀ listing : NodeId → List NodeId,
      (∀ id, listing id = id :: (doc.children id).flatMap listing) ↔ listing = doc.preorder) ∧
    (∀ id words, doc.text id = .ok words → doc.preorder id = [id]) ∧
    (∀ root visited, doc.Visits (doc.stackAt root) visited ↔
      visited = doc.inclusiveDescendants root) ∧
    (∀ root, doc.contains root = false → doc.inclusiveDescendants root = []) ∧
    ∀ root, doc.contains root = true → doc.inclusiveDescendants root = doc.preorder root ∧
      (doc.preorder root).Nodup ∧ (doc.preorder root).length ≤ doc.size := by
  intro doc
  have hforest : doc.Forest := (Forest.empty number).run calls
  refine ⟨?_, fun _ _ => hforest.preorder_of_text, ?_, ?_, ?_⟩
  · intro listing
    constructor
    · exact hforest.eq_preorder
    · rintro rfl
      exact hforest.preorder_eq
  · intro root visited
    have hvisits := hforest.visits_stackAt root
    constructor
    · intro h
      exact h.unique hvisits
    · rintro rfl
      exact hvisits
  · intro root hroot
    exact inclusiveDescendants_of_not_contains (Bool.eq_false_iff.mp hroot)
  · intro root hroot
    exact ⟨hforest.inclusiveDescendants_eq hroot, hforest.nodup_preorder root,
      hforest.length_preorder_le hroot⟩

/-- Of two buttons and a text below an element, the second button is visited first, as
it was attached first, and then its label. -/
theorem visits_iff_preorder_buttons :
    let doc := (Document.empty 0).run [.createDiv none none, .createText "Title",
      .createButton "yes" none none, .createButton "no" none none,
      .add ⟨0, 0⟩ [⟨0, 4⟩, ⟨0, 1⟩, ⟨0, 2⟩]]
    doc.Visits #[⟨0, 0⟩] [⟨0, 0⟩, ⟨0, 4⟩, ⟨0, 5⟩, ⟨0, 1⟩, ⟨0, 2⟩, ⟨0, 3⟩] ∧
      doc.preorder ⟨0, 1⟩ = [⟨0, 1⟩] ∧ (doc.preorder ⟨0, 0⟩).length ≤ 6 ∧
        doc.inclusiveDescendants ⟨1, 0⟩ = [] := by
  intro doc
  obtain ⟨-, htext, hvisits, hother, hown⟩ := visits_iff_preorder 0 [.createDiv none none,
    .createText "Title", .createButton "yes" none none, .createButton "no" none none,
    .add ⟨0, 0⟩ [⟨0, 4⟩, ⟨0, 1⟩, ⟨0, 2⟩]]
  refine ⟨(hvisits ⟨0, 0⟩ _).mpr (by decide), htext ⟨0, 1⟩ "Title" (by decide), ?_,
    hother ⟨1, 0⟩ (by decide)⟩
  exact (hown ⟨0, 0⟩ (by decide)).2.2

end StyledTree.Document
