import StyledTree.Proofs.Document.Attachment

/-!
# Attaching in batches

Nodes can be attached below an element all at once or in two batches. Both ways look at
the nodes one by one in the same order, and what is in the way of a node of the second
batch is in its way in both, since attaching the first batch leaves the way up from the
parent as it is. Only the words differ for a node that is in both batches: listed twice
in one call, it is attached already in the second of two.
-/

namespace StyledTree

/-- A fault as it reads once the nodes `attached` are attached. -/
def Fault.onceAttached (attached : List NodeId) : Fault → Fault
  | .listedTwice child =>
      if child ∈ attached then .alreadyAttached child else .listedTwice child
  | fault => fault

theorem Fault.kind_onceAttached (attached : List NodeId) (fault : Fault) :
    (fault.onceAttached attached).kind = fault.kind := by
  cases fault with
  | listedTwice child =>
      rw [onceAttached]
      split <;> rfl
  | _ => rfl

namespace Document

theorem ext_node? {doc other : Document} (hnumber : doc.number = other.number)
    (hnode : ∀ id, doc.node? id = other.node? id) : doc = other := by
  obtain ⟨number, nodes⟩ := doc
  obtain ⟨number', nodes'⟩ := other
  obtain rfl : number = number' := hnumber
  congr
  apply Array.ext_getElem?
  intro index
  simpa [node?] using hnode ⟨number, index⟩

theorem link_append (doc : Document) (parent : NodeId) (first second : List NodeId) :
    doc.link parent (first ++ second) = (doc.link parent first).link parent second := by
  apply ext_node?
  · rw [number_link, number_link, number_link]
  · intro id
    rw [node?_link, node?_link, node?_link, Option.map_map]
    apply congrArg (Option.map · (doc.node? id))
    funext node
    obtain ⟨above, content⟩ := node
    cases content with
    | text words =>
        by_cases hfirst : id ∈ first <;> by_cases hsecond : id ∈ second <;>
          simp [hfirst, hsecond, Node.mapElement]
    | element element =>
        -- Only the parent lists the nodes, those of the second batch last.
        by_cases hparent : id = parent <;> by_cases hfirst : id ∈ first <;>
          by_cases hsecond : id ∈ second <;>
            simp_all [Node.mapElement]

theorem isElement_link (doc : Document) (parent : NodeId) (children : List NodeId)
    (id : NodeId) : (doc.link parent children).isElement id = doc.isElement id := by
  rw [isElement, element?_link, Option.isSome_map, isElement]

theorem firstObstacle?_append (doc : Document) (parent : NodeId)
    (lineage earlier first second : List NodeId) :
    doc.firstObstacle? parent lineage earlier (first ++ second) =
      (doc.firstObstacle? parent lineage earlier first).or
        (doc.firstObstacle? parent lineage (earlier ++ first) second) := by
  induction first generalizing earlier with
  | nil => simp [firstObstacle?]
  | cons child later ih => simp [firstObstacle?, ih, Option.or_assoc]

namespace Admits

variable {doc : Document} {parent : NodeId} {first : List NodeId}

theorem obstacle?_link (h : doc.Admits parent first) (lineage earlier : List NodeId)
    (child : NodeId) :
    (doc.link parent first).obstacle? parent lineage earlier child =
      (doc.obstacle? parent lineage (first ++ earlier) child).map
        (Fault.onceAttached first) := by
  rw [obstacle?_eq, obstacle?_eq, contains_link, parent_link h.owned]
  by_cases hfirst : child ∈ first
  · simp [hfirst, h.owned child hfirst, h.detached child hfirst, Fault.onceAttached]
  · cases doc.contains child with
    | false => simp [Fault.onceAttached]
    | true =>
        cases doc.parent child with
        | some above => simp [hfirst, Fault.onceAttached]
        | none =>
            by_cases hearlier : child ∈ earlier
            · simp [hfirst, hearlier, Fault.onceAttached]
            · by_cases habove : child ∈ lineage <;>
                simp [hfirst, hearlier, habove, Fault.onceAttached]

theorem firstObstacle?_link (h : doc.Admits parent first) (lineage earlier second : List NodeId) :
    (doc.link parent first).firstObstacle? parent lineage earlier second =
      (doc.firstObstacle? parent lineage (first ++ earlier) second).map
        (Fault.onceAttached first) := by
  induction second generalizing earlier with
  | nil => rfl
  | cons child later ih =>
      rw [firstObstacle?, firstObstacle?, h.obstacle?_link, ih, Option.map_or, List.append_assoc]

end Admits

theorem add_append_of_error {doc : Document} {parent : NodeId} {first : List NodeId}
    {fault : Fault} (hfirst : doc.add parent first = .error fault) (second : List NodeId) :
    doc.add parent (first ++ second) = .error fault := by
  rw [add_eq] at hfirst ⊢
  by_cases hparent : doc.isElement parent = true
  · rw [if_pos hparent] at hfirst ⊢
    rw [firstObstacle?_append]
    cases hfound : doc.firstObstacle? parent (doc.inclusiveAncestors parent) [] first with
    | none => simp [hfound] at hfirst
    | some found => simpa [hfound] using hfirst
  · rw [if_neg hparent] at hfirst ⊢
    exact hfirst

namespace Forest

variable {doc : Document} {parent : NodeId} {first : List NodeId}

theorem inclusiveAncestors_link (h : doc.Forest) (admitted : doc.Admits parent first) :
    (doc.link parent first).inclusiveAncestors parent = doc.inclusiveAncestors parent := by
  have hlineage := h.inclusiveAncestors_spec (contains_of_isElement admitted.isElement)
  exact (admitted.ascent_link hlineage).inclusiveAncestors_eq

theorem add_link (h : doc.Forest) (admitted : doc.Admits parent first) (second : List NodeId) :
    (doc.link parent first).add parent second =
      (doc.add parent (first ++ second)).mapError (Fault.onceAttached first) := by
  obtain ⟨hparent, hpassed⟩ := (admits_iff ..).mp admitted
  rw [add_eq, add_eq, isElement_link, if_pos hparent, if_pos hparent,
    h.inclusiveAncestors_link admitted, admitted.firstObstacle?_link, firstObstacle?_append,
    hpassed, Option.none_or, List.append_nil, List.nil_append, link_append]
  cases doc.firstObstacle? parent (doc.inclusiveAncestors parent) first second <;> rfl

theorem add_append_eq_ok_iff (h : doc.Forest) (second : List NodeId) (result : NodeId × Document) :
    doc.add parent (first ++ second) = .ok result ↔
      ∃ middle, doc.add parent first = .ok (parent, middle) ∧
        middle.add parent second = .ok result := by
  cases hfirst : doc.add parent first with
  | error found => simp [add_append_of_error hfirst second]
  | ok found =>
      obtain ⟨admitted, rfl⟩ := (add_eq_ok_iff ..).mp hfirst
      have hsecond := h.add_link admitted second
      cases hboth : doc.add parent (first ++ second) <;>
        simp [hsecond, hboth, Except.mapError]

theorem add_append_error (h : doc.Forest) {second : List NodeId} {fault : Fault}
    (hboth : doc.add parent (first ++ second) = .error fault) :
    doc.add parent first = .error fault ∨
      ∃ middle, doc.add parent first = .ok (parent, middle) ∧
        doc.Attached parent first middle ∧
        middle.add parent second = .error (fault.onceAttached first) := by
  cases hfirst : doc.add parent first with
  | error found =>
      rw [add_append_of_error hfirst second] at hboth
      exact Or.inl hboth
  | ok found =>
      obtain ⟨admitted, rfl⟩ := (add_eq_ok_iff ..).mp hfirst
      have hsecond := h.add_link admitted second
      rw [hboth] at hsecond
      exact Or.inr ⟨_, rfl, admitted.attached, hsecond⟩

end Forest

/-- Attaching two lists of nodes in one call succeeds exactly if attaching one after the
other does, and then leads to the same document. Otherwise the one call changes nothing
and meets the fault of the first call of the two that fails; after the first of them has
attached its nodes, one of these that is listed again is reported as attached already,
which is a fault of the same kind. -/
theorem add_append (number : Nat) (calls : List Call) (parent : NodeId)
    (first second : List NodeId) :
    let doc := (Document.empty number).run calls
    (∀ result, doc.add parent (first ++ second) = .ok result ↔
      ∃ middle, doc.add parent first = .ok (parent, middle) ∧
        middle.add parent second = .ok result) ∧
      ∀ fault, doc.add parent (first ++ second) = .error fault →
        (Call.add parent (first ++ second)).applyTo doc = doc ∧
          (doc.add parent first = .error fault ∨
            ∃ middle, doc.add parent first = .ok (parent, middle) ∧
              doc.Attached parent first middle ∧
              middle.add parent second = .error (fault.onceAttached first) ∧
              (fault.onceAttached first).kind = fault.kind) := by
  intro doc
  have hforest : doc.Forest := (Forest.empty number).run calls
  constructor
  · exact hforest.add_append_eq_ok_iff second
  · intro fault hboth
    refine ⟨Call.applyTo_add_of_error hboth, (hforest.add_append_error hboth).imp_right ?_⟩
    rintro ⟨middle, hfirst, hattached, hsecond⟩
    exact ⟨middle, hfirst, hattached, hsecond, fault.kind_onceAttached first⟩

/-- A button listed in both batches, before a node that is in the way for another reason. -/
example :
    let doc := (Document.empty 0).run [.createDiv none none, .createButton "ok" none none]
    let middle := doc.run [.add ⟨0, 0⟩ [⟨0, 1⟩]]
    doc.add ⟨0, 0⟩ [⟨0, 1⟩, ⟨0, 1⟩, ⟨1, 0⟩] = .error (.listedTwice ⟨0, 1⟩) ∧
      doc.add ⟨0, 0⟩ [⟨0, 1⟩] = .ok (⟨0, 0⟩, middle) ∧
      middle.add ⟨0, 0⟩ [⟨0, 1⟩, ⟨1, 0⟩] = .error (.alreadyAttached ⟨0, 1⟩) := by
  decide

end Document

end StyledTree
