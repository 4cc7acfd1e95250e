import StyledTree.Proofs.Document.Descent

/-!
# What `add` accepts and what it does

The check of `add` looks up from the parent; seen from the nodes to attach, it
asks that the parent is not within any of their trees. This module states the
conditions of `add` in these terms, its effect on every node, and which fault it
reports.
-/

namespace StyledTree.Document

/-- The lists of nodes that can be attached below `parent`. -/
structure Acceptable (doc : Document) (parent : NodeId) (children : List NodeId) : Prop where
  isElement : doc.isElement parent = true
  distinct : children.Nodup
  owned : ∀ child ∈ children, doc.contains child = true
  detached : ∀ child ∈ children, doc.parent child = none
  not_within : ∀ child ∈ children, parent ∉ doc.inclusiveDescendants child

/-- What is wrong with a node that is listed after the nodes `earlier`, with the
fault that reports it. -/
inductive Offence (doc : Document) (parent : NodeId) (earlier : List NodeId) (child : NodeId) :
    Fault → Prop where
  | foreign (other : ¬doc.contains child = true) : Offence doc parent earlier child
      (.foreignNode child)
  | attached (own : doc.contains child = true) (taken : doc.parent child ≠ none) :
      Offence doc parent earlier child (.alreadyAttached child)
  | repeated (own : doc.contains child = true) (detached : doc.parent child = none)
      (listed : child ∈ earlier) : Offence doc parent earlier child (.listedTwice child)
  | circular (own : doc.contains child = true) (detached : doc.parent child = none)
      (fresh : child ∉ earlier) (within : parent ∈ doc.inclusiveDescendants child) :
      Offence doc parent earlier child (.wouldCycle child parent)

theorem Offence.kind_eq {doc : Document} {parent child : NodeId} {earlier : List NodeId}
    {fault : Fault} (h : doc.Offence parent earlier child fault) :
    fault.kind = if doc.contains child then .invalidState else .invalidArgument := by
  cases h with
  | foreign other => rw [if_neg other]; rfl
  | attached own taken => rw [if_pos own]; rfl
  | repeated own detached listed => rw [if_pos own]; rfl
  | circular own detached fresh within => rw [if_pos own]; rfl

/-- Everything about a document after nodes have been attached to it, in terms of
what it was before. -/
structure Attached (doc : Document) (parent : NodeId) (added : List NodeId)
    (grown : Document) : Prop where
  number : grown.number = doc.number
  size : grown.size = doc.size
  children : ∀ id, grown.children id =
    if id = parent then doc.children parent ++ added else doc.children id
  parents : ∀ id, grown.parent id = if id ∈ added then some parent else doc.parent id
  unlinked : ∀ id, (grown.node? id).map (fun node => node.content.unlinked) =
    (doc.node? id).map fun node => node.content.unlinked

theorem Admits.attached {doc : Document} {parent : NodeId} {children : List NodeId}
    (h : doc.Admits parent children) :
    doc.Attached parent children (doc.link parent children) where
  number := number_link doc parent children
  size := size_link doc parent children
  children := children_link h.isElement children
  parents := parent_link h.owned parent
  unlinked := unlinked_link doc parent children

namespace Forest

variable {doc : Document}

theorem admits_iff_acceptable (h : doc.Forest) (parent : NodeId) (children : List NodeId) :
    doc.Admits parent children ↔ doc.Acceptable parent children := by
  constructor
  · intro hadmits
    have hparent := contains_of_isElement hadmits.isElement
    refine ⟨hadmits.isElement, hadmits.distinct, hadmits.owned, hadmits.detached, ?_⟩
    intro child hmem hwithin
    apply hadmits.not_above child hmem
    exact (h.mem_inclusiveDescendants_iff (hadmits.owned child hmem) hparent).mp hwithin
  · intro hacceptable
    have hparent := contains_of_isElement hacceptable.isElement
    refine ⟨hacceptable.isElement, hacceptable.distinct, hacceptable.owned,
      hacceptable.detached, ?_⟩
    intro child hmem habove
    apply hacceptable.not_within child hmem
    exact (h.mem_inclusiveDescendants_iff (hacceptable.owned child hmem) hparent).mpr habove

theorem offence_of_obstacle? (h : doc.Forest) {parent child : NodeId} {earlier : List NodeId}
    {fault : Fault} (hparent : doc.contains parent = true)
    (hfault : doc.obstacle? parent (doc.inclusiveAncestors parent) earlier child = some fault) :
    doc.Offence parent earlier child fault := by
  rw [obstacle?_eq] at hfault
  split at hfault
  case isFalse hother =>
    cases hfault
    exact .foreign hother
  case isTrue hown =>
    split at hfault
    case isTrue htaken =>
      cases hfault
      exact .attached hown (Option.isSome_iff_ne_none.mp htaken)
    case isFalse hfree =>
      have hdetached := Option.not_isSome_iff_eq_none.mp hfree
      split at hfault
      case isTrue hlisted =>
        cases hfault
        exact .repeated hown hdetached hlisted
      case isFalse hfresh =>
        split at hfault
        case isTrue habove =>
          cases hfault
          exact .circular hown hdetached hfresh
            ((h.mem_inclusiveDescendants_iff hown hparent).mpr habove)
        case isFalse => cases hfault

/-- The fault of `add` is that of the first node in the list that cannot be
attached after those before it. -/
theorem first_offence (h : doc.Forest) {parent : NodeId} {children : List NodeId} {fault : Fault}
    (hparent : doc.isElement parent = true)
    (hfault : doc.firstObstacle? parent (doc.inclusiveAncestors parent) [] children =
      some fault) :
    ∃ earlier child later, children = earlier ++ child :: later ∧
      doc.Acceptable parent earlier ∧ doc.Offence parent earlier child fault := by
  obtain ⟨earlier, child, later, hsplit, hpassed, hmet⟩ :=
    (firstObstacle?_eq_some_iff ..).mp hfault
  refine ⟨earlier, child, later, hsplit, ?_, ?_⟩
  · exact (h.admits_iff_acceptable parent earlier).mp
      ((admits_iff doc parent earlier).mpr ⟨hparent, hpassed⟩)
  · exact h.offence_of_obstacle? (contains_of_isElement hparent) hmet

theorem add_error (h : doc.Forest) {parent : NodeId} {children : List NodeId} {fault : Fault}
    (hadd : doc.add parent children = .error fault) :
    ¬doc.isElement parent = true ∧ fault.kind = .invalidArgument ∨
      doc.isElement parent = true ∧
        ∃ earlier child later, children = earlier ++ child :: later ∧
          doc.Acceptable parent earlier ∧ doc.Offence parent earlier child fault ∧
          fault.kind = if doc.contains child then .invalidState else .invalidArgument := by
  rw [add_eq] at hadd
  by_cases hparent : doc.isElement parent = true
  · rw [if_pos hparent] at hadd
    cases hfirst : doc.firstObstacle? parent (doc.inclusiveAncestors parent) [] children with
    | none =>
        rw [hfirst] at hadd
        cases hadd
    | some found =>
        rw [hfirst] at hadd
        cases hadd
        obtain ⟨earlier, child, later, hsplit, haccepted, hoffence⟩ :=
          h.first_offence hparent hfirst
        exact Or.inr ⟨hparent, earlier, child, later, hsplit, haccepted, hoffence,
          hoffence.kind_eq⟩
  · rw [if_neg hparent] at hadd
    refine Or.inl ⟨hparent, ?_⟩
    cases hadd
    split <;> rfl

end Forest

/-- `add` succeeds exactly on acceptable lists, and then changes the links it says
and nothing else. It fails without a change: because the parent is no element, or
else because of the first node in the list that offends. -/
theorem add_of_run (number : Nat) (calls : List Call) (parent : NodeId)
    (children : List NodeId) :
    let doc := (Document.empty number).run calls
    ((∃ result, doc.add parent children = .ok result) ↔ doc.Acceptable parent children) ∧
      (∀ returned grown, doc.add parent children = .ok (returned, grown) →
        returned = parent ∧ doc.Attached parent children grown) ∧
      ∀ fault, doc.add parent children = .error fault →
        (Call.add parent children).applyTo doc = doc ∧
          (¬doc.isElement parent = true ∧ fault.kind = .invalidArgument ∨
            doc.isElement parent = true ∧
              ∃ earlier child later, children = earlier ++ child :: later ∧
                doc.Acceptable parent earlier ∧ doc.Offence parent earlier child fault ∧
                fault.kind = if doc.contains child then .invalidState else .invalidArgument) := by
  intro doc
  have hforest : doc.Forest := (Forest.empty number).run calls
  refine ⟨?_, ?_, ?_⟩
  · rw [← hforest.admits_iff_acceptable]
    constructor
    · rintro ⟨result, hadd⟩
      exact ((add_eq_ok_iff ..).mp hadd).1
    · intro hadmits
      exact ⟨_, (add_eq_ok_iff ..).mpr ⟨hadmits, rfl⟩⟩
  · intro returned grown hadd
    obtain ⟨hadmits, hresult⟩ := (add_eq_ok_iff ..).mp hadd
    obtain ⟨rfl, rfl⟩ := Prod.mk.inj hresult
    exact ⟨rfl, hadmits.attached⟩
  · intro fault hadd
    exact ⟨Call.applyTo_add_of_error hadd, hforest.add_error hadd⟩

end StyledTree.Document
