import Mathlib.Logic.Relation
import StyledTree.Proofs.Document.Links

/-!
# How documents grow

A document is the result of calls, some of which may fail. Each call takes a
document a number of steps further, and there are three kinds of step: a node
without links is added, an element gets another id or more classes, and nodes
that `add` has no objection to are linked below an element.
-/

namespace StyledTree.Document

/-! ## Admission -/

/-- What `add` asks of its arguments, with the way up from the parent in view. -/
structure Admits (doc : Document) (parent : NodeId) (children : List NodeId) : Prop where
  isElement : doc.isElement parent = true
  distinct : children.Nodup
  owned : ∀ child ∈ children, doc.contains child = true
  detached : ∀ child ∈ children, doc.parent child = none
  not_above : ∀ child ∈ children, child ∉ doc.inclusiveAncestors parent

theorem obstacle?_eq (doc : Document) (parent : NodeId) (lineage earlier : List NodeId)
    (child : NodeId) :
    doc.obstacle? parent lineage earlier child =
      if doc.contains child then
        if (doc.parent child).isSome then some (.alreadyAttached child)
        else if child ∈ earlier then some (.listedTwice child)
        else if child ∈ lineage then some (.wouldCycle child parent)
        else none
      else some (.foreignNode child) := by
  cases hnode : doc.node? child with
  | none =>
      have hother : ¬doc.contains child = true := by simp [contains_iff_node?, hnode]
      rw [if_neg hother, obstacle?, hnode]
  | some node =>
      have hown : doc.contains child = true := (contains_iff_node? doc child).mpr ⟨node, hnode⟩
      simp [hown, obstacle?, Document.parent, hnode]

theorem obstacle?_eq_none_iff (doc : Document) (parent : NodeId) (lineage earlier : List NodeId)
    (child : NodeId) :
    doc.obstacle? parent lineage earlier child = none ↔
      doc.contains child = true ∧ doc.parent child = none ∧ child ∉ earlier ∧
        child ∉ lineage := by
  rw [obstacle?_eq]
  cases doc.contains child with
  | false => simp
  | true =>
      cases doc.parent child with
      | some above => simp
      | none => by_cases hearlier : child ∈ earlier <;> simp [hearlier]

/-- What keeps the first of some nodes that cannot be attached from it. -/
def firstObstacle? (doc : Document) (parent : NodeId) (lineage : List NodeId) :
    (earlier children : List NodeId) → Option Fault
  | _, [] => none
  | earlier, child :: later =>
      (doc.obstacle? parent lineage earlier child).or
        (doc.firstObstacle? parent lineage (earlier ++ [child]) later)

theorem firstObstacle?_eq_some_iff (doc : Document) (parent : NodeId)
    (lineage earlier children : List NodeId) (fault : Fault) :
    doc.firstObstacle? parent lineage earlier children = some fault ↔
      ∃ before child after, children = before ++ child :: after ∧
        doc.firstObstacle? parent lineage earlier before = none ∧
        doc.obstacle? parent lineage (earlier ++ before) child = some fault := by
  induction children generalizing earlier with
  | nil => simp [firstObstacle?]
  | cons first rest ih =>
      rw [firstObstacle?]
      cases hfirst : doc.obstacle? parent lineage earlier first with
      | some found =>
          rw [Option.some_or]
          constructor
          · intro hfault
            exact ⟨[], first, rest, rfl, rfl, by rw [List.append_nil, hfirst, hfault]⟩
          · rintro ⟨before, child, after, hsplit, hbefore, hchild⟩
            cases before with
            | nil =>
                obtain ⟨rfl, -⟩ := List.cons.inj hsplit
                rw [← hfirst, ← hchild, List.append_nil]
            | cons head tail =>
                obtain ⟨rfl, -⟩ := List.cons.inj hsplit
                simp [firstObstacle?, hfirst] at hbefore
      | none =>
          rw [Option.none_or, ih]
          constructor
          · rintro ⟨before, child, after, hsplit, hbefore, hchild⟩
            refine ⟨first :: before, child, after, by rw [hsplit]; rfl, ?_, ?_⟩
            · rw [firstObstacle?, hfirst, Option.none_or, hbefore]
            · simpa using hchild
          · rintro ⟨before, child, after, hsplit, hbefore, hchild⟩
            cases before with
            | nil =>
                obtain ⟨rfl, -⟩ := List.cons.inj hsplit
                simp [hfirst] at hchild
            | cons head tail =>
                obtain ⟨rfl, hrest⟩ := List.cons.inj hsplit
                rw [firstObstacle?, hfirst, Option.none_or] at hbefore
                exact ⟨tail, child, after, hrest, hbefore, by simpa using hchild⟩

theorem firstObstacle?_eq_none_iff (doc : Document) (parent : NodeId)
    (lineage earlier children : List NodeId) :
    doc.firstObstacle? parent lineage earlier children = none ↔
      children.Nodup ∧ ∀ child ∈ children, doc.contains child = true ∧
        doc.parent child = none ∧ child ∉ earlier ∧ child ∉ lineage := by
  induction children generalizing earlier with
  | nil => simp [firstObstacle?]
  | cons first rest ih =>
      rw [firstObstacle?, Option.or_eq_none_iff, obstacle?_eq_none_iff, ih, List.nodup_cons,
        List.forall_mem_cons]
      constructor
      · rintro ⟨hfirst, hdistinct, hrest⟩
        refine ⟨⟨?_, hdistinct⟩, hfirst, ?_⟩
        · intro hmem
          exact (hrest first hmem).2.2.1 (by simp)
        · intro child hmem
          obtain ⟨hown, hdet, hnew, hlin⟩ := hrest child hmem
          exact ⟨hown, hdet, fun h => hnew (List.mem_append_left _ h), hlin⟩
      · rintro ⟨⟨hfresh, hdistinct⟩, hfirst, hrest⟩
        refine ⟨hfirst, hdistinct, ?_⟩
        intro child hmem
        obtain ⟨hown, hdet, hnew, hlin⟩ := hrest child hmem
        refine ⟨hown, hdet, ?_, hlin⟩
        intro h
        rcases List.mem_append.mp h with h | h
        · exact hnew h
        · exact hfresh (List.mem_singleton.mp h ▸ hmem)

theorem admits_iff (doc : Document) (parent : NodeId) (children : List NodeId) :
    doc.Admits parent children ↔
      doc.isElement parent = true ∧
        doc.firstObstacle? parent (doc.inclusiveAncestors parent) [] children = none := by
  rw [firstObstacle?_eq_none_iff]
  constructor
  · intro h
    refine ⟨h.isElement, h.distinct, ?_⟩
    intro child hmem
    exact ⟨h.owned child hmem, h.detached child hmem, List.not_mem_nil, h.not_above child hmem⟩
  · rintro ⟨helement, hdistinct, hall⟩
    exact ⟨helement, hdistinct, fun child hmem => (hall child hmem).1,
      fun child hmem => (hall child hmem).2.1, fun child hmem => (hall child hmem).2.2.2⟩

/-! ## Outcomes -/

namespace Operation

theorem run_validate (doc : Document) (parent : NodeId)
    (lineage earlier children : List NodeId) :
    (validate parent lineage earlier children).run doc =
      match doc.firstObstacle? parent lineage earlier children with
      | some fault => .error fault doc
      | none => .ok () doc := by
  induction children generalizing earlier with
  | nil => rfl
  | cons child later ih =>
      rw [firstObstacle?, validate]
      simp only [EStateM.run_bind, EStateM.run_get]
      cases doc.obstacle? parent lineage earlier child with
      | some fault => rfl
      | none => exact ih (earlier ++ [child])

theorem run_add (doc : Document) (parent : NodeId) (children : List NodeId) :
    (add parent children).run doc =
      match doc.element parent with
      | .error fault => .error fault doc
      | .ok _ =>
          match doc.firstObstacle? parent (doc.inclusiveAncestors parent) [] children with
          | some fault => .error fault doc
          | none => .ok parent (doc.link parent children) := by
  have hvalidate := run_validate doc parent (doc.inclusiveAncestors parent) [] children
  rw [add]
  simp only [EStateM.run_bind, EStateM.run_get]
  cases doc.element parent with
  | error fault => rfl
  | ok element =>
      simp only [ofExcept, EStateM.run_pure, hvalidate]
      cases doc.firstObstacle? parent (doc.inclusiveAncestors parent) [] children <;> rfl

/-- A refusal leaves the document as it was. -/
def Atomic {α : Type} (operation : Operation α) : Prop :=
  ∀ doc fault left, operation.run doc = .error fault left → left = doc

theorem atomic_createElement (typeName : String) : (createElement typeName).Atomic := by
  intro doc fault left hrefused
  rw [createElement] at hrefused
  cases hcreate : Element.create typeName <;> rw [hcreate] at hrefused <;> cases hrefused
  rfl

theorem atomic_createElementWith (typeName : String) (id classAttribute : Option String) :
    (createElementWith typeName id classAttribute).Atomic := by
  intro doc fault left hrefused
  rw [createElementWith] at hrefused
  cases hcreate : Element.create typeName <;> rw [hcreate] at hrefused <;> cases hrefused
  rfl

theorem atomic_add (parent : NodeId) (children : List NodeId) : (add parent children).Atomic := by
  intro doc fault left hrefused
  rw [run_add] at hrefused
  split at hrefused
  · cases hrefused
    rfl
  · split at hrefused <;> cases hrefused
    rfl

theorem atomic_updateElement {α : Type} (id : NodeId) (f : Element → α × Element) :
    (updateElement id f).Atomic := by
  intro doc fault left hrefused
  rw [run_updateElement] at hrefused
  split at hrefused <;> cases hrefused
  rfl

end Operation

theorem after_of_perform_eq_ok {α : Type} {doc changed : Document} {operation : Operation α}
    {result : α} (hdone : doc.perform operation = .ok (result, changed)) :
    doc.after operation = changed := by
  unfold perform at hdone
  unfold after
  split at hdone
  · exact (Prod.mk.inj (Except.ok.inj hdone)).2
  · cases hdone

theorem Operation.Atomic.after_eq {α : Type} {operation : Operation α} (h : operation.Atomic)
    {doc : Document} {fault : Fault} (hrefused : doc.perform operation = .error fault) :
    doc.after operation = doc := by
  unfold perform at hrefused
  unfold after
  split at hrefused
  · cases hrefused
  case h_2 hrun => exact h doc _ _ hrun

theorem add_eq (doc : Document) (parent : NodeId) (children : List NodeId) :
    doc.add parent children =
      if doc.isElement parent then
        match doc.firstObstacle? parent (doc.inclusiveAncestors parent) [] children with
        | some fault => .error fault
        | none => .ok (parent, doc.link parent children)
      else .error (if doc.contains parent then .notAnElement parent else .foreignNode parent) := by
  rw [add, perform, Operation.run_add, element_eq, isElement]
  cases doc.element? parent with
  | none => rfl
  | some element =>
      cases doc.firstObstacle? parent (doc.inclusiveAncestors parent) [] children <;> rfl

theorem add_eq_ok_iff (doc : Document) (parent : NodeId) (children : List NodeId)
    (result : NodeId × Document) :
    doc.add parent children = .ok result ↔
      doc.Admits parent children ∧ result = (parent, doc.link parent children) := by
  rw [add_eq, admits_iff]
  by_cases helement : doc.isElement parent = true
  · rw [if_pos helement]
    cases doc.firstObstacle? parent (doc.inclusiveAncestors parent) [] children with
    | none => simp [helement, eq_comm]
    | some fault => simp
  · simp [helement]

/-! ## Calls -/

/-- A call that may change a document. An element to take in may come from
anywhere and list any handles. -/
inductive Call where
  | createElement (typeName : String)
  | adopt (element : Element)
  | createText (text : String)
  | createDiv (id classAttribute : Option String)
  | createButton (label : String) (id classAttribute : Option String)
  | createElementWith (typeName : String) (id classAttribute : Option String)
  | add (parent : NodeId) (children : List NodeId)
  | setId (node : NodeId) (id : String)
  | clearId (node : NodeId)
  | addClass (node : NodeId) (name : String)
deriving Repr, DecidableEq

def Call.applyTo (doc : Document) : Call → Document
  | createElement typeName => doc.after (.createElement typeName)
  | adopt element => (doc.adopt element).2
  | createText text => (doc.createText text).2
  | createDiv id classAttribute => (doc.createDiv id classAttribute).2
  | createButton label id classAttribute => (doc.createButton label id classAttribute).2
  | createElementWith typeName id classAttribute =>
      doc.after (.createElementWith typeName id classAttribute)
  | add parent children => doc.after (.add parent children)
  | setId node id => doc.after (.updateElement node fun element => ((), element.setId id))
  | clearId node => doc.after (.updateElement node fun element => ((), element.clearId))
  | addClass node name => doc.after (.updateElement node fun element => element.addClass name)

theorem Call.applyTo_add_of_error {doc : Document} {parent : NodeId} {children : List NodeId}
    {fault : Fault} (hadd : doc.add parent children = .error fault) :
    (add parent children).applyTo doc = doc :=
  (Operation.atomic_add parent children).after_eq hadd

def run (doc : Document) (calls : List Call) : Document := calls.foldl Call.applyTo doc

/-! ## Steps -/

/-- A change of an element that keeps its type, its children and all its classes. -/
structure Relabels (f : Element → Element) : Prop where
  typeName : ∀ element, (f element).typeName = element.typeName
  children : ∀ element, (f element).children = element.children
  classes : ∀ element name, element.hasClass name = true → (f element).hasClass name = true

/-- Everything that can happen to a document at once. -/
inductive Step : Document → Document → Prop where
  | grow (doc : Document) (content : Content) (bare : content.unlinked = content) :
      Step doc (doc.addNode content).2
  | relabel (doc : Document) (id : NodeId) (f : Element → Element) (keeps : Relabels f) :
      Step doc (doc.modifyNode id (Node.mapElement f))
  | link (doc : Document) (parent : NodeId) (children : List NodeId)
      (admitted : doc.Admits parent children) : Step doc (doc.link parent children)

abbrev Steps : Document → Document → Prop := Relation.ReflTransGen Step

theorem steps_adopt (doc : Document) (element : Element) : Steps doc (doc.adopt element).2 :=
  .single (.grow doc _ rfl)

theorem steps_after {α : Type} {doc : Document} {operation : Operation α}
    (hatomic : operation.Atomic)
    (hdone : ∀ result changed, doc.perform operation = .ok (result, changed) →
      Steps doc changed) : Steps doc (doc.after operation) := by
  cases hperform : doc.perform operation with
  | error fault => rw [hatomic.after_eq hperform]
  | ok outcome =>
      rw [after_of_perform_eq_ok hperform]
      exact hdone outcome.1 outcome.2 hperform

theorem steps_updateElement {α : Type} (doc : Document) (id : NodeId)
    {f : Element → α × Element} (keeps : Relabels fun element => (f element).2) :
    Steps doc (doc.after (.updateElement id f)) := by
  refine steps_after (Operation.atomic_updateElement id f) fun result changed hdone => ?_
  have hdone : doc.updateElement id f = .ok (result, changed) := hdone
  rw [updateElement_eq] at hdone
  cases helement : doc.element id <;> rw [helement] at hdone <;> cases hdone
  exact .single (.relabel doc id _ keeps)

theorem inclusiveAncestors_of_parent_none {doc : Document} {id : NodeId}
    (hcontains : doc.contains id = true) (hparent : doc.parent id = none) :
    doc.inclusiveAncestors id = [id] := by
  have hsize : 0 < doc.size := by
    have := ((contains_iff doc id).mp hcontains).2
    omega
  obtain ⟨fuel, hfuel⟩ := Nat.exists_eq_succ_of_ne_zero (Nat.ne_of_gt hsize)
  rw [inclusiveAncestors, if_pos hcontains, hfuel, lineage, hparent]

/-- The label of a new button is linked without a check, but would pass it. -/
theorem admits_label (doc : Document) (element : Element) (label : String) :
    ((doc.adopt element).2.createText label).2.Admits (doc.adopt element).1
      [((doc.adopt element).2.createText label).1] := by
  let button := (doc.adopt element).1
  let held := (doc.adopt element).2
  let text := (held.createText label).1
  let labelled := (held.createText label).2
  have hbutton : held.contains button = true := (contains_addNode doc _ _).mpr (Or.inl rfl)
  have hfresh : ¬held.contains text = true := not_contains_addNode held _
  have hne : button ≠ text := fun h => hfresh (h ▸ hbutton)
  have hdetached : labelled.parent text = none :=
    (parent_addNode held _ _).trans (parent_eq_none_of_not_contains hfresh)
  have halone : labelled.parent button = none :=
    calc labelled.parent button
        = held.parent button := parent_addNode held _ _
      _ = doc.parent button := parent_addNode doc _ _
      _ = none := parent_eq_none_of_not_contains (not_contains_addNode doc _)
  have helement : labelled.element? button = some { element with children := [] } :=
    (element?_addNode_of_contains hbutton _).trans (element?_addNode_self doc _)
  have hcontains : labelled.contains button = true :=
    (contains_addNode held _ _).mpr (Or.inr hbutton)
  have habove : labelled.inclusiveAncestors button = [button] :=
    inclusiveAncestors_of_parent_none hcontains halone
  refine ⟨(isElement_iff labelled button).mpr ⟨_, helement⟩, List.pairwise_singleton _ _,
    ?_, ?_, ?_⟩ <;> intro child hmem <;> rw [List.mem_singleton.mp hmem]
  · exact (contains_addNode held _ _).mpr (Or.inl rfl)
  · exact hdetached
  · show text ∉ labelled.inclusiveAncestors button
    rw [habove]
    exact fun h => hne (List.mem_singleton.mp h).symm

theorem steps_applyTo (doc : Document) (call : Call) : Steps doc (call.applyTo doc) := by
  cases call with
  | createElement typeName =>
      refine steps_after (Operation.atomic_createElement typeName) fun result changed hdone => ?_
      have hdone : doc.createElement typeName = .ok (result, changed) := hdone
      rw [createElement_eq] at hdone
      cases hcreate : Element.create typeName <;> rw [hcreate] at hdone <;> cases hdone
      exact steps_adopt doc _
  | adopt element => exact steps_adopt doc element
  | createText text => exact .single (.grow doc (.text text) rfl)
  | createDiv id classAttribute => exact steps_adopt doc _
  | createButton label id classAttribute =>
      -- Three steps: the button, its label, and the link that is made without a check.
      let element := Element.withAttributes { typeName := "button" } id classAttribute
      have hlabel : Step (doc.adopt element).2 ((doc.adopt element).2.createText label).2 :=
        .grow _ (.text label) rfl
      exact ((steps_adopt doc element).tail hlabel).tail
        (.link _ _ _ (admits_label doc element label))
  | createElementWith typeName id classAttribute =>
      refine steps_after (Operation.atomic_createElementWith typeName id classAttribute)
        fun result changed hdone => ?_
      have hdone : doc.createElementWith typeName id classAttribute = .ok (result, changed) := hdone
      rw [createElementWith_eq] at hdone
      cases hcreate : Element.create typeName <;> rw [hcreate] at hdone <;> cases hdone
      exact steps_adopt doc _
  | add parent children =>
      refine steps_after (Operation.atomic_add parent children) fun result changed hdone => ?_
      obtain ⟨hadmits, hresult⟩ := (add_eq_ok_iff doc parent children _).mp hdone
      cases hresult
      exact .single (.link doc parent children hadmits)
  | setId node id =>
      exact steps_updateElement doc node ⟨fun _ => rfl, fun _ => rfl, fun _ _ h => h⟩
  | clearId node =>
      exact steps_updateElement doc node ⟨fun _ => rfl, fun _ => rfl, fun _ _ h => h⟩
  | addClass node name =>
      refine steps_updateElement doc node ⟨fun _ => rfl, fun _ => rfl, ?_⟩
      intro element other hclass
      rw [Element.hasClass_addClass, hclass, Bool.or_true]

theorem steps_run (doc : Document) (calls : List Call) : Steps doc (doc.run calls) := by
  induction calls generalizing doc with
  | nil => exact .refl
  | cons call later ih => exact (steps_applyTo doc call).trans (ih (call.applyTo doc))

theorem run_preserves {Holds : Document → Prop}
    (hstep : ∀ doc changed, Step doc changed → Holds doc → Holds changed) {doc : Document}
    (hdoc : Holds doc) (calls : List Call) : Holds (doc.run calls) := by
  have hsteps := steps_run doc calls
  generalize doc.run calls = changed at hsteps ⊢
  induction hsteps with
  | refl => exact hdoc
  | tail _ hlast ih => exact hstep _ _ hlast ih

theorem number_step {doc changed : Document} (hstep : Step doc changed) :
    changed.number = doc.number := by
  cases hstep with
  | grow content bare => rfl
  | relabel id f keeps => exact number_modifyNode ..
  | link parent children admitted => exact number_link ..

theorem number_run (doc : Document) (calls : List Call) : (doc.run calls).number = doc.number :=
  run_preserves (fun _ _ hstep hsame => (number_step hstep).trans hsame) rfl calls

end StyledTree.Document
