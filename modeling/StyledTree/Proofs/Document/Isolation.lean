import StyledTree.Proofs.Document.Batches
import StyledTree.Renderer

/-!
# Documents keep to themselves

A document knows its own handles by its number. To every other handle, also one with the
index of a node that it has, it answers that there is nothing, or that the handle is
foreign. No foreign handle gets into its links either: an element that is taken in from
elsewhere leaves its children behind, so whoever walks a document stays in it.
-/

namespace StyledTree.Document

/-- What a document answers about a handle that is not its own. -/
structure Refuses (doc : Document) (id : NodeId) : Prop where
  contains : doc.contains id = false
  isElement : doc.isElement id = false
  node? : doc.node? id = none
  parent : doc.parent id = none
  children : doc.children id = []
  ancestors : doc.inclusiveAncestors id = []
  descendants : doc.inclusiveDescendants id = []
  elements : doc.elements id = []
  node : doc.node id = .error (.foreignNode id)
  element : doc.element id = .error (.foreignNode id)
  text : doc.text id = .error (.foreignNode id)
  update : ∀ (α : Type) (f : Element → α × Element),
    doc.updateElement id f = .error (.foreignNode id)
  add : ∀ children, doc.add id children = .error (.foreignNode id)
  computeStyles : ∀ sheet, doc.computeStyles id sheet = .error (.foreignNode id)
  render : ∀ (renderer : Renderer) (styles : ComputedStyles) (width : Nat),
    renderer.render doc id styles width = .error (.style (.foreignNode id)) ∧
      renderer.renderChecked doc id styles width = some (.error (.style (.foreignNode id)))

/-- Whatever is reached from a node belongs to the document. -/
structure OwnsWalks (doc : Document) : Prop where
  children : ∀ root, ∀ id ∈ doc.children root, doc.contains id = true
  ancestors : ∀ root, ∀ id ∈ doc.inclusiveAncestors root, doc.contains id = true
  descendants : ∀ root, ∀ id ∈ doc.inclusiveDescendants root, doc.contains id = true
  elements : ∀ root, ∀ entry ∈ doc.elements root, doc.contains entry.1 = true

/-- Nothing is wrong with any node of a list, each listed after those before it. -/
def Offenceless (doc : Document) (parent : NodeId) (children : List NodeId) : Prop :=
  ∀ earlier child later fault, children = earlier ++ child :: later →
    ¬doc.Offence parent earlier child fault

variable {doc : Document}

theorem refuses_of_not_contains {id : NodeId} (h : ¬doc.contains id = true) : doc.Refuses id := by
  have hnode := node?_eq_none_of_not_contains h
  have helement? := element?_eq_none_of_not_contains h
  have hdescendants := inclusiveDescendants_of_not_contains h
  have hread : doc.node id = .error (.foreignNode id) := by rw [Document.node, hnode]
  have helement : doc.element id = .error (.foreignNode id) := by
    rw [element_eq, helement?, if_neg h]
  have hnone : ¬doc.isElement id = true := fun hid => h (contains_of_isElement hid)
  constructor
  case contains => exact Bool.eq_false_iff.mpr h
  case isElement => exact Bool.eq_false_iff.mpr hnone
  case node? => exact hnode
  case parent => exact parent_eq_none_of_not_contains h
  case children => exact children_of_not_isElement hnone
  case ancestors => exact if_neg h
  case descendants => exact hdescendants
  case elements => rw [Document.elements, hdescendants, List.filterMap_nil]
  case node => exact hread
  case element => exact helement
  case text =>
    rw [Document.text, hread]
    rfl
  case update =>
    intro α f
    rw [updateElement_eq, helement]
    rfl
  case add =>
    intro children
    rw [add_eq, if_neg hnone, if_neg h]
  case computeStyles =>
    intro sheet
    rw [Document.computeStyles, helement]
    rfl
  case render =>
    intro renderer styles width
    exact ⟨Renderer.renderHeld_of_error _ renderer helement styles width,
      Renderer.renderHeld_of_error _ renderer helement styles width⟩

theorem Refuses.of_number_ne {id : NodeId} (hnumber : id.document ≠ doc.number) :
    doc.Refuses id := by
  apply refuses_of_not_contains
  rw [contains_iff]
  exact fun hown => hnumber hown.1

namespace Forest

theorem ownsWalks (h : doc.Forest) : doc.OwnsWalks := by
  constructor
  case children => exact fun root id => h.contains_of_mem_children
  case ancestors =>
    intro root id hmem
    by_cases hroot : doc.contains root = true
    · exact (h.inclusiveAncestors_spec hroot).contains_of_mem hmem
    · rw [(refuses_of_not_contains hroot).ancestors] at hmem
      cases hmem
  case descendants => exact fun root id => h.contains_of_mem_inclusiveDescendants
  case elements =>
    intro root entry hmem
    obtain ⟨id, hid, hentry⟩ := List.mem_filterMap.mp hmem
    obtain ⟨element, -, rfl⟩ := Option.map_eq_some_iff.mp hentry
    exact h.contains_of_mem_inclusiveDescendants hid

theorem firstObstacle?_of_offenceless (h : doc.Forest) {parent : NodeId} {children : List NodeId}
    (hparent : doc.isElement parent = true) (hclear : doc.Offenceless parent children) :
    doc.firstObstacle? parent (doc.inclusiveAncestors parent) [] children = none := by
  cases hfirst : doc.firstObstacle? parent (doc.inclusiveAncestors parent) [] children with
  | none => rfl
  | some fault =>
      obtain ⟨earlier, child, later, hsplit, -, hoffence⟩ := h.first_offence hparent hfirst
      exact absurd hoffence (hclear earlier child later fault hsplit)

theorem add_foreign (h : doc.Forest) {parent id : NodeId} {earlier : List NodeId}
    (hid : ¬doc.contains id = true) (hparent : doc.isElement parent = true)
    (hclear : doc.Offenceless parent earlier) (later : List NodeId) :
    doc.add parent (earlier ++ id :: later) = .error (.foreignNode id) := by
  rw [add_eq, if_pos hparent, firstObstacle?_append,
    h.firstObstacle?_of_offenceless hparent hclear, Option.none_or, firstObstacle?, obstacle?_eq,
    if_neg hid, Option.some_or]

end Forest

/-- A document refuses every handle of another one, as a parent, as the first node with
which something is wrong among those to attach, and everywhere else, and remains as it
is. Walking it leads to no handle but its own, also when it has taken in elements that
list nodes of the other. -/
theorem run_isolated (number number' : Nat) (calls calls' : List Call) (id : NodeId)
    (hnumber : number ≠ number')
    (hid : ((Document.empty number').run calls').contains id = true) :
    let doc := (Document.empty number).run calls
    let other := (Document.empty number').run calls'
    (Fault.foreignNode id).kind = .invalidArgument ∧ doc.Refuses id ∧
    (∀ children, (Call.add id children).applyTo doc = doc) ∧
    (∀ parent earlier later, doc.Offenceless parent earlier →
      ∃ fault, doc.add parent (earlier ++ id :: later) = .error fault ∧
        fault.kind = .invalidArgument ∧
        (doc.isElement parent = true → fault = .foreignNode id) ∧
        (Call.add parent (earlier ++ id :: later)).applyTo doc = doc) ∧
    doc.OwnsWalks ∧
    ∀ source element, other.element source = .ok element →
      (doc.adopt element).2.Refuses id ∧ (doc.adopt element).2.OwnsWalks := by
  intro doc other
  have hforest : doc.Forest := (Forest.empty number).run calls
  have hforeign : id.document ≠ doc.number := by
    rw [((contains_iff other id).mp hid).1, number_run, number_run]
    exact hnumber.symm
  have hrefuses : doc.Refuses id := .of_number_ne hforeign
  refine ⟨rfl, hrefuses, fun children => Call.applyTo_add_of_error (hrefuses.add children), ?_,
    hforest.ownsWalks, ?_⟩
  · intro parent earlier later hclear
    by_cases hparent : doc.isElement parent = true
    · have hadd := hforest.add_foreign (Bool.eq_false_iff.mp hrefuses.contains) hparent hclear later
      exact ⟨_, hadd, rfl, fun _ => rfl, Call.applyTo_add_of_error hadd⟩
    · have hadd := add_eq doc parent (earlier ++ id :: later)
      rw [if_neg hparent] at hadd
      refine ⟨_, hadd, ?_, fun helement => absurd helement hparent, Call.applyTo_add_of_error hadd⟩
      split <;> rfl
  · intro source element _
    have hgrown : (doc.adopt element).2.Forest := hforest.run [.adopt element]
    exact ⟨.of_number_ne hforeign, hgrown.ownsWalks⟩

/-- Two documents whose first nodes have the same index. The button of the second one is
refused by the first, and a copy of it leaves its label behind. -/
theorem run_isolated_buttons :
    let doc := (Document.empty 0).run [.createDiv none none, .createText "go"]
    let other := (Document.empty 1).run [.createButton "ok" none none]
    let button : NodeId := ⟨1, 0⟩
    0 ≠ 1 ∧ other.contains button = true ∧ doc.contains ⟨0, 0⟩ = true ∧
      doc.element button = .error (.foreignNode button) ∧
      doc.add ⟨0, 0⟩ [⟨0, 1⟩, button] = .error (.foreignNode button) ∧
      ∃ element, other.element button = .ok element ∧ element.children = [⟨1, 1⟩] ∧
        (doc.adopt element).2.OwnsWalks := by
  intro doc other button
  have hbutton : other.contains button = true := by decide
  obtain ⟨-, hrefuses, -, hadd, -, hadopted⟩ :=
    run_isolated 0 1 [.createDiv none none, .createText "go"] [.createButton "ok" none none] button
      (by decide) hbutton
  have hclear : doc.Offenceless ⟨0, 0⟩ [⟨0, 1⟩] := by
    intro earlier child later fault hsplit hoffence
    cases earlier with
    | nil =>
        cases hsplit
        cases hoffence with
        | foreign other => exact other (by decide)
        | attached own taken => exact taken (by decide)
        | repeated own detached listed => cases listed
        | circular own detached fresh within => exact absurd within (by decide)
    | cons first earlier => cases earlier <;> cases hsplit
  obtain ⟨fault, hrefused, -, hfault, -⟩ := hadd ⟨0, 0⟩ [⟨0, 1⟩] [] hclear
  rw [hfault (by decide)] at hrefused
  refine ⟨by decide, hbutton, by decide, hrefuses.element, hrefused, ?_⟩
  have hread : other.element button =
      .ok { typeName := "button", children := [⟨1, 1⟩] } := by decide
  exact ⟨_, hread, rfl, (hadopted button _ hread).2⟩

end StyledTree.Document
