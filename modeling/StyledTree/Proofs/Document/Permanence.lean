import Mathlib.Data.List.Flatten
import StyledTree.Proofs.Document.Descent

/-!
# What stays for good

Nothing is taken back from a document. Its nodes stay what they are, a node that has
a parent keeps it, and children are put after those that are there already. This
holds node by node for each step, and so for all calls; that whole trees stay
together then follows from their links.
-/

namespace StyledTree

/-- The later element has the same type, all the classes, and more children at most at
the end. Its id may be another one. -/
structure Element.GrowsTo (element later : Element) : Prop where
  typeName : later.typeName = element.typeName
  classes : ∀ name, element.hasClass name = true → later.hasClass name = true
  children : element.children <+: later.children

/-- Elements stay elements, and texts stay as they are. -/
inductive Content.GrowsTo : Content → Content → Prop where
  | element {element later : Element} (grows : element.GrowsTo later) :
      GrowsTo (.element element) (.element later)
  | text (words : String) : GrowsTo (.text words) (.text words)

structure Node.GrowsTo (node later : Node) : Prop where
  parent : ∀ above, node.parent = some above → later.parent = some above
  content : node.content.GrowsTo later.content

/-- Every node is still there and has only grown. -/
def Document.GrowsTo (doc later : Document) : Prop :=
  ∀ id node, doc.node? id = some node → ∃ now, later.node? id = some now ∧ node.GrowsTo now

namespace Element.GrowsTo

theorem refl (element : Element) : element.GrowsTo element :=
  ⟨rfl, fun _ h => h, List.prefix_refl _⟩

theorem trans {a b c : Element} (hab : a.GrowsTo b) (hbc : b.GrowsTo c) : a.GrowsTo c where
  typeName := hbc.typeName.trans hab.typeName
  classes name h := hbc.classes name (hab.classes name h)
  children := hab.children.trans hbc.children

end Element.GrowsTo

namespace Content.GrowsTo

theorem refl (content : Content) : content.GrowsTo content := by
  cases content with
  | element element => exact .element (.refl element)
  | text words => exact .text words

theorem trans {a b c : Content} (hab : a.GrowsTo b) (hbc : b.GrowsTo c) : a.GrowsTo c := by
  cases hab with
  | element grows =>
      cases hbc with
      | element grows' => exact .element (grows.trans grows')
  | text words => exact hbc

end Content.GrowsTo

namespace Node.GrowsTo

theorem refl (node : Node) : node.GrowsTo node := ⟨fun _ h => h, .refl _⟩

theorem trans {a b c : Node} (hab : a.GrowsTo b) (hbc : b.GrowsTo c) : a.GrowsTo c where
  parent above h := hbc.parent above (hab.parent above h)
  content := hab.content.trans hbc.content

theorem mapElement {f : Element → Element} (grows : ∀ element : Element, element.GrowsTo (f element))
    (node : Node) : node.GrowsTo (node.mapElement f) := by
  obtain ⟨parent, content⟩ := node
  cases content with
  | element element => exact ⟨fun _ h => h, .element (grows element)⟩
  | text words => exact .refl _

end Node.GrowsTo

namespace Document

theorem Relabels.growsTo {f : Element → Element} (keeps : Relabels f) (element : Element) :
    element.GrowsTo (f element) where
  typeName := keeps.typeName element
  classes := keeps.classes element
  children := ⟨[], by rw [keeps.children, List.append_nil]⟩

theorem Admits.growsTo_placed {doc : Document} {parent id : NodeId} {children : List NodeId}
    (admitted : doc.Admits parent children) {node : Node} (hnode : doc.node? id = some node) :
    node.GrowsTo (if id ∈ children then { node with parent := some parent } else node) := by
  split
  case isTrue hmem =>
    have hdetached := admitted.detached id hmem
    rw [Document.parent, hnode, Option.bind_some] at hdetached
    refine ⟨?_, .refl _⟩
    intro above habove
    rw [hdetached] at habove
    cases habove
  case isFalse => exact .refl node

namespace GrowsTo

variable {doc mid later : Document}

theorem refl (doc : Document) : doc.GrowsTo doc := fun _ node hnode => ⟨node, hnode, .refl node⟩

theorem trans (h : doc.GrowsTo mid) (h' : mid.GrowsTo later) : doc.GrowsTo later := by
  intro id node hnode
  obtain ⟨between, hbetween, hfirst⟩ := h id node hnode
  obtain ⟨now, hnow, hsecond⟩ := h' id between hbetween
  exact ⟨now, hnow, hfirst.trans hsecond⟩

theorem of_step (hstep : Step doc later) : doc.GrowsTo later := by
  intro id node hnode
  cases hstep with
  | grow content bare =>
      have hne : id ≠ (doc.addNode content).1 := by
        rintro rfl
        exact not_contains_addNode doc content ((contains_iff_node? doc _).mpr ⟨node, hnode⟩)
      exact ⟨node, by rw [node?_addNode, if_neg hne, hnode], .refl node⟩
  | relabel target f keeps =>
      rw [node?_modifyNode, hnode]
      by_cases htarget : id = target
      · rw [if_pos htarget]
        exact ⟨_, rfl, .mapElement keeps.growsTo node⟩
      · rw [if_neg htarget]
        exact ⟨_, rfl, .refl node⟩
  | link parent children admitted =>
      have hplaced := admitted.growsTo_placed hnode
      rw [node?_link, hnode, Option.map_some]
      refine ⟨_, rfl, ?_⟩
      by_cases hparent : id = parent
      · simp only [if_pos hparent]
        refine hplaced.trans (.mapElement ?_ _)
        intro element
        exact ⟨rfl, fun _ h => h, List.prefix_append _ _⟩
      · simp only [if_neg hparent]
        exact hplaced

theorem of_run (doc : Document) (calls : List Call) : doc.GrowsTo (doc.run calls) :=
  run_preserves (fun _ _ hstep h => h.trans (of_step hstep)) (refl doc) calls

theorem contains (h : doc.GrowsTo later) {id : NodeId} (hid : doc.contains id = true) :
    later.contains id = true := by
  obtain ⟨node, hnode⟩ := (contains_iff_node? doc id).mp hid
  obtain ⟨now, hnow, -⟩ := h id node hnode
  exact (contains_iff_node? later id).mpr ⟨now, hnow⟩

theorem text (h : doc.GrowsTo later) {id : NodeId} {words : String}
    (htext : doc.text id = .ok words) : later.text id = .ok words := by
  rw [text_eq_ok_iff] at htext ⊢
  obtain ⟨⟨parent, content⟩, hnode, hheld⟩ := Option.map_eq_some_iff.mp htext
  obtain rfl : content = .text words := hheld
  obtain ⟨⟨parent', content'⟩, hnow, hgrows⟩ := h id _ hnode
  cases hgrows.content
  rw [hnow, Option.map_some]

theorem element? (h : doc.GrowsTo later) {id : NodeId} {element : Element}
    (helement : doc.element? id = some element) :
    ∃ now, later.element? id = some now ∧ element.GrowsTo now := by
  obtain ⟨⟨parent, content⟩, hnode, hheld⟩ := Option.bind_eq_some_iff.mp helement
  obtain ⟨⟨parent', content'⟩, hnow, hgrows⟩ := h id _ hnode
  cases hgrows.content with
  | element grows =>
      cases hheld
      exact ⟨_, by rw [Document.element?, hnow]; rfl, grows⟩
  | text words => cases hheld

theorem parent (h : doc.GrowsTo later) {id above : NodeId}
    (hparent : doc.parent id = some above) : later.parent id = some above := by
  obtain ⟨node, hnode, habove⟩ := Option.bind_eq_some_iff.mp hparent
  obtain ⟨now, hnow, hgrows⟩ := h id node hnode
  rw [Document.parent, hnow, Option.bind_some]
  exact hgrows.parent above habove

theorem children (h : doc.GrowsTo later) (id : NodeId) : doc.children id <+: later.children id := by
  cases helement : doc.element? id with
  | none =>
      rw [Document.children, helement]
      exact List.nil_prefix
  | some element =>
      obtain ⟨now, hnow, hgrows⟩ := h.element? helement
      rw [children_of_element? helement, children_of_element? hnow]
      exact hgrows.children

end GrowsTo

/-- Where children are only added at the end, nothing that was on a walk is left out of
it, and all of it stays in order. -/
theorem Forest.preorder_sublist {doc later : Document} (h : doc.Forest) (hlater : later.Forest)
    (hchildren : ∀ id, doc.children id <+: later.children id) (root : NodeId) :
    (doc.preorder root).Sublist (later.preorder root) := by
  induction root using h.descend with
  | hstep root ih =>
      rw [h.preorder_eq, hlater.preorder_eq]
      apply List.Sublist.cons_cons
      have hbelow : ((doc.children root).flatMap doc.preorder).Sublist
          ((doc.children root).flatMap later.preorder) := List.Sublist.flatMap_right _ ih
      exact hbelow.trans ((hchildren root).sublist.flatMap _)

/-- What can be read of a document and is still so in a later one. -/
structure Retains (doc later : Document) : Prop where
  contains : ∀ id, doc.contains id = true → later.contains id = true
  text : ∀ id words, doc.text id = .ok words → later.text id = .ok words
  element : ∀ id held, doc.element id = .ok held → ∃ now, later.element id = .ok now ∧
    now.typeName = held.typeName ∧ ∀ name, held.hasClass name = true → now.hasClass name = true
  parent : ∀ id above, doc.parent id = some above → later.parent id = some above
  children : ∀ id, doc.children id <+: later.children id
  /-- All that was on a walk still is, in the same order. -/
  descendants : ∀ root,
    (doc.inclusiveDescendants root).Sublist (later.inclusiveDescendants root)

/-- Whatever calls are made later, failing ones among them, every node keeps its kind,
its type or text, its classes, its parent, its children as the first ones, and its
place below all that it was below. -/
theorem run_retains (number : Nat) (calls later : List Call) :
    let doc := (Document.empty number).run calls
    doc.Retains (doc.run later) := by
  intro doc
  have hforest : doc.Forest := (Forest.empty number).run calls
  have hlater : (doc.run later).Forest := hforest.run later
  have hgrows : doc.GrowsTo (doc.run later) := .of_run doc later
  constructor
  case contains => exact fun _ => hgrows.contains
  case text => exact fun _ _ => hgrows.text
  case element =>
    intro id held helement
    obtain ⟨now, hnow, hheld⟩ := hgrows.element? ((element_eq_ok_iff doc id held).mp helement)
    exact ⟨now, (element_eq_ok_iff _ id now).mpr hnow, hheld.typeName, hheld.classes⟩
  case parent => exact fun _ _ => hgrows.parent
  case children => exact hgrows.children
  case descendants =>
    intro root
    by_cases hroot : doc.contains root = true
    · rw [hforest.inclusiveDescendants_eq hroot,
        hlater.inclusiveDescendants_eq (hgrows.contains hroot)]
      exact hforest.preorder_sublist hlater hgrows.children root
    · rw [inclusiveDescendants_of_not_contains hroot]
      exact List.nil_sublist _

end Document

end StyledTree
