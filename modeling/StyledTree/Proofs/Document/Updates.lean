import Mathlib.Data.List.Nodup
import StyledTree.Proofs.Document.Forest

/-!
# What updates do to links

An update hands out the element of a node and stores what comes back, with the children
that it lists. No parent changes with it, and no other element, so the links still agree
exactly if the children are the same up to their order. The edits that elements offer
never change them; an element that is put in the place of another one brings its own.
-/

namespace StyledTree

namespace Element

/-- A change that is made to an element in its place. -/
inductive Edit where
  | setId (id : String)
  | clearId
  | addClass (name : String)
deriving Repr, DecidableEq

def Edit.applyTo (element : Element) : Edit → Element
  | setId id => element.setId id
  | clearId => element.clearId
  | addClass name => (element.addClass name).2

def edit (element : Element) (edits : List Edit) : Element := edits.foldl Edit.applyTo element

theorem children_edit (element : Element) (edits : List Edit) :
    (element.edit edits).children = element.children := by
  induction edits generalizing element with
  | nil => rfl
  | cons first later ih =>
      have hfirst : (first.applyTo element).children = element.children := by cases first <;> rfl
      exact (ih (first.applyTo element)).trans hfirst

end Element

namespace Document

/-- The document with this element in a node that held another one. -/
def replaceElement (doc : Document) (id : NodeId) (element : Element) : Document :=
  doc.modifyNode id (Node.mapElement fun _ => element)

variable {doc : Document} {id : NodeId} {element : Element}

/-! ## Replaced elements -/

theorem parent_replaceElement (doc : Document) (id : NodeId) (element : Element) (node : NodeId) :
    (doc.replaceElement id element).parent node = doc.parent node :=
  parent_modifyNode (Node.parent_mapElement _) node

theorem children_replaceElement (hid : doc.isElement id = true) (element : Element)
    (node : NodeId) :
    (doc.replaceElement id element).children node =
      if node = id then element.children else doc.children node := by
  unfold children
  rw [replaceElement, element?_modifyNode_mapElement]
  by_cases hnode : node = id
  · obtain ⟨held, hheld⟩ := (isElement_iff doc id).mp hid
    rw [if_pos hnode, if_pos hnode, hnode, hheld]
    rfl
  · rw [if_neg hnode, if_neg hnode]

theorem updateElement_eq_ok {α : Type} (helement : doc.element id = .ok element)
    (f : Element → α × Element) :
    doc.updateElement id f = .ok ((f element).1, doc.replaceElement id (f element).2) := by
  have hsame : doc.modifyNode id (Node.mapElement fun held => (f held).2) =
      doc.replaceElement id (f element).2 :=
    modifyNode_congr_element helement fun _ => rfl
  rw [updateElement_eq, helement, ← hsame]
  rfl

namespace Forest

theorem replaceElement_iff (h : doc.Forest) (hid : doc.isElement id = true) (element : Element) :
    (doc.replaceElement id element).Forest ↔ element.children.Perm (doc.children id) := by
  have hchildren := children_replaceElement hid element
  have hparent := parent_replaceElement doc id element
  constructor
  · intro hreplaced
    have hlisted : (doc.replaceElement id element).children id = element.children := by
      rw [hchildren, if_pos rfl]
    have hdistinct := hreplaced.distinct id
    rw [hlisted] at hdistinct
    refine (List.perm_ext_iff_of_nodup hdistinct (h.distinct id)).mpr fun child => ?_
    rw [← hlisted, hreplaced.linked, hparent, h.linked]
  · intro hperm
    refine h.of_perm (contains_modifyNode doc id _) hparent fun node => ?_
    rw [hchildren]
    split
    case isTrue hnode =>
      rw [hnode]
      exact hperm
    case isFalse => exact .refl _

theorem replaceElement_iff_of_disjoint (h : doc.Forest) (hid : doc.isElement id = true)
    (hother : element.children.Disjoint (doc.children id)) :
    (doc.replaceElement id element).Forest ↔ element.children = [] ∧ doc.children id = [] := by
  rw [h.replaceElement_iff hid]
  constructor
  · intro hperm
    have hnone : element.children = [] := by
      refine List.eq_nil_iff_forall_not_mem.mpr fun child hchild => ?_
      exact hother hchild (hperm.mem_iff.mp hchild)
    rw [hnone] at hperm
    exact ⟨hnone, hperm.nil_eq.symm⟩
  · rintro ⟨hnone, hleaf⟩
    rw [hnone, hleaf]

end Forest

/-! ## Updates -/

/-- An update succeeds on each element, and stores what comes back as it is. The parents
remain what they were, and the links agree afterwards exactly if the children are the same
up to their order, as they are after edits. If the element of another node comes back, or
one with children of another document, the links agree only if there were no children and
none came. -/
theorem run_updateElement (number : Nat) (calls : List Call) (id : NodeId) (element : Element)
    (helement : ((Document.empty number).run calls).element id = .ok element) :
    let doc := (Document.empty number).run calls
    ∀ (α : Type) (f : Element → α × Element),
      ∃ changed, doc.updateElement id f = .ok ((f element).1, changed) ∧
        (∀ node, changed.parent node = doc.parent node) ∧
        (∀ node, changed.children node =
          if node = id then (f element).2.children else doc.children node) ∧
        (changed.Forest ↔ (f element).2.children.Perm element.children) ∧
        (∀ edits, (f element).2 = element.edit edits →
          changed.Forest ∧ ∀ node, changed.children node = doc.children node) ∧
        (∀ source, source ≠ id → doc.element source = .ok (f element).2 →
          (changed.Forest ↔ (f element).2.children = [] ∧ element.children = [])) ∧
        ((∀ child ∈ (f element).2.children, child.document ≠ number) →
          (changed.Forest ↔ (f element).2.children = [] ∧ element.children = [])) := by
  intro doc α f
  have hforest : doc.Forest := (Forest.empty number).run calls
  have helement? := (element_eq_ok_iff doc id element).mp helement
  have hid : doc.isElement id = true := (isElement_iff doc id).mpr ⟨element, helement?⟩
  have hheld : doc.children id = element.children := children_of_element? helement?
  have hchildren := children_replaceElement hid (f element).2
  have hiff := hforest.replaceElement_iff hid (f element).2
  rw [hheld] at hiff
  refine ⟨_, updateElement_eq_ok helement f, parent_replaceElement doc id _, hchildren, hiff,
    ?_, ?_, ?_⟩
  · intro edits hedits
    have hsame : (f element).2.children = element.children := by
      rw [hedits, Element.children_edit]
    refine ⟨hiff.mpr (hsame ▸ .refl _), fun node => ?_⟩
    rw [hchildren, hsame, ← hheld]
    split
    case isTrue hnode => rw [hnode]
    case isFalse => rfl
  · intro source hsource hclone
    have hlisted : doc.children source = (f element).2.children :=
      children_of_element? ((element_eq_ok_iff doc source _).mp hclone)
    have hother : (f element).2.children.Disjoint (doc.children id) := by
      intro child hchild hchild'
      rw [← hlisted] at hchild
      have hparent := (hforest.linked source child).mp hchild
      rw [(hforest.linked id child).mp hchild'] at hparent
      exact hsource (Option.some.inj hparent).symm
    rw [hforest.replaceElement_iff_of_disjoint hid hother, hheld]
  · intro hforeign
    have hother : (f element).2.children.Disjoint (doc.children id) := by
      intro child hchild hchild'
      have howned := (contains_iff doc child).mp (hforest.contains_of_mem_children hchild')
      exact hforeign child hchild (howned.1.trans (number_run _ _))
    rw [hforest.replaceElement_iff_of_disjoint hid hother, hheld]

/-- A panel in a panel that gets a copy of the outer one in its place is below itself. -/
theorem run_updateElement_panel :
    let doc := (Document.empty 0).run [.createDiv none none, .createDiv none none,
      .add ⟨0, 0⟩ [⟨0, 1⟩]]
    let inner : NodeId := ⟨0, 1⟩
    ∃ outer changed, doc.element ⟨0, 0⟩ = .ok outer ∧
      doc.updateElement inner (fun _ => ((), outer)) = .ok ((), changed) ∧
      changed.children inner = [inner] ∧ changed.parent inner = some ⟨0, 0⟩ ∧
      ¬changed.Forest := by
  intro doc inner
  let outer : Element := { typeName := "div", children := [inner] }
  have houter : doc.element ⟨0, 0⟩ = .ok outer := by decide
  obtain ⟨changed, hupdate, hparent, hchildren, -, -, hclone, -⟩ :=
    run_updateElement 0 [.createDiv none none, .createDiv none none, .add ⟨0, 0⟩ [⟨0, 1⟩]] inner
      { typeName := "div" } (by decide) Unit fun _ => ((), outer)
  refine ⟨outer, changed, houter, hupdate, hchildren inner, (hparent inner).trans (by decide), ?_⟩
  rw [hclone ⟨0, 0⟩ (by decide) houter]
  exact fun hnone => List.cons_ne_nil _ _ hnone.1

end Document

end StyledTree
