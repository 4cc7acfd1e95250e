import StyledTree.Document.Build

/-!
# What changes to a document do to its links

Parents and children of every node after each of the changes that operations are
made of: adding a node, changing the element in one, and linking nodes below an
element.
-/

namespace StyledTree

/-- What a node holds besides the nodes below it. -/
def Content.unlinked : Content → Content
  | .element held => .element { held with children := [] }
  | .text words => .text words

namespace Node

@[simp] theorem parent_mapElement (f : Element → Element) (node : Node) :
    (node.mapElement f).parent = node.parent := by
  unfold mapElement
  split <;> rfl

@[simp] theorem element?_mapElement (f : Element → Element) (node : Node) :
    (node.mapElement f).element? = node.element?.map f := by
  obtain ⟨parent, content⟩ := node
  cases content <;> rfl

theorem unlinked_mapElement {f : Element → Element} (node : Node)
    (hf : ∀ element : Element,
      { f element with children := [] } = { element with children := [] }) :
    (node.mapElement f).content.unlinked = node.content.unlinked := by
  obtain ⟨parent, content⟩ := node
  cases content with
  | element element => exact congrArg Content.element (hf element)
  | text text => rfl

end Node

namespace Document

/-! ## Reading links -/

theorem contains_iff_node? (doc : Document) (id : NodeId) :
    doc.contains id = true ↔ ∃ node, doc.node? id = some node := by
  rw [← node?_isSome_iff, Option.isSome_iff_exists]

theorem mem_ids_iff (doc : Document) (id : NodeId) :
    id ∈ doc.ids ↔ doc.contains id = true := by
  rw [ids, List.mem_map, contains_iff]
  constructor
  · rintro ⟨index, hindex, rfl⟩
    exact ⟨rfl, List.mem_range.mp hindex⟩
  · rintro ⟨hnumber, hindex⟩
    exact ⟨id.index, List.mem_range.mpr hindex, by rw [← hnumber]⟩

theorem node?_eq_none_of_not_contains {doc : Document} {id : NodeId}
    (h : ¬doc.contains id = true) : doc.node? id = none := by
  rw [← node?_isSome_iff, Option.not_isSome_iff_eq_none] at h
  exact h

theorem contains_of_parent {doc : Document} {id above : NodeId}
    (h : doc.parent id = some above) : doc.contains id = true := by
  obtain ⟨node, hnode, -⟩ := Option.bind_eq_some_iff.mp h
  exact (contains_iff_node? doc id).mpr ⟨node, hnode⟩

theorem isElement_iff (doc : Document) (id : NodeId) :
    doc.isElement id = true ↔ ∃ element, doc.element? id = some element :=
  Option.isSome_iff_exists

theorem parent_eq_none_of_not_contains {doc : Document} {id : NodeId}
    (h : ¬doc.contains id = true) : doc.parent id = none := by
  rw [parent, node?_eq_none_of_not_contains h, Option.bind_none]

theorem element?_eq_none_of_not_contains {doc : Document} {id : NodeId}
    (h : ¬doc.contains id = true) : doc.element? id = none := by
  rw [element?, node?_eq_none_of_not_contains h, Option.bind_none]

theorem contains_of_isElement {doc : Document} {id : NodeId} (h : doc.isElement id = true) :
    doc.contains id = true := by
  obtain ⟨element, helement⟩ := (isElement_iff doc id).mp h
  obtain ⟨node, hnode, -⟩ := Option.bind_eq_some_iff.mp helement
  exact (contains_iff_node? doc id).mpr ⟨node, hnode⟩

theorem children_of_element? {doc : Document} {id : NodeId} {element : Element}
    (h : doc.element? id = some element) : doc.children id = element.children := by
  simp [children, h]

theorem isElement_of_mem_children {doc : Document} {id child : NodeId}
    (h : child ∈ doc.children id) : doc.isElement id = true := by
  unfold isElement
  cases helement : doc.element? id with
  | none => simp [children, helement] at h
  | some element => rfl

theorem children_of_not_isElement {doc : Document} {id : NodeId}
    (h : ¬doc.isElement id = true) : doc.children id = [] := by
  rw [List.eq_nil_iff_forall_not_mem]
  exact fun child hchild => h (isElement_of_mem_children hchild)

theorem element_eq (doc : Document) (id : NodeId) :
    doc.element id =
      match doc.element? id with
      | some element => .ok element
      | none => .error (if doc.contains id then .notAnElement id else .foreignNode id) := by
  by_cases hcontains : doc.contains id = true
  · obtain ⟨node, hnode⟩ := (contains_iff_node? doc id).mp hcontains
    have hread : doc.node id = .ok node := by simp [Document.node, hnode]
    have helement? : doc.element? id = node.element? := by simp [element?, hnode]
    rw [element, hread, helement?, if_pos hcontains]
    cases helement : node.element? with
    | none => simp [bind, Except.bind, helement]
    | some value => simp [bind, Except.bind, helement]
  · have hnode := node?_eq_none_of_not_contains hcontains
    have hread : doc.node id = .error (.foreignNode id) := by simp [Document.node, hnode]
    rw [element, hread, element?_eq_none_of_not_contains hcontains, if_neg hcontains]
    rfl

theorem element_eq_ok_iff (doc : Document) (id : NodeId) (element : Element) :
    doc.element id = .ok element ↔ doc.element? id = some element := by
  rw [element_eq]
  cases doc.element? id with
  | none => simp
  | some held => simp

theorem text_eq_ok_iff (doc : Document) (id : NodeId) (words : String) :
    doc.text id = .ok words ↔ (doc.node? id).map Node.content = some (.text words) := by
  unfold text node
  cases doc.node? id with
  | none => exact ⟨fun h => (by cases h), fun h => (by cases h)⟩
  | some node =>
      obtain ⟨parent, content⟩ := node
      cases content with
      | element element => exact ⟨fun h => (by cases h), fun h => (by cases h)⟩
      | text held =>
          show Except.ok held = Except.ok words ↔ some (Content.text held) = some (.text words)
          simp

theorem contains_of_text {doc : Document} {id : NodeId} {words : String}
    (htext : doc.text id = .ok words) : doc.contains id = true := by
  obtain ⟨node, hnode, -⟩ := Option.map_eq_some_iff.mp ((text_eq_ok_iff doc id words).mp htext)
  exact (contains_iff_node? doc id).mpr ⟨node, hnode⟩

theorem not_isElement_of_text {doc : Document} {id : NodeId} {words : String}
    (htext : doc.text id = .ok words) : ¬doc.isElement id = true := by
  obtain ⟨⟨parent, content⟩, hnode, hheld⟩ :=
    Option.map_eq_some_iff.mp ((text_eq_ok_iff doc id words).mp htext)
  obtain rfl : content = .text words := hheld
  rw [isElement, element?, hnode]
  exact Bool.false_ne_true

theorem exists_text {doc : Document} {id : NodeId} (hid : doc.contains id = true)
    (helement : ¬doc.isElement id = true) : ∃ words, doc.text id = .ok words := by
  obtain ⟨⟨parent, content⟩, hnode⟩ := (contains_iff_node? doc id).mp hid
  cases content with
  | element element =>
      refine absurd ((isElement_iff doc id).mpr ⟨element, ?_⟩) helement
      rw [element?, hnode]
      rfl
  | text words => exact ⟨words, (text_eq_ok_iff doc id words).mpr (by rw [hnode]; rfl)⟩

/-! ## Adding a node -/

theorem not_contains_addNode (doc : Document) (content : Content) :
    ¬doc.contains (doc.addNode content).1 = true := by
  rw [contains_iff]
  exact fun h => Nat.lt_irrefl _ h.2

theorem contains_addNode (doc : Document) (content : Content) (id : NodeId) :
    (doc.addNode content).2.contains id = true ↔
      id = (doc.addNode content).1 ∨ doc.contains id = true := by
  rw [contains_iff_node?, contains_iff_node?, node?_addNode]
  by_cases h : id = (doc.addNode content).1 <;> simp [h]

theorem parent_addNode (doc : Document) (content : Content) (id : NodeId) :
    (doc.addNode content).2.parent id = doc.parent id := by
  unfold parent
  rw [node?_addNode]
  by_cases h : id = (doc.addNode content).1
  · rw [if_pos h, h, node?_eq_none_of_not_contains (not_contains_addNode doc content)]
    rfl
  · rw [if_neg h]

theorem element?_addNode (doc : Document) (content : Content) (id : NodeId) :
    (doc.addNode content).2.element? id =
      if id = (doc.addNode content).1 then ({ content } : Node).element? else doc.element? id := by
  unfold element?
  rw [node?_addNode]
  split <;> rfl

theorem element?_addNode_self (doc : Document) (content : Content) :
    (doc.addNode content).2.element? (doc.addNode content).1 = ({ content } : Node).element? := by
  rw [element?_addNode, if_pos rfl]

theorem element?_addNode_of_contains {doc : Document} {id : NodeId}
    (h : doc.contains id = true) (content : Content) :
    (doc.addNode content).2.element? id = doc.element? id := by
  have hne : id ≠ (doc.addNode content).1 := fun heq => not_contains_addNode doc content (heq ▸ h)
  rw [element?_addNode, if_neg hne]

theorem children_addNode (doc : Document) {content : Content}
    (hbare : content.unlinked = content) (id : NodeId) :
    (doc.addNode content).2.children id = doc.children id := by
  unfold children
  rw [element?_addNode]
  by_cases h : id = (doc.addNode content).1
  · have hnone : doc.element? id = none := by
      rw [h]
      exact element?_eq_none_of_not_contains (not_contains_addNode doc content)
    rw [if_pos h, hnone]
    cases content with
    | element element =>
        have hempty : element.children = [] := by
          have hsame : { element with children := [] } = element := Content.element.inj hbare
          rw [← hsame]
        simp [Node.element?, hempty]
    | text text => rfl
  · rw [if_neg h]

/-! ## Changing an element -/

theorem contains_modifyNode (doc : Document) (id : NodeId) (f : Node → Node) (other : NodeId) :
    (doc.modifyNode id f).contains other = doc.contains other := by
  simp [contains]

theorem parent_modifyNode {doc : Document} {id : NodeId} {f : Node → Node}
    (hf : ∀ node, (f node).parent = node.parent) (other : NodeId) :
    (doc.modifyNode id f).parent other = doc.parent other := by
  unfold parent
  rw [node?_modifyNode]
  by_cases h : other = id
  · rw [if_pos h]
    cases doc.node? other with
    | none => rfl
    | some node => exact hf node
  · rw [if_neg h]

theorem element?_modifyNode_mapElement (doc : Document) (id : NodeId) (f : Element → Element)
    (other : NodeId) :
    (doc.modifyNode id (Node.mapElement f)).element? other =
      if other = id then (doc.element? other).map f else doc.element? other := by
  unfold element?
  rw [node?_modifyNode]
  by_cases h : other = id
  · rw [if_pos h, if_pos h]
    cases doc.node? other with
    | none => rfl
    | some node => exact Node.element?_mapElement f node
  · rw [if_neg h, if_neg h]

theorem children_modifyNode_mapElement {doc : Document} {id : NodeId} {f : Element → Element}
    (hf : ∀ element, (f element).children = element.children) (other : NodeId) :
    (doc.modifyNode id (Node.mapElement f)).children other = doc.children other := by
  unfold children
  rw [element?_modifyNode_mapElement]
  by_cases h : other = id
  · rw [if_pos h]
    cases doc.element? other with
    | none => rfl
    | some element => exact hf element
  · rw [if_neg h]

theorem modifyNode_congr {doc : Document} {id : NodeId} {f g : Node → Node}
    (h : ∀ node, doc.node? id = some node → f node = g node) :
    doc.modifyNode id f = doc.modifyNode id g := by
  unfold modifyNode
  by_cases hnumber : id.document = doc.number
  · rw [if_pos hnumber, if_pos hnumber]
    congr 1
    apply Array.ext_getElem?
    intro i
    rw [Array.getElem?_modify, Array.getElem?_modify]
    by_cases hi : id.index = i
    · rw [if_pos hi, if_pos hi]
      cases hnode : doc.nodes[i]? with
      | none => rfl
      | some node =>
          have hread : doc.node? id = some node := by rw [node?, if_pos hnumber, hi, hnode]
          exact congrArg some (h node hread)
    · rw [if_neg hi, if_neg hi]
  · rw [if_neg hnumber, if_neg hnumber]

theorem modifyNode_congr_element {doc : Document} {id : NodeId} {element : Element}
    (helement : doc.element id = .ok element) {f g : Node → Node}
    (h : ∀ parent, f ⟨parent, .element element⟩ = g ⟨parent, .element element⟩) :
    doc.modifyNode id f = doc.modifyNode id g := by
  apply modifyNode_congr
  intro node hnode
  have helement? := (element_eq_ok_iff doc id element).mp helement
  rw [element?, hnode, Option.bind_some] at helement?
  obtain ⟨parent, content⟩ := node
  cases content with
  | element held =>
      cases helement?
      exact h parent
  | text words => cases helement?

theorem createElement_eq (doc : Document) (typeName : String) :
    doc.createElement typeName = (Element.create typeName).map doc.adopt := by
  rw [createElement, perform, Operation.createElement]
  cases Element.create typeName <;> rfl

theorem createElementWith_eq (doc : Document) (typeName : String)
    (id classAttribute : Option String) :
    doc.createElementWith typeName id classAttribute =
      (Element.create typeName).map fun element =>
        doc.adopt (element.withAttributes id classAttribute) := by
  rw [createElementWith, perform, Operation.createElementWith]
  cases Element.create typeName <;> rfl

theorem Operation.run_updateElement {α : Type} (doc : Document) (id : NodeId)
    (f : Element → α × Element) :
    (updateElement id f).run doc =
      match doc.element id with
      | .error fault => .error fault doc
      | .ok element =>
          .ok (f element).1 (doc.modifyNode id (Node.mapElement fun element => (f element).2)) := by
  rw [updateElement]
  simp only [EStateM.run_bind, EStateM.run_get]
  cases helement : doc.element id with
  | error fault => rfl
  | ok element =>
      have hsame : (doc.modifyNode id fun node => { node with content := .element (f element).2 }) =
          doc.modifyNode id (Node.mapElement fun element => (f element).2) :=
        modifyNode_congr_element helement fun _ => rfl
      exact congrArg (EStateM.Result.ok (f element).1) hsame

theorem updateElement_eq {α : Type} (doc : Document) (id : NodeId) (f : Element → α × Element) :
    doc.updateElement id f =
      (doc.element id).map fun element =>
        ((f element).1, doc.modifyNode id (Node.mapElement fun element => (f element).2)) := by
  rw [updateElement, perform, Operation.run_updateElement]
  cases doc.element id <;> rfl

/-! ## Linking nodes below an element -/

theorem node?_foldl_modifyNode (doc : Document) (parent : NodeId) (children : List NodeId)
    (id : NodeId) :
    (children.foldl
        (fun doc child => doc.modifyNode child fun node => { node with parent := some parent })
        doc).node? id =
      (doc.node? id).map fun node =>
        if id ∈ children then { node with parent := some parent } else node := by
  induction children generalizing doc with
  | nil => simp
  | cons child later ih =>
      rw [List.foldl_cons, ih, node?_modifyNode]
      by_cases hchild : id = child
      · rw [if_pos hchild, Option.map_map]
        congr 1
        funext node
        by_cases hlater : id ∈ later <;> simp [hchild]
      · simp [hchild]

theorem number_foldl_modifyNode (doc : Document) (f : Node → Node) (ids : List NodeId) :
    (ids.foldl (fun doc id => doc.modifyNode id f) doc).number = doc.number := by
  induction ids generalizing doc with
  | nil => rfl
  | cons id later ih => rw [List.foldl_cons, ih, number_modifyNode]

theorem size_foldl_modifyNode (doc : Document) (f : Node → Node) (ids : List NodeId) :
    (ids.foldl (fun doc id => doc.modifyNode id f) doc).size = doc.size := by
  induction ids generalizing doc with
  | nil => rfl
  | cons id later ih => rw [List.foldl_cons, ih, size_modifyNode]

@[simp] theorem number_link (doc : Document) (parent : NodeId) (children : List NodeId) :
    (doc.link parent children).number = doc.number := by
  rw [link, number_modifyNode, number_foldl_modifyNode]

@[simp] theorem size_link (doc : Document) (parent : NodeId) (children : List NodeId) :
    (doc.link parent children).size = doc.size := by
  rw [link, size_modifyNode, size_foldl_modifyNode]

theorem contains_link (doc : Document) (parent : NodeId) (children : List NodeId) (id : NodeId) :
    (doc.link parent children).contains id = doc.contains id := by
  simp [contains]

theorem node?_link (doc : Document) (parent : NodeId) (children : List NodeId) (id : NodeId) :
    (doc.link parent children).node? id =
      (doc.node? id).map fun node =>
        let placed := if id ∈ children then { node with parent := some parent } else node
        if id = parent then
          placed.mapElement fun element => { element with children := element.children ++ children }
        else placed := by
  rw [link, node?_modifyNode, node?_foldl_modifyNode]
  by_cases hparent : id = parent
  · simp only [if_pos hparent, Option.map_map]
    rfl
  · simp only [if_neg hparent]

theorem parent_link {doc : Document} {children : List NodeId}
    (howned : ∀ child ∈ children, doc.contains child = true) (parent id : NodeId) :
    (doc.link parent children).parent id =
      if id ∈ children then some parent else doc.parent id := by
  have hread : (doc.link parent children).parent id =
      (doc.node? id).bind fun node => if id ∈ children then some parent else node.parent := by
    unfold Document.parent
    rw [node?_link, Option.bind_map]
    congr 1
    funext node
    have hplaced : (if id ∈ children then { node with parent := some parent } else node).parent =
        if id ∈ children then some parent else node.parent := by
      split <;> rfl
    by_cases hid : id = parent
    · simp only [Function.comp_apply, if_pos hid, Node.parent_mapElement, hplaced]
    · simp only [Function.comp_apply, if_neg hid, hplaced]
  rw [hread]
  by_cases hmem : id ∈ children
  · obtain ⟨node, hnode⟩ := (contains_iff_node? doc id).mp (howned id hmem)
    simp only [if_pos hmem, hnode, Option.bind_some]
  · simp only [if_neg hmem]
    rfl

theorem element?_link (doc : Document) (parent : NodeId) (children : List NodeId) (id : NodeId) :
    (doc.link parent children).element? id =
      (doc.element? id).map fun element =>
        if id = parent then { element with children := element.children ++ children }
        else element := by
  unfold element?
  rw [node?_link]
  cases doc.node? id with
  | none => rfl
  | some node =>
      have hplaced : (if id ∈ children then { node with parent := some parent } else node).element? =
          node.element? := by
        by_cases hmem : id ∈ children
        · rw [if_pos hmem]
          rfl
        · rw [if_neg hmem]
      by_cases hparent : id = parent
      · simp [hparent, ← hplaced]
      · simp [hparent, hplaced]

theorem children_link {doc : Document} {parent : NodeId} (hparent : doc.isElement parent = true)
    (children : List NodeId) (id : NodeId) :
    (doc.link parent children).children id =
      if id = parent then doc.children parent ++ children else doc.children id := by
  unfold Document.children
  rw [element?_link]
  by_cases hid : id = parent
  · obtain ⟨element, helement⟩ := (isElement_iff doc parent).mp hparent
    rw [hid, helement]
    simp
  · cases doc.element? id with
    | none => simp [hid]
    | some element => simp [hid]

theorem unlinked_link (doc : Document) (parent : NodeId) (children : List NodeId) (id : NodeId) :
    ((doc.link parent children).node? id).map (fun node => node.content.unlinked) =
      (doc.node? id).map fun node => node.content.unlinked := by
  rw [node?_link, Option.map_map]
  congr 1
  funext node
  have hplaced : (if id ∈ children then { node with parent := some parent } else node).content =
      node.content := by
    split <;> rfl
  by_cases hid : id = parent
  · simp only [Function.comp_apply, if_pos hid]
    rw [Node.unlinked_mapElement, hplaced]
    exact fun element => rfl
  · simp only [Function.comp_apply, if_neg hid, hplaced]

end Document

end StyledTree
