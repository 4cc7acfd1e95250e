import StyledTree.Element

/-!
# Documents

A document owns nodes and hands out a handle for each. The tree is kept in the
nodes themselves: an element lists the nodes below it, and a node knows the
element above it. Nodes are made without a place in the tree and are never
removed.
-/

namespace StyledTree

/-- What a node is: an element, or text that does not change. -/
inductive Content where
  | element (element : Element)
  | text (text : String)
deriving Repr, DecidableEq

/-- A node, with the element above it if it has a place in the tree. -/
structure Node where
  parent : Option NodeId := none
  content : Content
deriving Repr, DecidableEq

namespace Node

def element? (node : Node) : Option Element :=
  match node.content with
  | .element element => some element
  | .text _ => none

def text? (node : Node) : Option String :=
  match node.content with
  | .element _ => none
  | .text text => some text

def mapElement (f : Element → Element) (node : Node) : Node :=
  match node.content with
  | .element element => { node with content := .element (f element) }
  | .text _ => node

end Node

/-- A document: its number, which no other document has, and its nodes in the
order in which they were made. -/
structure Document where
  number : Nat
  nodes : Array Node := #[]
deriving Repr, DecidableEq

namespace Document

def empty (number : Nat) : Document := { number }

def size (doc : Document) : Nat := doc.nodes.size

def isEmpty (doc : Document) : Bool := doc.size == 0

def ids (doc : Document) : List NodeId := (List.range doc.size).map (NodeId.mk doc.number)

def contains (doc : Document) (id : NodeId) : Bool :=
  id.document == doc.number && decide (id.index < doc.size)

def node? (doc : Document) (id : NodeId) : Option Node :=
  if id.document = doc.number then doc.nodes[id.index]? else none

/-- The node of this handle; a handle from elsewhere is a fault. -/
def node (doc : Document) (id : NodeId) : Except Fault Node :=
  match doc.node? id with
  | some node => .ok node
  | none => .error (.foreignNode id)

def element (doc : Document) (id : NodeId) : Except Fault Element := do
  let node ← doc.node id
  match node.element? with
  | some element => .ok element
  | none => .error (.notAnElement id)

def text (doc : Document) (id : NodeId) : Except Fault String := do
  let node ← doc.node id
  match node.text? with
  | some text => .ok text
  | none => .error (.notAText id)

def element? (doc : Document) (id : NodeId) : Option Element :=
  (doc.node? id).bind Node.element?

def isElement (doc : Document) (id : NodeId) : Bool := (doc.element? id).isSome

def parent (doc : Document) (id : NodeId) : Option NodeId := (doc.node? id).bind Node.parent

def children (doc : Document) (id : NodeId) : List NodeId :=
  ((doc.element? id).map Element.children).getD []

def addNode (doc : Document) (content : Content) : NodeId × Document :=
  (⟨doc.number, doc.size⟩, { doc with nodes := doc.nodes.push { content } })

/-- Changes the node of this handle; a handle from elsewhere changes nothing. -/
def modifyNode (doc : Document) (id : NodeId) (f : Node → Node) : Document :=
  if id.document = doc.number then { doc with nodes := doc.nodes.modify id.index f } else doc

/-- Takes an element into the document. It comes without the nodes below it,
which belong to the place it was taken from. -/
def adopt (doc : Document) (element : Element) : NodeId × Document :=
  doc.addNode (.element { element with children := [] })

def createText (doc : Document) (text : String) : NodeId × Document :=
  doc.addNode (.text text)

/-! ## Operations that may be refused -/

/-- An operation on a document. It may be refused, and leaves a document behind
in either case. -/
abbrev Operation (α : Type) := EStateM Fault Document α

/-- What an operation gives back and what it makes of the document, or why it is
refused. -/
def perform {α : Type} (doc : Document) (operation : Operation α) :
    Except Fault (α × Document) :=
  match operation.run doc with
  | .ok result changed => .ok (result, changed)
  | .error fault _ => .error fault

/-- The document that an operation leaves behind, refused or not. -/
def after {α : Type} (doc : Document) (operation : Operation α) : Document :=
  match operation.run doc with
  | .ok _ changed => changed
  | .error _ left => left

namespace Operation

def createElement (typeName : String) : Operation NodeId := do
  let element ← ofExcept (Element.create typeName)
  modifyGet (·.adopt element)

/-- Gives the element of this handle to `f` and stores what `f` makes of it. -/
def updateElement {α : Type} (id : NodeId) (f : Element → α × Element) : Operation α := do
  let element ← ofExcept ((← get).element id)
  let (result, changed) := f element
  modify (·.modifyNode id fun node => { node with content := .element changed })
  return result

end Operation

def createElement (doc : Document) (typeName : String) : Except Fault (NodeId × Document) :=
  doc.perform (.createElement typeName)

def updateElement {α : Type} (doc : Document) (id : NodeId) (f : Element → α × Element) :
    Except Fault (α × Document) :=
  doc.perform (.updateElement id f)

/-! ## What the operations do to the nodes -/

theorem contains_iff (doc : Document) (id : NodeId) :
    doc.contains id = true ↔ id.document = doc.number ∧ id.index < doc.size := by
  simp [contains]

theorem node?_isSome_iff (doc : Document) (id : NodeId) :
    (doc.node? id).isSome = true ↔ doc.contains id = true := by
  rw [contains_iff, node?]
  by_cases h : id.document = doc.number <;> simp [h, size]

theorem node?_addNode (doc : Document) (content : Content) (id : NodeId) :
    (doc.addNode content).2.node? id =
      if id = (doc.addNode content).1 then some { content } else doc.node? id := by
  obtain ⟨number, index⟩ := id
  by_cases hnumber : number = doc.number
  · by_cases hindex : index = doc.size
    · simp [addNode, node?, size, hnumber, hindex]
    · simp only [size] at hindex
      simp [addNode, node?, size, hnumber, hindex, Array.getElem?_push]
  · simp [addNode, node?, hnumber]

@[simp] theorem number_modifyNode (doc : Document) (id : NodeId) (f : Node → Node) :
    (doc.modifyNode id f).number = doc.number := by
  unfold modifyNode
  split <;> rfl

@[simp] theorem size_modifyNode (doc : Document) (id : NodeId) (f : Node → Node) :
    (doc.modifyNode id f).size = doc.size := by
  unfold modifyNode
  split <;> simp [size]

theorem node?_modifyNode (doc : Document) (id other : NodeId) (f : Node → Node) :
    (doc.modifyNode id f).node? other =
      if other = id then (doc.node? other).map f else doc.node? other := by
  obtain ⟨number, index⟩ := id
  obtain ⟨number', index'⟩ := other
  unfold modifyNode
  by_cases hnumber : number = doc.number
  · by_cases hother : number' = doc.number
    · by_cases hindex : index' = index
      · simp [node?, hnumber, hother, hindex, Array.getElem?_modify]
      · have : index ≠ index' := fun h => hindex h.symm
        simp [node?, hnumber, hother, hindex, Array.getElem?_modify, this]
    · simp [node?, hnumber, hother]
  · by_cases hsame : number' = number
    · simp [node?, hnumber, hsame]
    · simp [node?, hnumber, hsame]

end Document

end StyledTree
