import StyledTree.Document.Basic

/-!
# Building trees

`Document.add` gives nodes their place in the tree. It looks at all of them
before it changes anything, so it either attaches every node or none. A node
gets its place once; there is no way to take it away again.
-/

namespace StyledTree

namespace Document

/-- A node and those above it, as far as `fuel` goes. -/
def lineage (doc : Document) : Nat → NodeId → List NodeId
  | 0, _ => []
  | fuel + 1, id =>
      id :: match doc.parent id with
        | none => []
        | some above => doc.lineage fuel above

/-- A node, the element above it and so on up to the one that stands alone. A
document has no longer way up than it has nodes. -/
def inclusiveAncestors (doc : Document) (id : NodeId) : List NodeId :=
  if doc.contains id then doc.lineage doc.size id else []

/-- What keeps `child` from being attached below `parent`, where `lineage` holds
`parent` and all above it and `earlier` the nodes listed before `child`. -/
def obstacle? (doc : Document) (parent : NodeId) (lineage earlier : List NodeId)
    (child : NodeId) : Option Fault :=
  match doc.node? child with
  | none => some (.foreignNode child)
  | some node =>
      if node.parent.isSome then some (.alreadyAttached child)
      else if earlier.contains child then some (.listedTwice child)
      else if lineage.contains child then some (.wouldCycle child parent)
      else none

/-- Links nodes below an element, after those that are there already. -/
def link (doc : Document) (parent : NodeId) (children : List NodeId) : Document :=
  let linked := children.foldl
    (fun doc child => doc.modifyNode child fun node => { node with parent := some parent }) doc
  linked.modifyNode parent
    (Node.mapElement fun element => { element with children := element.children ++ children })

namespace Operation

/-- Looks at nodes one by one and refuses the first that cannot be attached. -/
def validate (parent : NodeId) (lineage : List NodeId) :
    (earlier children : List NodeId) → Operation Unit
  | _, [] => return
  | earlier, child :: later => do
      match (← get).obstacle? parent lineage earlier child with
      | some fault => throw fault
      | none => validate parent lineage (earlier ++ [child]) later

/-- Attaches nodes below the element `parent`, in the order of the list, and
gives `parent` back. -/
def add (parent : NodeId) (children : List NodeId) : Operation NodeId := do
  let doc ← get
  let _ ← ofExcept (doc.element parent)
  validate parent (doc.inclusiveAncestors parent) [] children
  modify (·.link parent children)
  return parent

/-- Makes an element with an id and the classes of an attribute, where given. -/
def createElementWith (typeName : String) (id classAttribute : Option String) :
    Operation NodeId := do
  let element ← ofExcept (Element.create typeName)
  modifyGet (·.adopt (element.withAttributes id classAttribute))

end Operation

def add (doc : Document) (parent : NodeId) (children : List NodeId) :
    Except Fault (NodeId × Document) :=
  doc.perform (.add parent children)

def createElementWith (doc : Document) (typeName : String) (id classAttribute : Option String) :
    Except Fault (NodeId × Document) :=
  doc.perform (.createElementWith typeName id classAttribute)

def createDiv (doc : Document) (id classAttribute : Option String) : NodeId × Document :=
  doc.adopt (Element.withAttributes { typeName := "div" } id classAttribute)

/-- Makes an element of the type `button` with a text below it. -/
def createButton (doc : Document) (label : String) (id classAttribute : Option String) :
    NodeId × Document :=
  let (button, doc) := doc.adopt (Element.withAttributes { typeName := "button" } id classAttribute)
  let (text, doc) := doc.createText label
  (button, doc.link button [text])

end Document

end StyledTree
