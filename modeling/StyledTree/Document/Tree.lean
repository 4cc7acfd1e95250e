import StyledTree.Document.Basic

/-!
# Trees and walks

The part of a document at and below a node: as a walk that visits each node
before those below it, and as a value of its own, on which layout and painting
recurse. Types, ids and classes stay behind in the tree: what is drawn depends
on handles and texts alone.
-/

namespace StyledTree

/-- A tree of handles. A handle that its document does not own is `missing`. -/
inductive Tree where
  | element (id : NodeId) (children : List Tree)
  | text (id : NodeId) (text : String)
  | missing (id : NodeId)
deriving Repr

namespace Tree

mutual

/-- The handles of a tree, each before those below it. -/
def preorder : Tree → List NodeId
  | element id children => id :: preorderAll children
  | text id _ => [id]
  | missing id => [id]

def preorderAll : List Tree → List NodeId
  | [] => []
  | tree :: later => preorder tree ++ preorderAll later

end

end Tree

namespace Document

/-- The tree at and below a node, as deep as `fuel` goes. -/
def treeWithin (doc : Document) : Nat → NodeId → Tree
  | 0, id => .missing id
  | fuel + 1, id =>
      match (doc.node? id).map Node.content with
      | none => .missing id
      | some (.text text) => .text id text
      | some (.element element) => .element id (element.children.map (doc.treeWithin fuel))

/-- The tree at and below a node. No tree is deeper than its document has
nodes. -/
def subtree (doc : Document) (root : NodeId) : Tree := doc.treeWithin doc.size root

/-- Visits the nodes of a stack and all below them, as far as `fuel` goes. -/
def walk (doc : Document) : Nat → List NodeId → List NodeId
  | 0, _ => []
  | _ + 1, [] => []
  | fuel + 1, id :: stack => id :: doc.walk fuel (doc.children id ++ stack)

/-- A node and all below it, each before those below it. No walk of a tree
visits more nodes than its document has. -/
def inclusiveDescendants (doc : Document) (root : NodeId) : List NodeId :=
  if doc.contains root then doc.walk doc.size [root] else []

/-- The elements at and below a node with their handles, in the same order. -/
def elements (doc : Document) (root : NodeId) : List (NodeId × Element) :=
  (doc.inclusiveDescendants root).filterMap fun id => (doc.element? id).map (id, ·)

end Document

end StyledTree
