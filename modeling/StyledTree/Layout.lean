import StyledTree.Appearance
import StyledTree.Document.Tree
import StyledTree.Region

/-!
# Layout

Elements are blocks of full width, one below the other. A block has padding on
each side of its content, which holds the nodes below the element: a text takes
one row and an element as many as its own block and the margin above it. An
element with nothing below it takes one row, too.

`outerHeight` counts these rows; `heldHeight` counts them in numbers of limited
size, and holds each sum on the way.
-/

namespace StyledTree

abbrev Spacing := NodeId → BoxMetrics

namespace Tree

mutual

/-- The rows that a tree takes among its siblings, margin included. -/
def outerHeight (spacing : Spacing) : Tree → Nat
  | element id children =>
      (spacing id).marginTop +
        ((if children.isEmpty then 1 else stackedHeight spacing children) +
          2 * (spacing id).padding)
  | text _ _ => 1
  | missing _ => 1

def stackedHeight (spacing : Spacing) : List Tree → Nat
  | [] => 0
  | tree :: later => outerHeight spacing tree + stackedHeight spacing later

end

/-- The rows of what is inside an element; at least one. -/
def contentHeight (spacing : Spacing) (children : List Tree) : Nat :=
  if children.isEmpty then 1 else stackedHeight spacing children

def blockHeight (spacing : Spacing) (id : NodeId) (children : List Tree) : Nat :=
  contentHeight spacing children + 2 * (spacing id).padding

theorem outerHeight_element (spacing : Spacing) (id : NodeId) (children : List Tree) :
    outerHeight spacing (element id children) =
      (spacing id).marginTop + blockHeight spacing id children := rfl

def block (spacing : Spacing) (x y : Int) (width : Nat) (id : NodeId) (children : List Tree) :
    Region :=
  ⟨x, y + (spacing id).marginTop, width, blockHeight spacing id children⟩

section Held

variable {m : Type → Type} [Monad m] (hold : Int → m Int)

mutual

/-- The rows of a tree, where each sum is held. -/
def heldHeight (spacing : Spacing) : Tree → m Int
  | element id children => do
      let block ← (do
        let content ← (if children.isEmpty then pure 1 else heldStack spacing 0 children)
        hold (content + (← hold (2 * (spacing id).padding))))
      hold ((spacing id).marginTop + block)
  | text _ _ => pure 1
  | missing _ => pure 1

/-- The rows of trees, added to those counted so far. -/
def heldStack (spacing : Spacing) (counted : Int) : List Tree → m Int
  | [] => pure counted
  | tree :: later => do
      let rows ← heldHeight spacing tree
      heldStack spacing (← hold (counted + rows)) later

end

def heldBlock (spacing : Spacing) (id : NodeId) (children : List Tree) : m Int := do
  let content ← (if children.isEmpty then pure 1 else heldStack hold spacing 0 children)
  hold (content + (← hold (2 * (spacing id).padding)))

theorem heldHeight_element (spacing : Spacing) (id : NodeId) (children : List Tree) :
    heldHeight hold spacing (element id children) =
      heldBlock hold spacing id children >>= fun block => hold ((spacing id).marginTop + block) :=
  rfl

end Held

end Tree

end StyledTree
