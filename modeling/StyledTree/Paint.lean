import StyledTree.Canvas.Write
import StyledTree.Layout

/-!
# Painting

A tree is painted by strokes: grounds, marks on padding and texts. The strokes
of an element come before those of the nodes below it, so what lies deeper is
seen on top.

`strokes` places them by exact counts of columns and rows; `heldStrokes` counts in
numbers of limited size, and holds each sum on the way.
-/

namespace StyledTree

inductive Stroke where
  | fill (region : Region) (color : Terminal.Color)
  /-- Marks the cells of `block` that are not in `content`. -/
  | mark (block content : Region)
  | write (x y : Int) (width : Nat) (text : String) (color : Terminal.Color)
deriving Repr, DecidableEq

/-- The symbol that marks padding, a dot at mid-height. -/
def paddingMark : Char := '\u00b7'

namespace Canvas

def markPadding (canvas : Canvas) (block content : Region) : Canvas :=
  block.fold
    (fun canvas x y => if content.contains x y then canvas else canvas.putSymbol x y paddingMark)
    canvas

theorem cell?_markPadding (canvas : Canvas) (block content : Region) (x y : Int) :
    (canvas.markPadding block content).cell? x y =
      if (block.x ≤ x ∧ x < block.x + block.width) ∧
          block.y ≤ y ∧ y < block.y + block.height then
        (canvas.cell? x y).map fun cell =>
          if content.contains x y then cell
          else { cell with symbol := String.singleton paddingMark }
      else canvas.cell? x y := by
  have hvisit (canvas : Canvas) (x y x' y' : Int) :
      (if content.contains x y then canvas else canvas.putSymbol x y paddingMark).cell? x' y' =
        if x' = x ∧ y' = y then
          (canvas.cell? x' y').map fun cell =>
            if content.contains x y then cell
            else { cell with symbol := String.singleton paddingMark }
        else canvas.cell? x' y' := by
    by_cases hin : content.contains x y
    · simp [hin]
    · simp [hin, cell?_putSymbol]
  exact cell?_fold hvisit canvas block x y

/-- Draws a stroke. A text keeps the ground that is there. -/
def draw (canvas : Canvas) : Stroke → Canvas
  | .fill region color => canvas.fillGround region color
  | .mark block content => canvas.markPadding block content
  | .write x y width text color => (canvas.putText x y width text (some color) none).2

def drawAll (canvas : Canvas) (strokes : List Stroke) : Canvas := strokes.foldl draw canvas

end Canvas

/-- How the elements of a tree look: their spacing, their colors, and whether
padding is marked. -/
structure Look where
  spacing : Spacing
  colors : NodeId → CellColors
  marksPadding : Bool

namespace Bounds

variable {m : Type → Type} [Monad m] (hold : Int → m Int) (bounds : Bounds)

def fillings : Option Terminal.Color → m (List Stroke)
  | some color => return [.fill (← bounds.visited hold) color]
  | none => return []

def markings (content : Bounds) (marked : Bool) : m (List Stroke) :=
  if marked then return [.mark (← bounds.visited hold) content.region] else return []

end Bounds

namespace Tree

/-- The rows by which painting a tree moves on. A missing node is passed over. -/
def paintedHeight (look : Look) : Tree → Nat
  | element id children => outerHeight look.spacing (element id children)
  | text _ _ => 1
  | missing _ => 0

mutual

/-- The strokes of a tree whose margin begins at a cell. An element without a
ground of its own gets `ground`, and `ink` is the color of a text that stands at
the top of the tree. -/
def strokes (look : Look) (x y : Int) (width : Nat) (ground : Option Terminal.Color)
    (ink : Terminal.Color) : Tree → List Stroke
  | element id children =>
      let block := block look.spacing x y width id children
      let content := block.inset (look.spacing id).padding
      (((look.colors id).bg.or ground).map (Stroke.fill block)).toList ++
        (if look.marksPadding ∧ 0 < (look.spacing id).padding then
          [Stroke.mark block content] else []) ++
        strokesAll look content.x content.y content.width (look.colors id).fg children
  | text _ words => [.write x y width words ink]
  | missing _ => []

def strokesAll (look : Look) (x y : Int) (width : Nat) (ink : Terminal.Color) :
    List Tree → List Stroke
  | [] => []
  | tree :: later =>
      strokes look x y width none ink tree ++
        strokesAll look x (y + paintedHeight look tree) width ink later

end

section Held

variable {m : Type → Type} [Monad m] (hold : Int → m Int)

mutual

/-- The strokes of a tree and the rows that it takes, where each sum is held. -/
def heldStrokes (look : Look) (x y width : Int) (ground : Option Terminal.Color)
    (ink : Terminal.Color) : Tree → m (List Stroke × Int)
  | element id children => do
      let top ← hold (y + (look.spacing id).marginTop)
      let block := Bounds.clamp x top width (← heldBlock hold look.spacing id children)
      let filled ← block.fillings hold ((look.colors id).bg.or ground)
      let content ← block.inset hold (look.spacing id).padding
      let marked ← block.markings hold content
        (look.marksPadding && 0 < (look.spacing id).padding)
      let (painted, _) ←
        heldStrokesAll look content.x content.y content.width (look.colors id).fg children
      let rows ← hold ((look.spacing id).marginTop + block.height)
      return (filled ++ marked ++ painted, rows)
  | text _ words => pure ([.write x y width.toNat words ink], 1)
  | missing _ => pure ([], 0)

/-- The strokes of trees one below the other, and the row below the last. -/
def heldStrokesAll (look : Look) (x row width : Int) (ink : Terminal.Color) :
    List Tree → m (List Stroke × Int)
  | [] => pure ([], row)
  | tree :: later => do
      let (first, rows) ← heldStrokes look x row width none ink tree
      let next ← hold (row + rows)
      let (others, last) ← heldStrokesAll look x next width ink later
      return (first ++ others, last)

end

end Held

end Tree

end StyledTree
