import StyledTree.Canvas.Flush
import StyledTree.Cascade
import StyledTree.Paint

/-!
# Rendering

A renderer lays out the tree at an element and paints it on a canvas of the
width asked for, as high as the tree needs. Elements without a computed style
are drawn as if nothing were set.
-/

namespace StyledTree

structure RenderOptions where
  themeName : String := "default"
  /-- Use no colors but those of the terminal. -/
  monochrome : Bool := false
  /-- Mark the padding of elements. -/
  showBounds : Bool := false
  /-- Log every computed style before rendering. -/
  logStyles : Bool := false
deriving Repr, DecidableEq

structure Renderer where
  theme : Theme
  mode : ColorMode
  showBounds : Bool
  logStyles : Bool
deriving Repr, DecidableEq

namespace Renderer

/-- The renderer for some options, of which the theme has to exist. Without
colors, the plain theme is used whatever the choice. -/
def create (options : RenderOptions) : Except RenderError Renderer := do
  let theme ← Theme.named options.themeName
  return {
    theme := if options.monochrome then .plain else theme
    mode := if options.monochrome then .monochrome else .palette
    showBounds := options.showBounds
    logStyles := options.logStyles }

def look (renderer : Renderer) (styles : ComputedStyles) : Look where
  spacing := fun id => (styles.styleOf id).metrics
  colors := fun id => renderer.mode.colors (styles.styleOf id) renderer.theme
  marksPadding := renderer.showBounds

def maxRows : Nat := 65535

/-- The rows of a canvas for a tree that needs so many. -/
def rowsFor (needed : Int) : Nat :=
  if 0 ≤ needed ∧ needed ≤ maxRows then needed.toNat else maxRows

/-- A tree painted from the top left of a blank canvas on. The element at the top
falls back to the ground of the theme. -/
def paint (renderer : Renderer) (styles : ComputedStyles) (tree : Tree) (width height : Nat) :
    Canvas :=
  (Canvas.blank width height).drawAll
    (tree.strokes (renderer.look styles) 0 0 width (some renderer.theme.background)
      renderer.theme.foreground)

def styleRecord (doc : Document) (entry : NodeId × Style) : Log.Record where
  level := .debug
  text :=
    "STYLE: " ++ entry.1.label ++ " <" ++
      ((doc.element? entry.1).map Element.typeName).getD "?" ++ "> " ++ entry.2.describe

def clippingRecord (element : Element) (needed : Int) : Log.Record where
  level := .warn
  text :=
    "RENDER: <" ++ element.typeName ++ "> needs " ++ toString needed ++ " rows, clipping to " ++
      toString maxRows

/-- The records of a rendering: the styles, if they are logged, and that rows were
cut off, if so. -/
def records (renderer : Renderer) (doc : Document) (element : Element) (styles : ComputedStyles)
    (needed : Int) : List Log.Record :=
  (if renderer.logStyles then styles.entries.map (styleRecord doc) else []) ++
    (if 0 ≤ needed ∧ needed ≤ maxRows then [] else [clippingRecord element needed])

/-- Renders the tree at an element, where each sum of rows or columns is held. A tree
that needs too many rows is cut off at the bottom, and a record tells of it. -/
def renderHeld {m : Type → Type} [Monad m] (hold : Int → m Int) (renderer : Renderer)
    (doc : Document) (root : NodeId) (styles : ComputedStyles) (width : Nat) :
    m (Except RenderError (Log.Logged Canvas)) :=
  match doc.element root with
  | .error fault => pure (.error (.style fault))
  | .ok element => do
      let tree := doc.subtree root
      let look := renderer.look styles
      let needed ← tree.heldHeight hold look.spacing
      let (strokes, _) ← tree.heldStrokes hold look 0 0 width (some renderer.theme.background)
        renderer.theme.foreground
      return .ok {
        value := (Canvas.blank width (rowsFor needed)).drawAll strokes
        records := renderer.records doc element styles needed }

theorem renderHeld_of_error {m : Type → Type} [Monad m] (hold : Int → m Int)
    (renderer : Renderer) {doc : Document} {root : NodeId} {fault : Fault}
    (hfault : doc.element root = .error fault) (styles : ComputedStyles) (width : Nat) :
    renderer.renderHeld hold doc root styles width = pure (.error (.style fault)) := by
  rw [renderHeld, hfault]

/-- Rendering where each sum is replaced by what is held of it. -/
def renderWith (hold : Int → Int) (renderer : Renderer) (doc : Document) (root : NodeId)
    (styles : ComputedStyles) (width : Nat) : Except RenderError (Log.Logged Canvas) :=
  Id.run (renderer.renderHeld (fun n => pure (hold n)) doc root styles width)

/-- Rendering in a build that goes on with the lowest 32 bits of a sum. -/
def render (renderer : Renderer) (doc : Document) (root : NodeId) (styles : ComputedStyles)
    (width : Nat) : Except RenderError (Log.Logged Canvas) :=
  renderer.renderWith Coordinate.wrap doc root styles width

/-- Rendering in a build that stops at a sum that does not fit into 32 bits; then there
is no result. -/
def renderChecked (renderer : Renderer) (doc : Document) (root : NodeId)
    (styles : ComputedStyles) (width : Nat) : Option (Except RenderError (Log.Logged Canvas)) :=
  renderer.renderHeld Coordinate.check doc root styles width

end Renderer

end StyledTree
