import StyledTree.Fault
import StyledTree.Style
import StyledTree.Terminal.Basic

/-!
# From styles to cells

How a style comes out on a terminal: in which colors an element is drawn, and
how many cells are kept free in and above it. A theme holds the colors used
wherever a style leaves them open.
-/

namespace StyledTree

structure Theme where
  name : String
  foreground : Terminal.Color
  background : Terminal.Color
deriving Repr, DecidableEq

namespace Theme

/-- The theme that leaves both colors to the terminal. -/
def plain : Theme := ⟨"default", .reset, .reset⟩

def dark : Theme := ⟨"dark", .solid .white, .solid .black⟩

def light : Theme := ⟨"light", .solid .black, .solid .white⟩

def all : List Theme := [plain, dark, light]

/-- The theme of this name. Blanks around it and the case of ASCII letters do
not count. -/
def named (name : String) : Except RenderError Theme :=
  match all.find? fun theme => theme.name == Text.fold name with
  | some theme => .ok theme
  | none => .error (.unknownTheme name)

end Theme

/-- Whether a terminal shows the colors of the palette or only its own. -/
inductive ColorMode where
  | palette
  | monochrome
deriving Repr, DecidableEq

/-- The colors in which an element is drawn. There is always one for text; where
there is none for the ground, that of the element above shows through. -/
structure CellColors where
  fg : Terminal.Color
  bg : Option Terminal.Color
deriving Repr, DecidableEq

/-- Cells that an element keeps free: on each side within it, and rows above. -/
structure BoxMetrics where
  padding : Nat
  marginTop : Nat
deriving Repr, DecidableEq

namespace ColorMode

def resolve (mode : ColorMode) (color : Option Color) : Option Terminal.Color :=
  match mode with
  | palette => color.map .solid
  | monochrome => none

/-- The colors that a style comes out in. The theme steps in for text. -/
def colors (mode : ColorMode) (style : Style) (theme : Theme) : CellColors where
  fg := (mode.resolve style.fg).getD theme.foreground
  bg := mode.resolve style.bg

end ColorMode

/-- The cells that a style keeps free. A negative margin counts as none. -/
def Style.metrics (style : Style) : BoxMetrics where
  padding := style.padding
  marginTop := style.marginTop.toNat

end StyledTree
