import StyledTree.Fault
import StyledTree.Text.Blank

/-!
# The palette

Styles speak of sixteen abstract colors. `Color.ofText?` reads the name of one,
in any case, with blanks around it and with or without its hyphen.
-/

namespace StyledTree

inductive Color where
  | black
  | darkBlue
  | darkGreen
  | darkCyan
  | darkRed
  | darkMagenta
  | darkYellow
  | gray
  | darkGray
  | blue
  | green
  | cyan
  | red
  | magenta
  | yellow
  | white
deriving Repr, DecidableEq

namespace Color

/-- The palette in console order. -/
def all : List Color :=
  [black, darkBlue, darkGreen, darkCyan, darkRed, darkMagenta, darkYellow, gray,
    darkGray, blue, green, cyan, red, magenta, yellow, white]

theorem mem_all (color : Color) : color ∈ all := by
  cases color <;> decide

def index (color : Color) : Nat := all.idxOf color

def name : Color → String
  | black => "black"
  | darkBlue => "dark-blue"
  | darkGreen => "dark-green"
  | darkCyan => "dark-cyan"
  | darkRed => "dark-red"
  | darkMagenta => "dark-magenta"
  | darkYellow => "dark-yellow"
  | gray => "gray"
  | darkGray => "dark-gray"
  | blue => "blue"
  | green => "green"
  | cyan => "cyan"
  | red => "red"
  | magenta => "magenta"
  | yellow => "yellow"
  | white => "white"

/-- The name of a color in log records. -/
def label : Color → String
  | black => "Black"
  | darkBlue => "DarkBlue"
  | darkGreen => "DarkGreen"
  | darkCyan => "DarkCyan"
  | darkRed => "DarkRed"
  | darkMagenta => "DarkMagenta"
  | darkYellow => "DarkYellow"
  | gray => "Gray"
  | darkGray => "DarkGray"
  | blue => "Blue"
  | green => "Green"
  | cyan => "Cyan"
  | red => "Red"
  | magenta => "Magenta"
  | yellow => "Yellow"
  | white => "White"

def ofName? (name : List Char) : Option Color :=
  all.find? fun color => color.name.toList == name

def darkWord : List Char := ['d', 'a', 'r', 'k']

/-- The name with a hyphen put after `dark`, if it begins so. -/
def hyphenated? (name : List Char) : Option (List Char) :=
  (darkWord.isPrefixOf? name).map fun rest => darkWord ++ '-' :: rest

/-- The color that a text names. Blanks around the name and the case of ASCII
letters do not count, and the hyphen may be left out. -/
def ofText? (text : String) : Option Color :=
  let name := (Text.fold text).toList
  (ofName? name).or ((hyphenated? name).bind ofName?)

def parse (text : String) : Except Fault Color :=
  match ofText? text with
  | some color => .ok color
  | none => .error (.unknownColor text)

end Color

end StyledTree
