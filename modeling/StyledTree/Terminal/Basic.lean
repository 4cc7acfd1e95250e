import StyledTree.Color

/-!
# Terminals

A terminal shows the sixteen colors of the palette under numbers of its own, and
has a default color besides, to which it can be reset. What it is told to do is
a command, written as a sequence of characters.
-/

namespace StyledTree.Terminal

/-- A color that a terminal can be told to use. -/
inductive Color where
  | reset
  | solid (color : StyledTree.Color)
deriving Repr, DecidableEq

namespace Color

def all : List Color := reset :: StyledTree.Color.all.map solid

/-- The name of a terminal color. The two grays are spelled `Grey` here. -/
def name : Color → String
  | reset => "Reset"
  | solid .gray => "Grey"
  | solid .darkGray => "DarkGrey"
  | solid color => color.label

def ofName? (name : String) : Option Color := all.find? fun color => color.name == name

/-- The number under which a terminal knows a color of the palette. -/
def slot : StyledTree.Color → Nat
  | .black => 0
  | .darkRed => 1
  | .darkGreen => 2
  | .darkYellow => 3
  | .darkBlue => 4
  | .darkMagenta => 5
  | .darkCyan => 6
  | .gray => 7
  | .darkGray => 8
  | .red => 9
  | .green => 10
  | .yellow => 11
  | .blue => 12
  | .magenta => 13
  | .cyan => 14
  | .white => 15

/-- The parameters of the sequence that sets a color, on the layer whose numbers
begin with `layer`: `8` and the slot, or `9` for the default color. -/
def parameters (layer : String) : Color → String
  | reset => layer ++ "9"
  | solid color => layer ++ "8;5;" ++ toString (slot color)

end Color

/-- A command to a terminal. Columns and rows count from 0 at the top left. -/
inductive Command where
  | moveTo (column row : Nat)
  | resetColors
  | setForeground (color : Color)
  | setBackground (color : Color)
  | print (text : String)
deriving Repr, DecidableEq

namespace Command

/-- The two characters that begin every control sequence. -/
def introducer : String := "\x1b["

/-- The characters of a command. On the wire, columns and rows count from 1. -/
def encode : Command → String
  | moveTo column row =>
      introducer ++ toString (row + 1) ++ ";" ++ toString (column + 1) ++ "H"
  | resetColors => introducer ++ "0m"
  | setForeground color => introducer ++ color.parameters "3" ++ "m"
  | setBackground color => introducer ++ color.parameters "4" ++ "m"
  | print text => text

def encodeAll (commands : List Command) : String := String.join (commands.map encode)

end Command

end StyledTree.Terminal
