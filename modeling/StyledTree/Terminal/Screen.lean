import StyledTree.Terminal.Basic
import StyledTree.Text.Width

/-!
# What a terminal shows

A screen is a grid of places with a cursor and the colors in use. It carries out
commands one by one; a print that does not fit into the row of the cursor is not
carried out, and then nothing after it is.
-/

namespace StyledTree.Terminal

/-- What one place of a screen shows: a symbol, or which of its further columns if it
began further left. -/
structure Patch where
  symbol : String
  part : Nat
  fg : Color
  bg : Color
deriving Repr, DecidableEq

structure Screen where
  columns : Nat
  rows : Nat
  column : Nat
  row : Nat
  fg : Color
  bg : Color
  /-- What is shown in a column and row. -/
  shown : Nat → Nat → Patch

namespace Screen

/-- Prints a symbol where the cursor is, over as many columns as it is wide, and moves
the cursor on by that many. -/
def print (screen : Screen) (symbol : String) : Option Screen :=
  let stop := screen.column + Text.displayWidth symbol.toList
  if stop ≤ screen.columns ∧ screen.row < screen.rows then
    some { screen with
      column := stop
      shown := fun x y =>
        if y = screen.row ∧ screen.column ≤ x ∧ x < stop then
          ⟨symbol, x - screen.column, screen.fg, screen.bg⟩
        else screen.shown x y }
  else none

def execute (screen : Screen) : Command → Option Screen
  | .moveTo column row => some { screen with column, row }
  | .resetColors => some { screen with fg := .reset, bg := .reset }
  | .setForeground fg => some { screen with fg }
  | .setBackground bg => some { screen with bg }
  | .print symbol => screen.print symbol

/-- Carries out commands, if all can be. -/
def run (screen : Screen) (commands : List Command) : Option Screen :=
  commands.foldlM execute screen

theorem run_append (screen : Screen) (earlier later : List Command) :
    screen.run (earlier ++ later) = (screen.run earlier).bind (run · later) :=
  List.foldlM_append ..

end Screen

end StyledTree.Terminal
