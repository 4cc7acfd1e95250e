import StyledTree.Canvas.Read
import StyledTree.Terminal.Basic

/-!
# Sending a canvas to a terminal

The cells are sent row by row. Each row begins with a move of the cursor, and a
color is sent only where it differs from the one sent last, also across rows.
-/

namespace StyledTree

/-- The commands sent so far and the colors that the last printed cell had. A
cell without a color of its own gets the default color of the terminal. -/
structure Sender where
  fg : Option Terminal.Color := none
  bg : Option Terminal.Color := none
  sent : Array Terminal.Command := #[]

namespace Sender

def send (sender : Sender) (command : Terminal.Command) : Sender :=
  { sender with sent := sender.sent.push command }

def useForeground (sender : Sender) (fg : Option Terminal.Color) : Sender :=
  if fg = sender.fg then sender
  else { sender.send (.setForeground (fg.getD .reset)) with fg }

def useBackground (sender : Sender) (bg : Option Terminal.Color) : Sender :=
  if bg = sender.bg then sender
  else { sender.send (.setBackground (bg.getD .reset)) with bg }

/-- Prints a cell in its colors. The second cell of a wide symbol is filled by the
first one and sends nothing. -/
def sendCell (sender : Sender) (cell : Cell) : Sender :=
  if cell.symbol.isEmpty then sender
  else ((sender.useForeground cell.fg).useBackground cell.bg).send (.print cell.symbol)

def sendRow (sender : Sender) (row : List Cell × Nat) : Sender :=
  row.1.foldl sendCell (sender.send (.moveTo 0 row.2))

end Sender

namespace Canvas

/-- The commands that show a canvas from the top left of a terminal on, whose
colors they reset before and after. A canvas without columns has no rows to
send. -/
def commands (canvas : Canvas) : List Terminal.Command :=
  let rows := if canvas.width = 0 then [] else canvas.rows
  let start : Sender := { sent := #[.moveTo 0 0, .resetColors] }
  ((rows.zipIdx.foldl Sender.sendRow start).send .resetColors).sent.toList

def flush (canvas : Canvas) : String := Terminal.Command.encodeAll canvas.commands

end Canvas

end StyledTree
