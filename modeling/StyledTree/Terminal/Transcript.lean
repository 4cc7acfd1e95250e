import StyledTree.Terminal.Basic

/-!
# What commands print

A transcript tells what a terminal is made to print: between one move of the cursor and the
next, which symbols, one after the other, and each in the colors in use at that moment.
-/

namespace StyledTree.Terminal

/-- A symbol as it is printed, in the colors in use. -/
structure Imprint where
  symbol : String
  fg : Color
  bg : Color
deriving Repr, DecidableEq

/-- What is printed from a move of the cursor to the next. -/
structure Stretch where
  column : Nat
  row : Nat
  imprints : List Imprint
deriving Repr, DecidableEq

structure Transcript where
  fg : Color
  bg : Color
  /-- The stretches that have come to an end, first one first. -/
  earlier : List Stretch
  current : Stretch
deriving Repr, DecidableEq

namespace Transcript

def stretches (transcript : Transcript) : List Stretch :=
  transcript.earlier ++ [transcript.current]

def print (transcript : Transcript) (symbol : String) : Transcript :=
  { transcript with current.imprints :=
      transcript.current.imprints ++ [⟨symbol, transcript.fg, transcript.bg⟩] }

def note (transcript : Transcript) : Command → Transcript
  | .moveTo column row =>
      { transcript with earlier := transcript.stretches, current := ⟨column, row, []⟩ }
  | .resetColors => { transcript with fg := .reset, bg := .reset }
  | .setForeground fg => { transcript with fg }
  | .setBackground bg => { transcript with bg }
  | .print symbol => transcript.print symbol

def noteAll (transcript : Transcript) (commands : List Command) : Transcript :=
  commands.foldl note transcript

@[simp] theorem noteAll_nil (transcript : Transcript) : transcript.noteAll [] = transcript := rfl

@[simp] theorem noteAll_cons (transcript : Transcript) (command : Command)
    (later : List Command) :
    transcript.noteAll (command :: later) = (transcript.note command).noteAll later := rfl

@[simp] theorem noteAll_append (transcript : Transcript) (earlier later : List Command) :
    transcript.noteAll (earlier ++ later) = (transcript.noteAll earlier).noteAll later :=
  List.foldl_append

end Transcript

end StyledTree.Terminal
