import StyledTree.Text.Lowercase.Table

/-!
# Comparing without regard to case

Each character is replaced by its lowercase form, on its own and without
regard to its neighbours; texts are compared by the sequences that result.
-/

namespace StyledTree.Text

namespace Lowercase

/-- The lowercase form of `code` by a run, if the run covers it. -/
def Run.target? (run : Run) (code : Nat) : Option Nat :=
  if run.first ≤ code ∧ code ≤ run.last ∧ (code - run.first) % run.stride = 0 then
    some (run.target + (code - run.first))
  else none

def dottedCapitalI : Nat := 0x130

def combiningDot : Nat := 0x307

end Lowercase

/-- The lowercase form of a character. It is one character, except for the
capital I with a dot above, which becomes an i with a combining dot. -/
def lowercase (c : Char) : List Char :=
  if c.toNat = Lowercase.dottedCapitalI then
    ['i', Char.ofNat Lowercase.combiningDot]
  else
    match Lowercase.runs.findSome? fun run => run.target? c.toNat with
    | some code => [Char.ofNat code]
    | none => [c]

def lowercased (text : List Char) : List Char := text.flatMap lowercase

def sameIgnoringCase (a b : String) : Bool :=
  lowercased a.toList == lowercased b.toList

theorem sameIgnoringCase_iff (a b : String) :
    sameIgnoringCase a b = true ↔ lowercased a.toList = lowercased b.toList := by
  simp [sameIgnoringCase]

end StyledTree.Text
