import StyledTree.Selector.Basic

/-!
# Reading selectors

A text with a dot is a type and a class, split at the first dot. Any other text
is an id if it starts with `#`, and otherwise a type. Every text can be read to
its end; `Selector.parse` refuses only those in which there is nothing to see.
-/

namespace StyledTree

/-- Reads a value off the beginning of a text, and gives it back with the rest
of the text; or finds none there. -/
abbrev Reader (α : Type) := List Char → Option (α × List Char)

namespace Reader

variable {α β γ : Type}

/-- Reads what is before the first `c`. Without a `c` there is nothing to read. -/
def takeUntil (c : Char) : Reader (List Char) := fun text =>
  if c ∈ text then some (text.takeWhile (· != c), text.dropWhile (· != c)) else none

def char (c : Char) : Reader Char
  | [] => none
  | first :: later => if first = c then some (first, later) else none

def rest : Reader (List Char) := fun text => some (text, [])

def map (f : α → β) (reader : Reader α) : Reader β := fun text =>
  (reader text).map fun (value, left) => (f value, left)

def pair (first : Reader α) (second : Reader β) : Reader (α × β) := fun text =>
  (first text).bind fun (value, left) => second.map (value, ·) left

/-- Reads a value and drops what stands before it. -/
def preceded (mark : Reader α) (reader : Reader β) : Reader β := (pair mark reader).map Prod.snd

/-- Reads two values and drops what stands between them. -/
def separatedPair (first : Reader α) (separator : Reader β) (second : Reader γ) :
    Reader (α × γ) :=
  pair first (preceded separator second)

/-- Reads with the first of the readers that finds a value. -/
def alt (readers : List (Reader α)) : Reader α := fun text => readers.findSome? (· text)

theorem alt_cons (reader : Reader α) (later : List (Reader α)) (text : List Char) :
    alt (reader :: later) text = (reader text).or (alt later text) := by
  cases hreader : reader text <;> simp [alt, hreader]

theorem takeUntil_append {c : Char} {before : List Char} (first : c ∉ before)
    (after : List Char) : takeUntil c (before ++ c :: after) = some (before, c :: after) := by
  have hbefore : ∀ d ∈ before, (d != c) = true := by
    intro d hmem
    simpa using fun h : d = c => first (h ▸ hmem)
  simp [takeUntil, List.dropWhile_append_of_pos hbefore, List.takeWhile_append_of_pos hbefore]

theorem takeUntil_of_not_mem {c : Char} {text : List Char} (absent : c ∉ text) :
    takeUntil c text = none := if_neg absent

theorem char_of_head?_ne {c : Char} {text : List Char} (other : text.head? ≠ some c) :
    char c text = none := by
  cases text with
  | nil => rfl
  | cons first later => exact if_neg fun h => other (congrArg some h)

end Reader

namespace Selector

/-- Reads `type.class`, where either part may be left out. -/
def readTypeAndClass : Reader Selector :=
  (Reader.separatedPair (.takeUntil '.') (.char '.') .rest).map fun (typeName, className) =>
    ofParts (some (String.ofList typeName)) none (some (String.ofList className))

def readId : Reader Selector :=
  (Reader.preceded (.char '#') .rest).map fun id => ofParts none (some (String.ofList id)) none

def readType : Reader Selector :=
  Reader.rest.map fun typeName => ofParts (some (String.ofList typeName)) none none

/-- Reads a whole selector. The form with a dot comes first, so a `#` before a
dot belongs to a type. -/
def read : Reader Selector := .alt [readTypeAndClass, readId, readType]

def parse (text : String) : Except Fault Selector :=
  let trimmed := Text.trim text.toList
  if trimmed.isEmpty then .error .blankSelector
  else
    match read trimmed with
    | some (selector, _) => .ok selector
    | none => .error .blankSelector

end Selector

end StyledTree
