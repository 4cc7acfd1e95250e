import StyledTree.Fault

/-!
# Log records

While a menu owns the screen, messages go to a log. A record has a level; the
log keeps those that are at least as grave as `threshold`, one line each.
-/

namespace StyledTree

namespace Log

/-- How grave a record is, the gravest first. -/
inductive Level where
  | error
  | warn
  | info
  | debug
  | trace
deriving Repr, DecidableEq

namespace Level

def all : List Level := [error, warn, info, debug, trace]

def label : Level → String
  | error => "ERROR"
  | warn => "WARN"
  | info => "INFO"
  | debug => "DEBUG"
  | trace => "TRACE"

def ofName? (name : String) : Option Level :=
  all.find? fun level => level.label.toList == name.toList.map Char.toUpper

def rank (level : Level) : Nat := all.idxOf level

/-- The least grave level that the log keeps. -/
def threshold : Level := debug

def enabled (level : Level) : Bool := level.rank ≤ threshold.rank

end Level

structure Record where
  level : Level
  text : String
deriving Repr, DecidableEq

def Record.line (record : Record) : String :=
  "[" ++ record.level.label ++ "] " ++ record.text ++ "\n"

/-- The log: what has been written since it was last emptied. -/
structure Journal where
  written : String := ""
deriving Repr, DecidableEq

namespace Journal

def write (journal : Journal) (record : Record) : Journal :=
  if record.level.enabled then { written := journal.written ++ record.line } else journal

def writeAll (journal : Journal) (records : List Record) : Journal :=
  records.foldl write journal

def take (journal : Journal) : String × Journal := (journal.written, {})

end Journal

/-- A result together with the records that its making emitted, first to
last. -/
structure Logged (α : Type) where
  value : α
  records : List Record

/-- Sets up a log, given the one that is there already, if any. There can be only
one. -/
def Journal.install : Option Journal → Except RenderError Journal
  | none => .ok {}
  | some _ => .error .logInstalled

end Log

end StyledTree
