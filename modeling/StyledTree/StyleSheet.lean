import StyledTree.Selector.Reader
import StyledTree.Style

/-!
# Style sheets

A style sheet is a list of rules that only grows. A rule remembers its place in
the list, which decides between rules of equal weight.
-/

namespace StyledTree

/-- A rule gives a style to the elements that its selector picks. -/
structure StyleRule where
  selector : Selector
  style : Style
  /-- The place of the rule in its sheet, counted from 0. -/
  sourceOrder : Nat
deriving Repr, DecidableEq

def StyleRule.specificity (rule : StyleRule) : Nat := rule.selector.specificity

structure StyleSheet where
  rules : List StyleRule := []
deriving Repr, DecidableEq

namespace StyleSheet

def empty : StyleSheet := {}

def size (sheet : StyleSheet) : Nat := sheet.rules.length

def isEmpty (sheet : StyleSheet) : Bool := sheet.rules.isEmpty

def push (sheet : StyleSheet) (selector : Selector) (style : Style) : StyleSheet where
  rules := sheet.rules ++ [{ selector, style, sourceOrder := sheet.size }]

/-- Adds a rule with its selector in writing. If the selector cannot be read,
there is no rule and no place is taken. -/
def addRule (sheet : StyleSheet) (selectorText : String) (style : Style) :
    Except Fault StyleSheet := do
  let selector ← Selector.parse selectorText
  return sheet.push selector style

theorem size_push (sheet : StyleSheet) (selector : Selector) (style : Style) :
    (sheet.push selector style).size = sheet.size + 1 := by
  simp [push, size]

end StyleSheet

end StyledTree
