import StyledTree.ComputedStyles
import StyledTree.Document.Tree
import StyledTree.Log
import StyledTree.StyleSheet

/-!
# The cascade

The style of an element is made of the styles of all rules that pick it. They
are laid over each other from the lightest to the heaviest, and among rules of
equal weight from the first to the last, so that the last word on each property
belongs to the heaviest and latest rule that gives it. Nothing is handed down
from element to element.
-/

namespace StyledTree

def StyleRule.precedes (a b : StyleRule) : Bool :=
  a.specificity < b.specificity ||
    (a.specificity == b.specificity && a.sourceOrder ≤ b.sourceOrder)

theorem StyleRule.precedes_iff (a b : StyleRule) :
    a.precedes b = true ↔
      a.specificity < b.specificity ∨
        a.specificity = b.specificity ∧ a.sourceOrder ≤ b.sourceOrder := by
  simp only [precedes, Bool.or_eq_true, Bool.and_eq_true, decide_eq_true_eq, beq_iff_eq]

theorem StyleRule.precedes_total (a b : StyleRule) : (a.precedes b || b.precedes a) = true := by
  rw [Bool.or_eq_true, precedes_iff, precedes_iff]
  omega

theorem StyleRule.precedes_trans {a b c : StyleRule} (hab : a.precedes b = true)
    (hbc : b.precedes c = true) : a.precedes c = true := by
  rw [precedes_iff] at *
  omega

namespace StyleSheet

/-- The rules that pick an element, in the order in which they are laid down. -/
def rulesFor (sheet : StyleSheet) (element : Element) : List StyleRule :=
  (sheet.rules.filter fun rule => rule.selector.picks element).mergeSort StyleRule.precedes

def computeStyle (sheet : StyleSheet) (element : Element) : Style :=
  (sheet.rulesFor element).foldl (fun style rule => style.overlay rule.style) .unset

end StyleSheet

namespace ComputedStyles

def ofElements (sheet : StyleSheet) (elements : List (NodeId × Element)) : ComputedStyles :=
  elements.foldl (fun styles (id, element) => styles.insert id (sheet.computeStyle element)) .empty

end ComputedStyles

/-- The styles of an element and of all elements below it. Text has none. -/
def Document.computeStyles (doc : Document) (root : NodeId) (sheet : StyleSheet) :
    Except Fault (Log.Logged ComputedStyles) := do
  let _ ← doc.element root
  let styles := ComputedStyles.ofElements sheet (doc.elements root)
  return {
    value := styles
    records := [⟨.debug, "CASCADE: computed " ++ toString styles.size ++ " style(s) from " ++
      toString sheet.size ++ " rule(s)"⟩] }

end StyledTree
