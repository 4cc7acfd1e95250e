import Mathlib.Data.List.Induction
import StyledTree.StyleSheet

/-!
# How sheets grow

A sheet is the result of additions, some of which may fail. The rules of a sheet
are exactly the additions that succeeded, and each rule carries its place among
them as its source order.
-/

namespace StyledTree.StyleSheet

/-- One attempt to add a rule, with its selector in writing or ready-made. -/
inductive Addition where
  | written (selectorText : String) (style : Style)
  | built (selector : Selector) (style : Style)
deriving Repr, DecidableEq

namespace Addition

def applyTo (sheet : StyleSheet) : Addition → StyleSheet
  | written selectorText style =>
      match sheet.addRule selectorText style with
      | .ok grown => grown
      | .error _ => sheet
  | built selector style => sheet.push selector style

def accepted? : Addition → Option (Selector × Style)
  | written selectorText style => (Selector.parse selectorText).toOption.map (·, style)
  | built selector style => some (selector, style)

end Addition

/-- The sheet that a list of attempts builds, starting without rules. -/
def build (additions : List Addition) : StyleSheet := additions.foldl Addition.applyTo .empty

def accepted (additions : List Addition) : List (Selector × Style) :=
  additions.filterMap Addition.accepted?

def ruleAt (place : Nat) (entry : Selector × Style) : StyleRule where
  selector := entry.1
  style := entry.2
  sourceOrder := place

theorem rules_applyTo (sheet : StyleSheet) (addition : Addition) :
    (addition.applyTo sheet).rules =
      sheet.rules ++ (addition.accepted?.map (ruleAt sheet.size)).toList := by
  cases addition with
  | written selectorText style =>
      cases hparse : Selector.parse selectorText with
      | error fault =>
          have hrule : sheet.addRule selectorText style = .error fault := by
            rw [addRule, hparse]
            rfl
          simp [Addition.applyTo, Addition.accepted?, hrule, hparse, Except.toOption]
      | ok selector =>
          have hrule : sheet.addRule selectorText style = .ok (sheet.push selector style) := by
            rw [addRule, hparse]
            rfl
          simp [Addition.applyTo, Addition.accepted?, hrule, hparse, Except.toOption, push, ruleAt]
  | built selector style => rfl

theorem build_append_singleton (additions : List Addition) (addition : Addition) :
    build (additions ++ [addition]) = addition.applyTo (build additions) := by
  simp [build, List.foldl_append]

/-- A failed attempt takes no place, so the source order of a rule counts the
attempts before it that succeeded. -/
theorem rules_build (additions : List Addition) :
    (build additions).rules = (accepted additions).mapIdx ruleAt := by
  induction additions using List.reverseRecOn with
  | nil => rfl
  | append_singleton additions addition ih =>
      have hsize : (build additions).size = (accepted additions).length := by
        rw [size, ih, List.length_mapIdx]
      rw [build_append_singleton, rules_applyTo, ih, hsize]
      cases h : addition.accepted? with
      | none => simp [accepted, List.filterMap_append, h]
      | some entry => simp [accepted, List.filterMap_append, h, List.mapIdx_append]

theorem mem_rules_build {additions : List Addition} {rule : StyleRule} :
    rule ∈ (build additions).rules ↔
      (accepted additions)[rule.sourceOrder]? = some (rule.selector, rule.style) := by
  rw [rules_build, List.mem_mapIdx]
  constructor
  · rintro ⟨place, hlt, rfl⟩
    exact List.getElem?_eq_getElem hlt
  · intro hentry
    obtain ⟨hlt, heq⟩ := List.getElem?_eq_some_iff.mp hentry
    exact ⟨rule.sourceOrder, hlt, by rw [heq]; rfl⟩

end StyledTree.StyleSheet
