import StyledTree.Color

/-!
# Styles

A style is a partial description: zero and absent mean "not given here". Laying
one style over another therefore never takes a property back.
-/

namespace StyledTree

structure Style where
  /-- Cells left free inside the element, on each of its four sides. -/
  padding : Nat := 0
  /-- Rows left empty above the element. -/
  marginTop : Int := 0
  fg : Option Color := none
  bg : Option Color := none
deriving Repr, DecidableEq

namespace Style

/-- The style that says nothing. -/
def unset : Style := {}

def isEmpty (style : Style) : Bool := style == unset

/-- The style `base` with all that `upper` gives laid over it. -/
def overlay (base upper : Style) : Style where
  padding := if upper.padding = 0 then base.padding else upper.padding
  marginTop := if upper.marginTop = 0 then base.marginTop else upper.marginTop
  fg := upper.fg.or base.fg
  bg := upper.bg.or base.bg

@[simp] theorem overlay_unset (style : Style) : style.overlay unset = style := rfl

@[simp] theorem unset_overlay (style : Style) : unset.overlay style = style := by
  cases style
  simp only [overlay, unset, Option.or_none, Style.mk.injEq, and_true]
  exact ⟨by split <;> simp_all, by split <;> simp_all⟩

def describeColor : Option Color → String
  | none => "None"
  | some color => "Some(" ++ color.label ++ ")"

def describe (style : Style) : String :=
  "Style \x7b padding: " ++ toString style.padding ++
    ", margin_top: " ++ toString style.marginTop ++
    ", fg: " ++ describeColor style.fg ++
    ", bg: " ++ describeColor style.bg ++ " \x7d"

end Style

end StyledTree
