import StyledTree.Cascade
import StyledTree.Proofs.Cascade.SheetGrowth

/-!
# The last word on a property

Each property of a computed style is decided by one rule: of the rules that pick
the element and set the property, the heaviest, and the latest of equal weight.
Styles are laid down in sorted order, so the main step is that the last style in
a list that sets a property decides it.
-/

namespace StyledTree

/-- The properties of a style, with the types of their values. -/
inductive Style.Property : Type → Type where
  | padding : Property Nat
  | marginTop : Property Int
  | fg : Property (Option Color)
  | bg : Property (Option Color)

namespace Style.Property

variable {α : Type}

def read : Property α → Style → α
  | padding, style => style.padding
  | marginTop, style => style.marginTop
  | fg, style => style.fg
  | bg, style => style.bg

def unset : Property α → α
  | padding => 0
  | marginTop => 0
  | fg => none
  | bg => none

def Sets (property : Property α) (style : Style) : Prop := property.read style ≠ property.unset

theorem read_unset (property : Property α) : property.read Style.unset = property.unset := by
  cases property <;> rfl

theorem read_overlay_of_sets {property : Property α} {upper : Style}
    (hsets : property.Sets upper) (base : Style) :
    property.read (base.overlay upper) = property.read upper := by
  cases property with
  | padding => exact if_neg hsets
  | marginTop => exact if_neg hsets
  | fg => exact Option.or_of_isSome (Option.isSome_iff_ne_none.mpr hsets)
  | bg => exact Option.or_of_isSome (Option.isSome_iff_ne_none.mpr hsets)

theorem read_overlay_of_not_sets {property : Property α} {upper : Style}
    (hsets : ¬property.Sets upper) (base : Style) :
    property.read (base.overlay upper) = property.read base := by
  have hunset : property.read upper = property.unset := Classical.not_not.mp hsets
  cases property with
  | padding => exact if_pos hunset
  | marginTop => exact if_pos hunset
  | fg =>
      show upper.fg.or base.fg = base.fg
      rw [show upper.fg = none from hunset, Option.none_or]
  | bg =>
      show upper.bg.or base.bg = base.bg
      rw [show upper.bg = none from hunset, Option.none_or]

end Style.Property

namespace StyleSheet

variable {α : Type}

/-! ## Laying styles over each other -/

theorem read_foldl_overlay_of_none {property : Style.Property α} {rules : List StyleRule}
    (hnone : ∀ rule ∈ rules, ¬property.Sets rule.style) (base : Style) :
    property.read (rules.foldl (fun style rule => style.overlay rule.style) base) =
      property.read base := by
  induction rules generalizing base with
  | nil => rfl
  | cons rule later ih =>
      rw [List.foldl_cons, ih fun other hmem => hnone other (List.mem_cons_of_mem _ hmem)]
      exact Style.Property.read_overlay_of_not_sets (hnone rule List.mem_cons_self) base

theorem read_foldl_overlay_of_last {property : Style.Property α} {earlier later : List StyleRule}
    {rule : StyleRule} (hsets : property.Sets rule.style)
    (hlater : ∀ other ∈ later, ¬property.Sets other.style) (base : Style) :
    property.read ((earlier ++ rule :: later).foldl (fun style rule => style.overlay rule.style)
      base) = property.read rule.style := by
  rw [List.foldl_append, List.foldl_cons, read_foldl_overlay_of_none hlater]
  exact Style.Property.read_overlay_of_sets hsets _

theorem exists_last_setter {property : Style.Property α} {rules : List StyleRule}
    (hsome : ∃ rule ∈ rules, property.Sets rule.style) :
    ∃ earlier rule later, rules = earlier ++ rule :: later ∧ property.Sets rule.style ∧
      ∀ other ∈ later, ¬property.Sets other.style := by
  induction rules with
  | nil => simp at hsome
  | cons first rest ih =>
      by_cases hrest : ∃ rule ∈ rest, property.Sets rule.style
      · obtain ⟨earlier, rule, later, hsplit, hsets, hlater⟩ := ih hrest
        exact ⟨first :: earlier, rule, later, by rw [hsplit]; rfl, hsets, hlater⟩
      · have hlater : ∀ other ∈ rest, ¬property.Sets other.style := by
          intro other hmem hsets
          exact hrest ⟨other, hmem, hsets⟩
        obtain ⟨rule, hmem, hsets⟩ := hsome
        rcases List.mem_cons.mp hmem with rfl | hmem
        · exact ⟨[], rule, rest, rfl, hsets, hlater⟩
        · exact absurd hsets (hlater rule hmem)

/-! ## Contenders -/

/-- An accepted rule that picks the element and sets the property. -/
structure Contends (entries : List (Selector × Style)) (element : Element)
    (property : Style.Property α) (place : Nat) (selector : Selector) (style : Style) : Prop where
  entry : entries[place]? = some (selector, style)
  picks : selector.picks element = true
  sets : property.Sets style

/-- A contender that no other one outweighs, and none of its weight comes after. -/
structure HasLastWord (entries : List (Selector × Style)) (element : Element)
    (property : Style.Property α) (place : Nat) (selector : Selector) (style : Style) : Prop where
  contends : Contends entries element property place selector style
  greatest : ∀ other selector' style', Contends entries element property other selector' style' →
    selector'.specificity < selector.specificity ∨
      selector'.specificity = selector.specificity ∧ other ≤ place

theorem HasLastWord.unique {entries : List (Selector × Style)} {element : Element}
    {property : Style.Property α} {place other : Nat} {selector selector' : Selector}
    {style style' : Style} (h : HasLastWord entries element property place selector style)
    (h' : HasLastWord entries element property other selector' style') : style = style' := by
  have hle := h.greatest other selector' style' h'.contends
  have hge := h'.greatest place selector style h.contends
  have hplace : place = other := by omega
  have hentry := h.contends.entry
  rw [hplace, h'.contends.entry] at hentry
  exact (congrArg Prod.snd (Option.some.inj hentry)).symm

theorem mem_rulesFor {additions : List Addition} {element : Element} {rule : StyleRule} :
    rule ∈ (build additions).rulesFor element ↔
      (accepted additions)[rule.sourceOrder]? = some (rule.selector, rule.style) ∧
        rule.selector.picks element = true := by
  rw [rulesFor, List.mem_mergeSort, List.mem_filter, mem_rules_build]

theorem pairwise_rulesFor (sheet : StyleSheet) (element : Element) :
    (sheet.rulesFor element).Pairwise fun a b => a.precedes b = true := by
  have htrans : ∀ a b c : StyleRule, a.precedes b → b.precedes c → a.precedes c :=
    fun _ _ _ => StyleRule.precedes_trans
  exact List.pairwise_mergeSort htrans StyleRule.precedes_total _

theorem contends_of_mem_rulesFor {additions : List Addition} {element : Element}
    {property : Style.Property α} {rule : StyleRule}
    (hmem : rule ∈ (build additions).rulesFor element) (hsets : property.Sets rule.style) :
    Contends (accepted additions) element property rule.sourceOrder rule.selector rule.style :=
  ⟨(mem_rulesFor.mp hmem).1, (mem_rulesFor.mp hmem).2, hsets⟩

theorem mem_rulesFor_of_contends {additions : List Addition} {element : Element}
    {property : Style.Property α} {place : Nat} {selector : Selector} {style : Style}
    (h : Contends (accepted additions) element property place selector style) :
    ruleAt place (selector, style) ∈ (build additions).rulesFor element :=
  mem_rulesFor.mpr ⟨h.entry, h.picks⟩

/-- In sorted order, the last rule that sets a property is the heaviest and latest
of those that do. -/
theorem hasLastWord_of_last {additions : List Addition} {element : Element}
    {property : Style.Property α} {earlier later : List StyleRule} {rule : StyleRule}
    (hsplit : (build additions).rulesFor element = earlier ++ rule :: later)
    (hsets : property.Sets rule.style) (hlater : ∀ other ∈ later, ¬property.Sets other.style) :
    HasLastWord (accepted additions) element property rule.sourceOrder rule.selector
      rule.style := by
  have hmem : rule ∈ (build additions).rulesFor element := by simp [hsplit]
  refine ⟨contends_of_mem_rulesFor hmem hsets, ?_⟩
  intro place selector style hcontends
  have hother := mem_rulesFor_of_contends hcontends
  have hsorted := pairwise_rulesFor (build additions) element
  rw [hsplit] at hother hsorted
  have hbefore := (List.pairwise_append.mp hsorted).2.2
  -- What comes before is outweighed by sorting; what comes after does not contend.
  rcases List.mem_append.mp hother with hearlier | hrest
  · exact (StyleRule.precedes_iff _ _).mp (hbefore _ hearlier rule List.mem_cons_self)
  · rcases List.mem_cons.mp hrest with hsame | hmem
    · rw [← hsame]
      exact Or.inr ⟨rfl, Nat.le_refl _⟩
    · exact absurd hcontends.sets (hlater _ hmem)

/-- Some contender has the last word on a property, its value is that of the
computed style, and the property stays unset exactly if there is no contender. -/
theorem computeStyle_lastWord (additions : List Addition) (element : Element)
    (property : Style.Property α) :
    (∀ place selector style,
      HasLastWord (accepted additions) element property place selector style →
        property.read ((build additions).computeStyle element) = property.read style) ∧
      ((∃ place selector style,
          Contends (accepted additions) element property place selector style) →
        ∃ place selector style,
          HasLastWord (accepted additions) element property place selector style) ∧
      (property.read ((build additions).computeStyle element) = property.unset ↔
        ¬∃ place selector style,
          Contends (accepted additions) element property place selector style) := by
  by_cases hsome : ∃ rule ∈ (build additions).rulesFor element, property.Sets rule.style
  · obtain ⟨earlier, rule, later, hsplit, hsets, hlater⟩ := exists_last_setter hsome
    have hword := hasLastWord_of_last hsplit hsets hlater
    have hread : property.read ((build additions).computeStyle element) =
        property.read rule.style := by
      rw [computeStyle, hsplit]
      exact read_foldl_overlay_of_last hsets hlater _
    refine ⟨?_, fun _ => ⟨_, _, _, hword⟩, ?_⟩
    · intro place selector style h
      rw [hread, hword.unique h]
    · rw [hread]
      exact iff_of_false hsets (not_not_intro ⟨_, _, _, hword.contends⟩)
  · have hnone : ¬∃ place selector style,
        Contends (accepted additions) element property place selector style := by
      rintro ⟨place, selector, style, h⟩
      exact hsome ⟨_, mem_rulesFor_of_contends h, h.sets⟩
    have hread : property.read ((build additions).computeStyle element) = property.unset := by
      rw [computeStyle, read_foldl_overlay_of_none, Style.Property.read_unset]
      intro rule hmem hsets
      exact hsome ⟨rule, hmem, hsets⟩
    refine ⟨?_, fun h => absurd h hnone, iff_of_true hread hnone⟩
    intro place selector style h
    exact absurd ⟨place, selector, style, h.contends⟩ hnone

end StyleSheet

end StyledTree
