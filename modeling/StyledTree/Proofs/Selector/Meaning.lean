import StyledTree.Proofs.Selector.Reading

/-!
# What a selector in writing picks

`Says` gives the meaning of a text without blanks around it: which elements the selector
picks that is read from it, and how much it weighs. A part of such a text reaches to one
of its ends, so it is blank only if it is empty, and `part` can tell the parts of the
selector by their characters alone.
-/

namespace StyledTree

/-- Whether the type of an element has these characters, apart from their case. -/
def Element.OfType (element : Element) (typeName : List Char) : Prop :=
  Text.lowercased typeName = Text.lowercased element.typeName.toList

namespace Selector

def part (text : List Char) : Option String :=
  if text = [] then none else some (String.ofList text)

@[simp] theorem part_nil : part [] = none := rfl

theorem part_eq_some_iff (text : List Char) (name : String) :
    part text = some name ↔ text ≠ [] ∧ name = String.ofList text := by
  by_cases h : text = [] <;> simp [part, h, eq_comm]

theorem isSome_part (text : List Char) : (part text).isSome = decide (text ≠ []) := by
  by_cases h : text = [] <;> simp [part, h]

theorem all_part (text : List Char) (test : String → Bool) :
    (part text).all test = true ↔ text = [] ∨ test (String.ofList text) = true := by
  by_cases h : text = [] <;> simp [part, h]

theorem givenPart_eq_part {text : List Char} (h : Text.allBlank text = true → text = []) :
    givenPart (some (String.ofList text)) = part text := by
  rw [givenPart_ofList, part]
  by_cases hnil : text = []
  · simp [hnil, Text.allBlank]
  · simp [hnil, mt h hnil]

/-! ## Parts of trimmed texts -/

theorem ofParts_dotted {typeName className : List Char}
    (h : Text.Trimmed (typeName ++ '.' :: className)) :
    ofParts (some (String.ofList typeName)) none (some (String.ofList className)) =
      { typeName := part typeName, className := part className } := by
  have hclass : Text.Trimmed ((typeName ++ ['.']) ++ className) := by simpa using h
  rw [ofParts, givenPart_eq_part h.eq_nil_of_allBlank_left,
    givenPart_eq_part hclass.eq_nil_of_allBlank_right, givenPart_none]

theorem ofParts_hash {id : List Char} (h : Text.Trimmed ('#' :: id)) :
    ofParts none (some (String.ofList id)) none = { id := part id } := by
  have hid : Text.Trimmed (['#'] ++ id) := h
  rw [ofParts, givenPart_eq_part hid.eq_nil_of_allBlank_right, givenPart_none]

theorem ofParts_plain {typeName : List Char} (h : Text.Trimmed typeName) :
    ofParts (some (String.ofList typeName)) none none = { typeName := part typeName } := by
  have htype : Text.Trimmed ([] ++ typeName) := h
  rw [ofParts, givenPart_eq_part htype.eq_nil_of_allBlank_right, givenPart_none]

/-! ## Meaning -/

/-- The selector picks the elements with a property and no others, and has this weight. -/
structure Selects (selector : Selector) (property : Element → Prop) (weight : Nat) : Prop where
  picks_iff : ∀ element, selector.picks element = true ↔ property element
  specificity : selector.specificity = weight

theorem selects_typeAndClass (typeName className : List Char) :
    ({ typeName := part typeName, className := part className } : Selector).Selects
      (fun element => (typeName = [] ∨ element.OfType typeName) ∧
        (className = [] ∨ element.hasClass (String.ofList className) = true))
      ((if typeName = [] then 0 else 1) + if className = [] then 0 else 10) where
  picks_iff element := by
    simp [picks, all_part, Element.OfType, Text.sameIgnoringCase_iff]
  specificity := by
    by_cases htype : typeName = [] <;> by_cases hclass : className = [] <;>
      simp [specificity, isSome_part, htype, hclass]

theorem selects_id (id : List Char) :
    ({ id := part id } : Selector).Selects
      (fun element => id = [] ∨ element.id = some (String.ofList id))
      (if id = [] then 0 else 100) where
  picks_iff element := by simp [picks, all_part]
  specificity := by by_cases hid : id = [] <;> simp [specificity, isSome_part, hid]

/-- The meaning of a text without blanks around it, from which the selector is read. -/
structure Says (text : List Char) (selector : Selector) : Prop where
  dotted : ∀ typeName className, text = typeName ++ '.' :: className → '.' ∉ typeName →
    selector.Selects
      (fun element => (typeName = [] ∨ element.OfType typeName) ∧
        (className = [] ∨ element.hasClass (String.ofList className) = true))
      ((if typeName = [] then 0 else 1) + if className = [] then 0 else 10)
  hash : ∀ id, text = '#' :: id → '.' ∉ text →
    selector.Selects (fun element => id = [] ∨ element.id = some (String.ofList id))
      (if id = [] then 0 else 100)
  plain : '.' ∉ text → text.head? ≠ some '#' →
    selector.Selects (fun element => element.OfType text) 1

theorem Reads.says {text : List Char} {selector : Selector} (h : Reads text selector)
    (htrimmed : Text.Trimmed text) (hne : text ≠ []) : Says text selector where
  dotted typeName className htext first := by
    subst htext
    rw [h.unique (.dotted typeName className first), ofParts_dotted htrimmed]
    exact selects_typeAndClass typeName className
  hash id htext dotless := by
    subst htext
    rw [h.unique (.hash id (List.not_mem_of_not_mem_cons dotless)), ofParts_hash htrimmed]
    exact selects_id id
  plain dotless bare := by
    rw [h.unique (.plain text dotless bare), ofParts_plain htrimmed]
    -- A type alone weighs and picks as it does with an empty class after it.
    have hselects := selects_typeAndClass text []
    simpa [hne] using hselects

theorem Reads.id_alone {text : List Char} {selector : Selector} (h : Reads text selector) :
    selector.id = none ∨ selector.typeName = none ∧ selector.className = none := by
  cases h with
  | dotted typeName className first => exact Or.inl rfl
  | hash id dotless => exact Or.inr ⟨rfl, rfl⟩
  | plain typeName dotless bare => exact Or.inl rfl

/-- Every text is read to its end, and never gives an id together with a type or a class.
Only blank text is refused as a selector, as no good argument. Any other is read without
the blanks around it, and the selector picks and weighs what that text says. -/
theorem parse_says :
    (∀ text, ∃ selector, read text = some (selector, []) ∧
      (selector.id = none ∨ selector.typeName = none ∧ selector.className = none)) ∧
    ∀ text : String,
      ((∃ fault, parse text = .error fault) ↔ Text.allBlank text.toList = true) ∧
      (∀ fault, parse text = .error fault → fault.kind = .invalidArgument) ∧
      (Text.allBlank text.toList = false → ∃ selector, parse text = .ok selector ∧
        read (Text.trim text.toList) = some (selector, []) ∧
        Says (Text.trim text.toList) selector) := by
  refine ⟨?_, ?_⟩
  · intro text
    obtain ⟨selector, hreads⟩ := exists_reads text
    exact ⟨selector, hreads.read_eq, hreads.id_alone⟩
  · intro text
    cases hblank : Text.allBlank text.toList with
    | true =>
        have hparse : parse text = .error .blankSelector := by
          simp [parse, (Text.trim_eq_nil_iff _).mpr hblank]
        simp [hparse, Fault.kind]
    | false =>
        obtain ⟨selector, hparse⟩ := exists_parse_eq_ok hblank
        obtain ⟨-, hreads⟩ := (parse_eq_ok_iff text selector).mp hparse
        have hne : Text.trim text.toList ≠ [] := by simp [Text.trim_eq_nil_iff, hblank]
        have hsays := hreads.says (Text.trimmed_trim text.toList) hne
        simpa [hparse, hreads.read_eq] using hsays

/-- Before a dot a `#` belongs to the type, of which the case does not count. -/
example :
    ∃ selector, parse "\t#App.top " = .ok selector ∧ selector.specificity = 11 ∧
      selector.picks { typeName := "#aPP", classes := ClassSet.empty.insert "top" } = true ∧
      selector.picks { typeName := "#aPP", classes := ClassSet.empty.insert "Top" } = false :=
  ⟨_, rfl, rfl, by decide +kernel, by decide +kernel⟩

end Selector

end StyledTree
