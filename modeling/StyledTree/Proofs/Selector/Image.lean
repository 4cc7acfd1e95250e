import StyledTree.Proofs.Selector.Meaning

/-!
# Which selectors can be written

A selector is read from some text exactly if it has a type and a class, either of which
may be missing, or an id alone, and these can stand in their place around a dot or after
`#`. Written there they are read again as they are.
-/

namespace StyledTree.Selector

/-- Texts that are read as a type when they stand before a dot at the beginning. -/
structure CanLead (name : String) : Prop where
  ne_empty : name ≠ ""
  dotless : '.' ∉ name.toList
  first : ∀ c, name.toList.head? = some c → Text.isBlank c = false

/-- Texts that are kept as they are at the end. -/
structure CanTrail (name : String) : Prop where
  ne_empty : name ≠ ""
  last : ∀ c, name.toList.getLast? = some c → Text.isBlank c = false

/-- The selectors that can be written around a dot. -/
structure Dotted (selector : Selector) : Prop where
  id : selector.id = none
  typeName : ∀ name, selector.typeName = some name → CanLead name
  className : ∀ name, selector.className = some name → CanTrail name

/-- The selectors that can be written after `#`: those with nothing but such an id. -/
def Hashed (selector : Selector) : Prop :=
  ∃ id, selector = { id := some id } ∧ CanTrail id ∧ '.' ∉ id.toList

theorem CanLead.allBlank_eq_false {name : String} (h : CanLead name) :
    Text.allBlank name.toList = false := by
  have hne : name.toList ≠ [] := by simpa using h.ne_empty
  obtain ⟨c, later, hname⟩ := List.exists_cons_of_ne_nil hne
  have hseen := h.first c (by rw [hname, List.head?_cons])
  simp [hname, Text.allBlank, hseen]

theorem CanTrail.allBlank_eq_false {name : String} (h : CanTrail name) :
    Text.allBlank name.toList = false := by
  have hne : name.toList ≠ [] := by simpa using h.ne_empty
  have hseen := h.last _ (List.getLast?_eq_some_getLast hne)
  rw [Text.allBlank, List.all_eq_false]
  exact ⟨_, List.getLast_mem hne, by simp [hseen]⟩

/-! ## What is read -/

theorem canLead_of_part {text after : List Char} (htrimmed : Text.Trimmed (text ++ after))
    (dotless : '.' ∉ text) {name : String} (hname : part text = some name) : CanLead name := by
  obtain ⟨hne, rfl⟩ := (part_eq_some_iff ..).mp hname
  constructor
  · simpa using hne
  · simpa using dotless
  · intro c hc
    rw [String.toList_ofList] at hc
    exact htrimmed.first c (by simp [hc])

theorem canTrail_of_part {before text : List Char} (htrimmed : Text.Trimmed (before ++ text))
    {name : String} (hname : part text = some name) : CanTrail name := by
  obtain ⟨hne, rfl⟩ := (part_eq_some_iff ..).mp hname
  constructor
  · simpa using hne
  · intro c hc
    rw [String.toList_ofList] at hc
    exact htrimmed.last c (by simp [hc])

theorem dotted_of_parts {typeName className : List Char} (dotless : '.' ∉ typeName)
    (htrimmed : Text.Trimmed (typeName ++ '.' :: className)) :
    ({ typeName := part typeName, className := part className } : Selector).Dotted where
  id := rfl
  typeName _ := canLead_of_part htrimmed dotless
  className _ := by
    rw [List.append_cons] at htrimmed
    exact canTrail_of_part htrimmed

theorem Reads.dotted_or_hashed {text : List Char} {selector : Selector} (h : Reads text selector)
    (htrimmed : Text.Trimmed text) : selector.Dotted ∨ selector.Hashed := by
  cases h with
  | dotted typeName className first =>
      rw [ofParts_dotted htrimmed]
      exact Or.inl (dotted_of_parts first htrimmed)
  | hash id dotless =>
      rw [ofParts_hash htrimmed]
      by_cases hid : id = []
      · -- Without an id there is no part at all, as around a dot alone.
        rw [hid]
        exact Or.inl ⟨rfl, by simp, by simp⟩
      · have hname : part id = some (String.ofList id) := (part_eq_some_iff ..).mpr ⟨hid, rfl⟩
        have htrail : Text.Trimmed (['#'] ++ id) := htrimmed
        rw [hname]
        exact Or.inr ⟨_, rfl, canTrail_of_part htrail hname, by simpa using dotless⟩
  | plain _ dotless bare =>
      rw [ofParts_plain htrimmed]
      rw [← List.append_nil text] at htrimmed
      exact Or.inl ⟨rfl, fun _ => canLead_of_part htrimmed dotless, by simp⟩

/-! ## What is written -/

theorem parse_of_reads {text : String} {selector : Selector} (h : Reads text.toList selector)
    (htrimmed : Text.Trimmed text.toList) (hne : text.toList ≠ []) :
    parse text = .ok selector := by
  rw [parse_eq_ok_iff, htrimmed.trim_eq]
  exact ⟨htrimmed.allBlank_eq_false hne, h⟩

theorem givenPart_getD {part : Option String}
    (h : ∀ name, part = some name → Text.allBlank name.toList = false) :
    givenPart (some (part.getD "")) = part := by
  cases part with
  | none => rfl
  | some name => simp [givenPart, h name rfl]

theorem lead_getD {part : Option String} (h : ∀ name, part = some name → CanLead name) :
    '.' ∉ (part.getD "").toList ∧
      ∀ c, (part.getD "").toList.head? = some c → Text.isBlank c = false := by
  cases part with
  | none => simp
  | some name => exact ⟨(h name rfl).dotless, (h name rfl).first⟩

theorem trail_getD {part : Option String} (h : ∀ name, part = some name → CanTrail name) :
    ∀ c, (part.getD "").toList.getLast? = some c → Text.isBlank c = false := by
  cases part with
  | none => simp
  | some name => exact (h name rfl).last

theorem Dotted.ofParts_eq {selector : Selector} (h : selector.Dotted) :
    ofParts (some (selector.typeName.getD "")) none (some (selector.className.getD "")) =
      selector := by
  rw [ofParts, givenPart_getD fun name hname => (h.typeName name hname).allBlank_eq_false,
    givenPart_getD fun name hname => (h.className name hname).allBlank_eq_false, givenPart_none,
    ← h.id]

theorem Dotted.parse_eq {selector : Selector} (h : selector.Dotted) :
    parse (selector.typeName.getD "" ++ "." ++ selector.className.getD "") = .ok selector := by
  obtain ⟨dotless, first⟩ := lead_getD h.typeName
  have htext : (selector.typeName.getD "" ++ "." ++ selector.className.getD "").toList =
      (selector.typeName.getD "").toList ++ '.' :: (selector.className.getD "").toList := by
    simp
  have hreads := Reads.dotted _ (selector.className.getD "").toList dotless
  rw [String.ofList_toList, String.ofList_toList, h.ofParts_eq, ← htext] at hreads
  have htrimmed := Text.trimmed_around (show Text.isBlank '.' = false by decide) first
    (trail_getD h.className)
  rw [← htext] at htrimmed
  exact parse_of_reads hreads htrimmed (by simp)

theorem Hashed.parse_eq {selector : Selector} (h : selector.Hashed) :
    parse ("#" ++ selector.id.getD "") = .ok selector := by
  obtain ⟨id, rfl, htrail, dotless⟩ := h
  show parse ("#" ++ id) = .ok { id := some id }
  have htext : ("#" ++ id).toList = [] ++ '#' :: id.toList := by simp
  have hreads := Reads.hash id.toList dotless
  have hgiven : givenPart (some id) = some id := by simp [givenPart, htrail.allBlank_eq_false]
  rw [String.ofList_toList, ofParts, hgiven, givenPart_none] at hreads
  have htrimmed : Text.Trimmed ("#" ++ id).toList := by
    rw [htext]
    exact Text.trimmed_around (by decide) (by simp) htrail.last
  exact parse_of_reads (by rwa [htext]) htrimmed (by simp)

/-- A selector is read from some text exactly if it has no id, and its type and class, if
any, can stand before and after a dot, or if it has an id only, which can stand after
`#`. Written in this place the parts are read again as that selector. -/
theorem exists_parse_eq_ok_iff (selector : Selector) :
    ((∃ text, parse text = .ok selector) ↔ selector.Dotted ∨ selector.Hashed) ∧
      (selector.Dotted →
        parse (selector.typeName.getD "" ++ "." ++ selector.className.getD "") = .ok selector) ∧
      (selector.Hashed → parse ("#" ++ selector.id.getD "") = .ok selector) := by
  refine ⟨⟨?_, ?_⟩, Dotted.parse_eq, Hashed.parse_eq⟩
  · rintro ⟨text, hparse⟩
    obtain ⟨-, hreads⟩ := (parse_eq_ok_iff text selector).mp hparse
    exact hreads.dotted_or_hashed (Text.trimmed_trim text.toList)
  · rintro (h | h)
    · exact ⟨_, h.parse_eq⟩
    · exact ⟨_, h.parse_eq⟩

/-- What follows the dot is one class, whatever is in it. -/
example : parse ". a.b" = .ok { className := some " a.b" } := rfl

end StyledTree.Selector
