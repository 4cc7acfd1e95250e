import StyledTree.Proofs.Selector.Reading

/-!
# Selectors read, written and read again

Every selector that can be read can be written and read again. It comes back as it was
unless it has no part at all, or has only a type that needs the dot after it: one that
begins like an id, or ends in blanks.
-/

namespace StyledTree.Selector

/-- The selectors that their written form says again. One without parts is written `*`,
which says a type. One with a type only is written without a dot; then a `#` at the
beginning says an id, and blanks at the end are not part of what is said. -/
structure Rereadable (selector : Selector) : Prop where
  ne_any : selector ≠ any
  bare : ∀ typeName, selector = { typeName := some typeName } →
    typeName.toList.head? ≠ some '#' ∧
      ∀ c, typeName.toList.getLast? = some c → Text.isBlank c = false

theorem allBlank_text_ofParts (typeName id className : Option String) :
    Text.allBlank (ofParts typeName id className).text.toList = false := by
  have hstar : Text.allBlank "*".toList = false := by decide
  have hhash : Text.isBlank '#' = false := by decide
  have hdot : Text.isBlank '.' = false := by decide
  unfold text
  split
  · exact hstar
  case isFalse hany =>
    simp only [ofParts, String.toList_append, Text.allBlank_append, Bool.and_eq_false_iff]
    cases htype : givenPart typeName with
    | some given => exact Or.inl (Or.inl (givenPart_eq_some htype).2)
    | none =>
        cases hid : givenPart id with
        | some given => simp [Text.allBlank, hhash]
        | none =>
            cases hclass : givenPart className with
            | some given => simp [Text.allBlank, hdot]
            | none => exact absurd (by simp [ofParts, any, htype, hid, hclass]) hany

theorem Reads.allBlank_text {text : List Char} {selector : Selector} (h : Reads text selector) :
    Text.allBlank selector.text.toList = false := by
  cases h <;> exact allBlank_text_ofParts ..

theorem text_bare (typeName : String) :
    ({ typeName := some typeName } : Selector).text = typeName := by
  simp [text, any]

theorem typeName_ofParts_eq_some {typeName id className : Option String} {given : String}
    (h : (ofParts typeName id className).typeName = some given) : typeName = some given :=
  (givenPart_eq_some h).1

theorem rereadable_of_reads {selector : Selector}
    (h : Reads (Text.trim selector.text.toList) selector) : selector.Rereadable where
  ne_any := by
    rintro rfl
    have hstar : Reads ['*'] { typeName := some "*" } :=
      .plain ['*'] (by decide) (by decide)
    exact absurd (h.unique hstar) (by decide)
  bare typeName hbare := by
    rw [hbare, text_bare] at h
    generalize hwritten : Text.trim typeName.toList = written at h
    generalize hsaid : ({ typeName := some typeName } : Selector) = said at h
    have htype : said.typeName = some typeName := (congrArg Selector.typeName hsaid).symm
    cases h with
    | dotted before after first =>
        -- The type alone has no room for itself and a dot.
        obtain rfl := Option.some.inj (typeName_ofParts_eq_some htype)
        have hle := Text.length_trim_le before
        rw [String.toList_ofList] at hwritten
        rw [hwritten, List.length_append, List.length_cons] at hle
        omega
    | hash id dotless => cases htype
    | plain _ dotless bare =>
        obtain rfl := Option.some.inj (typeName_ofParts_eq_some htype)
        rw [String.toList_ofList] at hwritten ⊢
        have htrimmed := Text.trimmed_trim written
        rw [hwritten] at htrimmed
        exact ⟨bare, htrimmed.last⟩

theorem text_dotted {before after : List Char} (htrimmed : Text.Trimmed (before ++ '.' :: after))
    (hclass : Text.allBlank after = false) :
    (ofParts (some (String.ofList before)) none (some (String.ofList after))).text.toList =
      before ++ '.' :: after := by
  cases htype : Text.allBlank before with
  | true =>
      have hempty : givenPart (some "") = none := by decide
      obtain rfl := htrimmed.eq_nil_of_allBlank_left htype
      simp [text, any, ofParts, givenPart_ofList, hclass, hempty]
  | false => simp [text, any, ofParts, givenPart_ofList, hclass, htype]

theorem ofParts_bare {typeName : List Char} (htype : Text.allBlank typeName = false) :
    ofParts (some (String.ofList typeName)) none none =
      { typeName := some (String.ofList typeName) } := by
  simp [ofParts, givenPart_ofList, htype]

theorem reads_bare {typeName : List Char} (dotless : '.' ∉ typeName)
    (htrimmed : Text.Trimmed typeName) (htype : Text.allBlank typeName = false)
    (bare : typeName.head? ≠ some '#') :
    Reads (Text.trim ({ typeName := some (String.ofList typeName) } : Selector).text.toList)
      { typeName := some (String.ofList typeName) } := by
  rw [text_bare, String.toList_ofList, htrimmed.trim_eq, ← ofParts_bare htype]
  exact .plain typeName dotless bare

theorem reads_text {text : List Char} {selector : Selector} (htrimmed : Text.Trimmed text)
    (hne : text ≠ []) (h : Reads text selector) (hkept : selector.Rereadable) :
    Reads (Text.trim selector.text.toList) selector := by
  cases h with
  | dotted before after first =>
      cases hclass : Text.allBlank after with
      | false =>
          rw [text_dotted htrimmed hclass, htrimmed.trim_eq]
          exact .dotted before after first
      | true =>
          have hnone : ofParts (some (String.ofList before)) none (some (String.ofList after)) =
              ofParts (some (String.ofList before)) none none := by
            simp [ofParts, givenPart_ofList, hclass]
          rw [hnone] at hkept ⊢
          cases htype : Text.allBlank before with
          | true => exact absurd (by simp [ofParts, any, givenPart_ofList, htype]) hkept.ne_any
          | false =>
              rw [ofParts_bare htype] at hkept ⊢
              obtain ⟨bare, hlast⟩ := hkept.bare _ rfl
              rw [String.toList_ofList] at bare hlast
              refine reads_bare first ⟨?_, hlast⟩ htype bare
              intro c hc
              exact htrimmed.first c (by rw [List.head?_append, hc]; rfl)
  | hash id dotless =>
      cases hid : Text.allBlank id with
      | false =>
          have hwritten :
              (ofParts none (some (String.ofList id)) none).text.toList = '#' :: id := by
            simp [Selector.text, any, ofParts, givenPart_ofList, hid]
          rw [hwritten, htrimmed.trim_eq]
          exact .hash id dotless
      | true => exact absurd (by simp [ofParts, any, givenPart_ofList, hid]) hkept.ne_any
  | plain _ dotless bare =>
      have htype := htrimmed.allBlank_eq_false hne
      rw [ofParts_bare htype]
      exact reads_bare dotless htrimmed htype bare

/-- A selector that was read from some text can be read again from its written form, and
comes back as it was exactly if it is one that its written form says. -/
theorem parse_text_of_parse (text : String) (selector : Selector)
    (hparse : parse text = .ok selector) :
    ∃ again, parse selector.text = .ok again ∧ (again = selector ↔ selector.Rereadable) := by
  obtain ⟨hseen, hreads⟩ := (parse_eq_ok_iff text selector).mp hparse
  obtain ⟨again, hagain⟩ := exists_parse_eq_ok hreads.allBlank_text
  obtain ⟨-, hsaid⟩ := (parse_eq_ok_iff selector.text again).mp hagain
  refine ⟨again, hagain, ?_, ?_⟩
  · rintro rfl
    exact rereadable_of_reads hsaid
  · intro hkept
    have hne : Text.trim text.toList ≠ [] := by
      simpa [Text.trim_eq_nil_iff] using hseen
    exact hsaid.unique (reads_text (Text.trimmed_trim _) hne hreads hkept)

/-- Before a dot, a `#` belongs to the type, and it is kept as long as there is a class. -/
theorem parse_text_of_parse_layout :
    let selector : Selector := { typeName := some "#app", className := some "layout" }
    parse " #app.layout\t" = .ok selector ∧
      ∃ again, parse selector.text = .ok again ∧ again = selector := by
  intro selector
  have hparse : parse " #app.layout\t" = .ok selector := rfl
  obtain ⟨again, hagain, hsame⟩ := parse_text_of_parse " #app.layout\t" selector hparse
  refine ⟨hparse, again, hagain, hsame.mpr ⟨by decide, ?_⟩⟩
  intro typeName hbare
  cases congrArg Selector.className hbare

/-- A lone `#` says no part, and is written like a type. -/
theorem parse_text_ne_of_parse_hash :
    ¬∀ text selector, parse text = .ok selector → parse selector.text = .ok selector := by
  intro h
  have hhash : parse "#" = .ok any := rfl
  have hstar : parse any.text = .ok { typeName := some "*" } := rfl
  cases hstar.symm.trans (h "#" any hhash)

example : parse "#app." = .ok { typeName := some "#app" } ∧
    parse "#app" = .ok { id := some "app" } := ⟨rfl, rfl⟩

example : parse "div ." = .ok { typeName := some "div " } ∧
    parse "div " = .ok { typeName := some "div" } := ⟨rfl, rfl⟩

end StyledTree.Selector
