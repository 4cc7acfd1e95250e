import StyledTree.Selector.Reader

/-!
# What a selector in writing says

The reader tries one form after the other. `Reads` gives the forms themselves: a type and
a class around the first dot, an id after `#`, or a type alone. Each text has exactly one
form, and the reader finds it.
-/

namespace StyledTree.Selector

/-- What a text without blanks around it says: the forms of a selector in writing. -/
inductive Reads : List Char → Selector → Prop where
  | dotted (typeName className : List Char) (first : '.' ∉ typeName) :
      Reads (typeName ++ '.' :: className)
        (ofParts (some (String.ofList typeName)) none (some (String.ofList className)))
  | hash (id : List Char) (dotless : '.' ∉ id) :
      Reads ('#' :: id) (ofParts none (some (String.ofList id)) none)
  | plain (typeName : List Char) (dotless : '.' ∉ typeName) (bare : typeName.head? ≠ some '#') :
      Reads typeName (ofParts (some (String.ofList typeName)) none none)

theorem givenPart_ofList (part : List Char) :
    givenPart (some (String.ofList part)) =
      if Text.allBlank part then none else some (String.ofList part) := by
  cases hblank : Text.allBlank part <;> simp [givenPart, hblank]

@[simp] theorem givenPart_none : givenPart none = none := rfl

theorem givenPart_eq_some {part : Option String} {given : String}
    (h : givenPart part = some given) : part = some given ∧ Text.allBlank given.toList = false := by
  obtain ⟨hpart, hseen⟩ := Option.filter_eq_some_iff.mp h
  exact ⟨hpart, by simpa using hseen⟩

theorem readTypeAndClass_append {before : List Char} (first : '.' ∉ before) (after : List Char) :
    readTypeAndClass (before ++ '.' :: after) =
      some (ofParts (some (String.ofList before)) none (some (String.ofList after)), []) := by
  simp [readTypeAndClass, Reader.map, Reader.separatedPair, Reader.preceded, Reader.pair,
    Reader.takeUntil_append first, Reader.char, Reader.rest]

theorem readTypeAndClass_of_not_mem {text : List Char} (dotless : '.' ∉ text) :
    readTypeAndClass text = none := by
  simp [readTypeAndClass, Reader.map, Reader.separatedPair, Reader.pair,
    Reader.takeUntil_of_not_mem dotless]

theorem readId_cons (id : List Char) :
    readId ('#' :: id) = some (ofParts none (some (String.ofList id)) none, []) := rfl

theorem readId_of_head?_ne {text : List Char} (bare : text.head? ≠ some '#') :
    readId text = none := by
  simp [readId, Reader.map, Reader.preceded, Reader.pair, Reader.char_of_head?_ne bare]

theorem readType_eq (text : List Char) :
    readType text = some (ofParts (some (String.ofList text)) none none, []) := rfl

theorem exists_reads (text : List Char) : ∃ selector, Reads text selector := by
  by_cases hdot : '.' ∈ text
  · obtain ⟨before, after, rfl, hfirst⟩ := List.eq_append_cons_of_mem hdot
    exact ⟨_, .dotted before after hfirst⟩
  · by_cases hhash : text.head? = some '#'
    · obtain ⟨id, rfl⟩ := List.head?_eq_some_iff.mp hhash
      exact ⟨_, .hash id (List.not_mem_of_not_mem_cons hdot)⟩
    · exact ⟨_, .plain text hdot hhash⟩

theorem Reads.read_eq {text : List Char} {selector : Selector} (h : Reads text selector) :
    read text = some (selector, []) := by
  cases h with
  | dotted typeName className first =>
      simp [read, Reader.alt_cons, readTypeAndClass_append first className]
  | hash id dotless =>
      have hnone : readTypeAndClass ('#' :: id) = none :=
        readTypeAndClass_of_not_mem (by simp [dotless])
      simp [read, Reader.alt_cons, hnone, readId_cons]
  | plain typeName dotless bare =>
      simp [read, Reader.alt_cons, readTypeAndClass_of_not_mem dotless,
        readId_of_head?_ne bare, readType_eq]

theorem Reads.unique {text : List Char} {selector other : Selector} (h : Reads text selector)
    (h' : Reads text other) : selector = other := by
  have hread := h.read_eq
  rw [h'.read_eq] at hread
  simpa using hread.symm

theorem parse_eq_ok_iff (text : String) (selector : Selector) :
    parse text = .ok selector ↔
      Text.allBlank text.toList = false ∧ Reads (Text.trim text.toList) selector := by
  obtain ⟨said, hsaid⟩ := exists_reads (Text.trim text.toList)
  by_cases hblank : Text.allBlank text.toList = true
  · simp [parse, (Text.trim_eq_nil_iff _).mpr hblank, hblank]
  · have hne : Text.trim text.toList ≠ [] := mt (Text.trim_eq_nil_iff _).mp hblank
    simp only [parse, List.isEmpty_iff, hne, hsaid.read_eq, hblank, if_false, Except.ok.injEq,
      true_and]
    constructor
    · rintro rfl
      exact hsaid
    · exact hsaid.unique

theorem exists_parse_eq_ok {text : String} (h : Text.allBlank text.toList = false) :
    ∃ selector, parse text = .ok selector := by
  obtain ⟨selector, hreads⟩ := exists_reads (Text.trim text.toList)
  exact ⟨selector, (parse_eq_ok_iff text selector).mpr ⟨h, hreads⟩⟩

end StyledTree.Selector
