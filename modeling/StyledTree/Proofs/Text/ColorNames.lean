import Mathlib.Data.List.Forall2
import StyledTree.Color

/-!
# The texts that name a color

A text is folded before it is looked up: the blanks around it are dropped and ASCII capitals
become small. Each color answers to its name, and to its name without the hyphen; no two
colors answer to the same name. A color is read exactly from the texts that fold to a name to
which it answers, so whatever else the search for a missing hyphen makes up is refused.
-/

namespace StyledTree

namespace Text

/-! ## Folded texts -/

/-- The second character is the first one, in lower case if that is an ASCII capital. -/
def LowersTo (c d : Char) : Prop :=
  if 'A' ≤ c ∧ c ≤ 'Z' then d.toNat = c.toNat + 32 else d = c

theorem toLower_eq_iff (c d : Char) : c.toLower = d ↔ LowersTo c d := by
  unfold Char.toLower LowersTo
  by_cases hcapital : c.val ≥ 'A'.val ∧ c.val ≤ 'Z'.val
  · have hlast : c.val.toNat ≤ 90 := hcapital.2
    have hsmall : (c.val + ('a'.val - 'A'.val)).toNat = c.val.toNat + 32 := by
      rw [UInt32.toNat_add, show ('a'.val - 'A'.val).toNat = 32 from rfl]
      exact Nat.mod_eq_of_lt (by omega)
    rw [dif_pos hcapital, if_pos (show 'A' ≤ c ∧ c ≤ 'Z' from hcapital), Char.ext_iff,
      ← UInt32.toNat_inj, hsmall]
    exact eq_comm
  · rw [dif_neg hcapital, if_neg (show ¬('A' ≤ c ∧ c ≤ 'Z') from hcapital)]
    exact eq_comm

/-- The name stands in the text with nothing but blanks around it, and may have ASCII capitals
there for its small letters. -/
def FoldsTo (text name : List Char) : Prop :=
  ∃ before written after, text = before ++ written ++ after ∧
    allBlank before = true ∧ allBlank after = true ∧ Trimmed written ∧
    List.Forall₂ LowersTo written name

theorem toList_fold_eq_iff (text : String) (name : List Char) :
    (fold text).toList = name ↔ FoldsTo text.toList name := by
  have hlower (written : List Char) :
      asciiLower written = name ↔ List.Forall₂ LowersTo written name := by
    have hrelation : LowersTo = fun c d => c.toLower = d := by
      funext c d
      exact propext (toLower_eq_iff c d).symm
    rw [hrelation, asciiLower, ← List.forall₂_map_left_iff, List.forall₂_eq_eq_eq]
  rw [fold, String.toList_ofList]
  constructor
  · intro hname
    obtain ⟨before, after, htext, hbefore, hafter⟩ := exists_around_trim text.toList
    exact ⟨before, _, after, htext, hbefore, hafter, trimmed_trim _, (hlower _).mp hname⟩
  · rintro ⟨before, written, after, htext, hbefore, hafter, htrimmed, hname⟩
    rw [htext, htrimmed.trim_between hbefore hafter]
    exact (hlower written).mpr hname

end Text

namespace Color

/-! ## Names of colors -/

/-- The name is that of the color, with or without its hyphen. -/
def Answers (color : Color) (name : List Char) : Prop :=
  name = color.name.toList ∨ name = color.name.toList.erase '-'

theorem ofName?_name (color : Color) : ofName? color.name.toList = some color := by
  cases color <;> rfl

theorem ofName?_eq_some_iff (name : List Char) (color : Color) :
    ofName? name = some color ↔ name = color.name.toList := by
  constructor
  · intro hfound
    rw [ofName?] at hfound
    exact (beq_iff_eq.mp (List.find?_some hfound :)).symm
  · rintro rfl
    exact ofName?_name color

theorem dark_of_hyphen (color : Color) (h : '-' ∈ color.name.toList) :
    darkWord ++ ['-'] <+: color.name.toList := by
  revert h
  cases color <;> decide

theorem ofName?_erase (color : Color) (h : '-' ∈ color.name.toList) :
    ofName? (color.name.toList.erase '-') = none := by
  revert h
  cases color <;> decide

theorem isPrefixOf?_eq_some_iff {word name rest : List Char} :
    word.isPrefixOf? name = some rest ↔ name = word ++ rest := by
  induction word generalizing name with
  | nil => simp [List.isPrefixOf?]
  | cons c word ih =>
      cases name with
      | nil => simp [List.isPrefixOf?]
      | cons d name =>
          by_cases hfirst : c = d
          · simp [List.isPrefixOf?, hfirst, ih]
          · simp [List.isPrefixOf?, hfirst, Ne.symm hfirst]

theorem hyphenated?_eq_some_iff (name other : List Char) :
    hyphenated? name = some other ↔
      ∃ rest, name = darkWord ++ rest ∧ other = darkWord ++ '-' :: rest := by
  simp only [hyphenated?, Option.map_eq_some_iff, isPrefixOf?_eq_some_iff, @eq_comm _ other]

theorem bind_hyphenated?_eq_some_iff (name : List Char) (color : Color) :
    (hyphenated? name).bind ofName? = some color ↔
      '-' ∈ color.name.toList ∧ name = color.name.toList.erase '-' := by
  have hdark : '-' ∉ darkWord := by decide
  have herase (rest : List Char) : (darkWord ++ '-' :: rest).erase '-' = darkWord ++ rest := by
    rw [List.erase_append_right _ hdark, List.erase_cons_head]
  simp only [Option.bind_eq_some_iff, hyphenated?_eq_some_iff, ofName?_eq_some_iff]
  constructor
  · rintro ⟨_, ⟨rest, rfl, rfl⟩, hname⟩
    rw [← hname, herase]
    exact ⟨by simp, rfl⟩
  · rintro ⟨hhyphen, rfl⟩
    obtain ⟨rest, hrest⟩ := dark_of_hyphen color hhyphen
    rw [List.append_assoc, List.singleton_append] at hrest
    refine ⟨_, ⟨rest, ?_, rfl⟩, hrest⟩
    rw [← hrest, herase]

theorem lookup_eq_some_iff (name : List Char) (color : Color) :
    (ofName? name).or ((hyphenated? name).bind ofName?) = some color ↔ color.Answers name := by
  simp only [Option.or_eq_some_iff, ofName?_eq_some_iff, bind_hyphenated?_eq_some_iff, Answers]
  constructor
  · rintro (hname | ⟨-, -, hname⟩)
    · exact Or.inl hname
    · exact Or.inr hname
  · rintro (hname | hname)
    · exact Or.inl hname
    · by_cases hhyphen : '-' ∈ color.name.toList
      · exact Or.inr ⟨by rw [hname]; exact ofName?_erase color hhyphen, hhyphen, hname⟩
      · exact Or.inl (by rwa [List.erase_of_not_mem hhyphen] at hname)

theorem Answers.unique {color other : Color} {name : List Char} (h : color.Answers name)
    (h' : other.Answers name) : color = other := by
  rw [← lookup_eq_some_iff] at h h'
  exact Option.some.inj (h.symm.trans h')

theorem parse_eq_ok_iff (text : String) (color : Color) :
    parse text = .ok color ↔ ∃ name, Text.FoldsTo text.toList name ∧ color.Answers name := by
  have hfound : parse text = .ok color ↔ ofText? text = some color := by
    unfold parse
    cases ofText? text <;> simp
  rw [hfound, ofText?, lookup_eq_some_iff]
  simp only [← Text.toList_fold_eq_iff, exists_eq_left']

theorem parse_eq_error {text : String} (h : ∀ color, parse text ≠ .ok color) :
    parse text = .error (.unknownColor text) := by
  unfold parse at h ⊢
  cases hfound : ofText? text with
  | none => rfl
  | some color => simp [hfound] at h

theorem count_name_le (color : Color) :
    color.name.toList.count '-' ≤ 1 ∧ color.name.toList.count 'k' ≤ 1 ∧
      ∀ c ∈ color.name.toList, c.toNat < 128 := by
  have hascii : color.name.toList.all (fun c => decide (c.toNat < 128)) = true := by
    cases color <;> decide
  exact ⟨by cases color <;> decide, by cases color <;> decide, by simpa using hascii⟩

theorem Answers.sublist {color : Color} {name : List Char} (h : color.Answers name) :
    name.Sublist color.name.toList := by
  rcases h with rfl | rfl
  · exact List.Sublist.refl _
  · exact List.erase_sublist

/-- Two hyphens or a second `dark` in it, or a character that is not ASCII. -/
def Spoiled (name : List Char) : Prop :=
  2 ≤ name.count '-' ∨
    (∃ before between after, name = before ++ darkWord ++ between ++ darkWord ++ after) ∨
    ∃ c ∈ name, 128 ≤ c.toNat

theorem Answers.not_spoiled {color : Color} {name : List Char} (h : color.Answers name) :
    ¬Spoiled name := by
  obtain ⟨hhyphens, hdarks, hascii⟩ := color.count_name_le
  rintro (htwice | ⟨before, between, after, rfl⟩ | ⟨c, hmem, hc⟩)
  · have := h.sublist.count_le '-'
    omega
  · -- Each `dark` brings a `k` with it.
    have hle := h.sublist.count_le 'k'
    simp only [List.count_append, show darkWord.count 'k' = 1 from rfl] at hle
    omega
  · have := hascii c (h.sublist.subset hmem)
    omega

theorem fold_name (color : Color) : Text.fold color.name = color.name := by
  cases color <;> decide

/-- A color is read from exactly the texts that fold to its name, with or without the hyphen
of it. Any other text is refused as no good argument. No two colors answer to one name, and
none to a name with two hyphens, with a second `dark` or with characters that are not ASCII.
Each color is read from its own name. -/
theorem parse_answers :
    (∀ text name, (Text.fold text).toList = name ↔ Text.FoldsTo text.toList name) ∧
    (∀ text color, parse text = .ok color ↔
      ∃ name, Text.FoldsTo text.toList name ∧ color.Answers name) ∧
    (∀ text, (∀ color, parse text ≠ .ok color) →
      parse text = .error (.unknownColor text) ∧
        (Fault.unknownColor text).kind = .invalidArgument) ∧
    (∀ name (color other : Color), color.Answers name → other.Answers name → color = other) ∧
    (∀ text name, Text.FoldsTo text.toList name → Spoiled name →
      parse text = .error (.unknownColor text)) ∧
    ∀ color, parse color.name = .ok color := by
  refine ⟨Text.toList_fold_eq_iff, parse_eq_ok_iff, fun text h => ⟨parse_eq_error h, rfl⟩,
    fun name color other h => h.unique, ?_, ?_⟩
  · intro text name hfolds hspoiled
    refine parse_eq_error fun color hparse => ?_
    obtain ⟨name', hfolds', hanswers⟩ := (parse_eq_ok_iff text color).mp hparse
    rw [← Text.toList_fold_eq_iff] at hfolds hfolds'
    obtain rfl := hfolds.symm.trans hfolds'
    exact hanswers.not_spoiled hspoiled
  · intro color
    refine (parse_eq_ok_iff color.name color).mpr ⟨color.name.toList, ?_, Or.inl rfl⟩
    rw [← Text.toList_fold_eq_iff, fold_name]

/-- A name in capitals between other blanks than spaces, one with two hyphens, and one of
which the last letter only looks like its capital. -/
theorem parse_answers_blue :
    Text.FoldsTo "\u00a0Dark-BLUE\u3000".toList "dark-blue".toList ∧
      darkBlue.Answers "dark-blue".toList ∧
      parse "\u00a0Dark-BLUE\u3000" = .ok .darkBlue ∧
    Text.FoldsTo "Dark--blue".toList "dark--blue".toList ∧ Spoiled "dark--blue".toList ∧
      parse "Dark--blue" = .error (.unknownColor "Dark--blue") ∧
    (∀ color, parse "blac\u212a" ≠ .ok color) ∧
      (Fault.unknownColor "blac\u212a").kind = .invalidArgument := by
  obtain ⟨hfold, hparse, hother, hunique, hspoiled, hname⟩ := parse_answers
  have hblue : Text.FoldsTo "\u00a0Dark-BLUE\u3000".toList "dark-blue".toList :=
    (hfold _ _).mp (by decide)
  have hdouble : Text.FoldsTo "Dark--blue".toList "dark--blue".toList := (hfold _ _).mp (by decide)
  have hhyphens : Spoiled "dark--blue".toList := Or.inl (by decide)
  have hkelvin : ∀ color, parse "blac\u212a" ≠ .ok color := by
    intro color
    cases color <;> decide
  exact ⟨hblue, Or.inl rfl, (hparse _ _).mpr ⟨_, hblue, Or.inl rfl⟩, hdouble, hhyphens,
    hspoiled _ _ hdouble hhyphens, hkelvin, (hother _ hkelvin).2⟩

/-- The hyphen that is put in after `dark` alone leads nowhere. -/
example : parse "dark" = .error (.unknownColor "dark") := by decide

end Color

end StyledTree
