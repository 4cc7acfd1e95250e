import StyledTree.Text.CodeRanges

/-!
# Blank and control characters

White space in the sense of Unicode, text without the blanks around it, and the
characters that a terminal takes as an instruction instead of showing them.
-/

namespace StyledTree.Text

def blanks : CodeRanges :=
  [(0x9, 0xD), (0x20, 0x20), (0x85, 0x85), (0xA0, 0xA0), (0x1680, 0x1680),
    (0x2000, 0x200A), (0x2028, 0x2029), (0x202F, 0x202F), (0x205F, 0x205F),
    (0x3000, 0x3000)]

def isBlank (c : Char) : Bool := blanks.holds c.toNat

/-- Whether there is nothing to see: no character, or blanks only. -/
def allBlank (text : List Char) : Bool := text.all isBlank

def trimStart (text : List Char) : List Char := text.dropWhile isBlank

def trimEnd (text : List Char) : List Char :=
  (text.reverse.dropWhile isBlank).reverse

def trim (text : List Char) : List Char := trimEnd (trimStart text)

theorem allBlank_append (before after : List Char) :
    allBlank (before ++ after) = (allBlank before && allBlank after) :=
  List.all_append

theorem trimStart_eq_nil_iff (text : List Char) :
    trimStart text = [] ↔ allBlank text = true := by
  induction text with
  | nil => simp [trimStart, allBlank]
  | cons c text ih =>
      cases hc : isBlank c <;> simp_all [trimStart, allBlank]

theorem trimEnd_eq_nil_iff (text : List Char) :
    trimEnd text = [] ↔ allBlank text = true := by
  rw [trimEnd, List.reverse_eq_nil_iff]
  exact (trimStart_eq_nil_iff text.reverse).trans (by simp [allBlank])

/-- No blank at either end. -/
structure Trimmed (text : List Char) : Prop where
  first : ∀ c, text.head? = some c → isBlank c = false
  last : ∀ c, text.getLast? = some c → isBlank c = false

theorem trimStart_eq_self {text : List Char}
    (first : ∀ c, text.head? = some c → isBlank c = false) : trimStart text = text := by
  cases text with
  | nil => rfl
  | cons c later => simp [trimStart, first c rfl]

theorem trimEnd_eq_self {text : List Char}
    (last : ∀ c, text.getLast? = some c → isBlank c = false) : trimEnd text = text := by
  have hstart : trimStart text.reverse = text.reverse :=
    trimStart_eq_self fun c hc => last c (by rwa [List.head?_reverse] at hc)
  rw [trimEnd, ← trimStart, hstart, List.reverse_reverse]

theorem Trimmed.trim_eq {text : List Char} (h : Trimmed text) : trim text = text := by
  rw [trim, trimStart_eq_self h.first, trimEnd_eq_self h.last]

theorem head?_trimStart (text : List Char) (c : Char) (hc : (trimStart text).head? = some c) :
    isBlank c = false := by
  have hhead := List.head?_dropWhile_not isBlank text
  rw [trimStart] at hc
  simpa [hc] using hhead

theorem getLast?_trimEnd (text : List Char) (c : Char) (hc : (trimEnd text).getLast? = some c) :
    isBlank c = false := by
  rw [trimEnd, List.getLast?_reverse] at hc
  exact head?_trimStart text.reverse c hc

theorem trimEnd_initial (text : List Char) : trimEnd text <+: text := by
  rw [trimEnd, ← List.reverse_suffix, List.reverse_reverse]
  exact List.dropWhile_suffix isBlank

theorem trimmed_trim (text : List Char) : Trimmed (trim text) where
  first c hc := by
    obtain ⟨after, hafter⟩ := trimEnd_initial (trimStart text)
    refine head?_trimStart text c ?_
    rw [← hafter, List.head?_append, show (trimEnd (trimStart text)).head? = some c from hc]
    rfl
  last := getLast?_trimEnd (trimStart text)

theorem trim_eq_nil_iff (text : List Char) : trim text = [] ↔ allBlank text = true := by
  rw [trim, trimEnd_eq_nil_iff, ← trimStart_eq_nil_iff, trimStart_eq_self (head?_trimStart text),
    trimStart_eq_nil_iff]

theorem trimmed_around {before after : List Char} {c : Char} (hc : isBlank c = false)
    (first : ∀ d, before.head? = some d → isBlank d = false)
    (last : ∀ d, after.getLast? = some d → isBlank d = false) :
    Trimmed (before ++ c :: after) where
  first d hd := by
    cases before with
    | nil =>
        cases hd
        exact hc
    | cons b later => exact first d hd
  last d hd := by
    rw [List.getLast?_append, List.getLast?_cons, Option.some_or, Option.some.injEq] at hd
    subst hd
    cases hlast : after.getLast? with
    | none => exact hc
    | some b => exact last b hlast

theorem Trimmed.eq_nil_of_allBlank_left {before after : List Char} (h : Trimmed (before ++ after))
    (hblank : allBlank before = true) : before = [] := by
  cases before with
  | nil => rfl
  | cons c later =>
      have hseen := h.first c rfl
      simp [allBlank, hseen] at hblank

theorem Trimmed.eq_nil_of_allBlank_right {before after : List Char}
    (h : Trimmed (before ++ after)) (hblank : allBlank after = true) : after = [] := by
  cases hlast : after.getLast? with
  | none => exact List.getLast?_eq_none_iff.mp hlast
  | some c =>
      have hseen := h.last c (by simp [List.getLast?_append, hlast])
      have hunseen := List.all_eq_true.mp hblank c (List.mem_of_getLast? hlast)
      simp [hseen] at hunseen

theorem Trimmed.allBlank_eq_false {text : List Char} (h : Trimmed text) (hne : text ≠ []) :
    allBlank text = false := by
  cases text with
  | nil => exact absurd rfl hne
  | cons c later => simp [allBlank, h.first c rfl]

theorem length_trim_le (text : List Char) : (trim text).length ≤ text.length :=
  Nat.le_trans (trimEnd_initial _).length_le (List.dropWhile_suffix isBlank).length_le

theorem trimStart_append_of_allBlank {before : List Char} (hblank : allBlank before = true)
    (text : List Char) : trimStart (before ++ text) = trimStart text :=
  List.dropWhile_append_of_pos (List.all_eq_true.mp hblank)

theorem trimEnd_append_of_allBlank {after : List Char} (hblank : allBlank after = true)
    (text : List Char) : trimEnd (text ++ after) = trimEnd text := by
  have hreverse : allBlank after.reverse = true := by simpa [allBlank] using hblank
  rw [trimEnd, List.reverse_append]
  exact congrArg List.reverse (trimStart_append_of_allBlank hreverse text.reverse)

theorem Trimmed.trim_between {before text after : List Char} (h : Trimmed text)
    (hbefore : allBlank before = true) (hafter : allBlank after = true) :
    trim (before ++ text ++ after) = text := by
  rw [trim, List.append_assoc, trimStart_append_of_allBlank hbefore]
  cases text with
  | nil => rw [List.nil_append, (trimStart_eq_nil_iff after).mpr hafter]; rfl
  | cons c text =>
      have hfirst : trimStart (c :: text ++ after) = c :: text ++ after :=
        trimStart_eq_self fun d hd => h.first d hd
      rw [hfirst, trimEnd_append_of_allBlank hafter, trimEnd_eq_self h.last]

theorem exists_around_trim (text : List Char) :
    ∃ before after, text = before ++ trim text ++ after ∧ allBlank before = true ∧
      allBlank after = true := by
  have hstart : text.takeWhile isBlank ++ trimStart text = text := List.takeWhile_append_dropWhile
  have hend : trimEnd (trimStart text) ++ ((trimStart text).reverse.takeWhile isBlank).reverse =
      trimStart text := by
    rw [trimEnd, ← List.reverse_append, List.takeWhile_append_dropWhile, List.reverse_reverse]
  refine ⟨text.takeWhile isBlank, ((trimStart text).reverse.takeWhile isBlank).reverse, ?_,
    List.all_takeWhile, ?_⟩
  · rw [trim, List.append_assoc, hend, hstart]
  · rw [allBlank, List.all_reverse]
    exact List.all_takeWhile

/-- The ASCII letters in lower case, everything else as it is. -/
def asciiLower (text : List Char) : List Char := text.map Char.toLower

/-- The form in which names are looked up: no blanks around, ASCII letters in
lower case. -/
def fold (text : String) : String := String.ofList (asciiLower (trim text.toList))

/-! ## Control characters -/

/-- The control characters of ASCII and of its eight-bit extension. -/
def isControl (c : Char) : Bool :=
  c.toNat < 0x20 || (0x7F ≤ c.toNat && c.toNat ≤ 0x9F)

/-- Whether a terminal would take part of the text as an instruction. -/
def hasControl (text : List Char) : Bool := text.any isControl

end StyledTree.Text
