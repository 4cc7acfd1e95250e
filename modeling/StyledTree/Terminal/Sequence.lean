import StyledTree.Terminal.Basic
import StyledTree.Text.Blank

/-!
# Control sequences on the wire

A control sequence goes from an escape character to the next letter, and what is
outside of such sequences is shown. Every command but a print is one sequence. So the
commands can be told apart from what is printed as long as nothing printed contains a
control character.
-/

namespace StyledTree

namespace Text

theorem hasControl_eq_false_iff {text : List Char} :
    hasControl text = false ↔ ∀ c ∈ text, isControl c = false := by
  simp [hasControl]

@[simp] theorem hasControl_append (before after : List Char) :
    hasControl (before ++ after) = (hasControl before || hasControl after) :=
  List.any_append

end Text

namespace Terminal

def escape : Char := '\x1b'

theorem isControl_escape : Text.isControl escape = true := by decide

/-- What is shown of characters that arrive one by one; `within` tells whether the
first of them belongs to a sequence that has begun before. -/
def shownFrom (within : Bool) : List Char → List Char
  | [] => []
  | c :: later =>
      if within then shownFrom (!c.isAlpha) later
      else if c = escape then shownFrom true later
      else c :: shownFrom false later

/-- The characters outside of control sequences. -/
def shownOf (text : List Char) : List Char := shownFrom false text

/-- Whether a character may stand between the first and the last of a sequence. -/
def isParameter (c : Char) : Bool := !c.isAlpha && !Text.isControl c

theorem isParameter_of_isDigit {c : Char} (h : c.isDigit = true) : isParameter c = true := by
  simp only [Char.isDigit, Bool.and_eq_true, decide_eq_true_eq, ge_iff_le,
    UInt32.le_iff_toNat_le] at h
  have hcode : 48 ≤ c.toNat ∧ c.toNat ≤ 57 := h
  -- Letters of both kinds have greater codes.
  have hupper : c.isUpper = false := by
    refine decide_eq_false fun hin => ?_
    have hcode' : 65 ≤ c.toNat := hin.1
    omega
  have hlower : c.isLower = false := by
    have hbelow : decide (c.val ≥ 'a'.val) = false := by
      refine decide_eq_false fun hin => ?_
      have hcode' : 97 ≤ c.toNat := hin
      omega
    exact congrArg (· && decide (c.val ≤ 'z'.val)) hbelow
  have hletter : c.isAlpha = false := by
    show (c.isUpper || c.isLower) = false
    rw [hupper, hlower]
    rfl
  have hcontrol : Text.isControl c = false := by
    simp only [Text.isControl, Bool.or_eq_false_iff, Bool.and_eq_false_iff,
      decide_eq_false_iff_not]
    omega
  rw [isParameter, hletter, hcontrol]
  rfl

theorem all_isParameter_toString (n : Nat) : (toString n).toList.all isParameter = true := by
  rw [List.all_eq_true]
  intro c hc
  rw [Nat.toString_eq_repr, Nat.toList_repr] at hc
  exact isParameter_of_isDigit (Nat.isDigit_of_mem_toDigits (by decide) (by decide) hc)

theorem Color.all_isParameter_parameters {layer : String}
    (hlayer : layer.toList.all isParameter = true) (color : Color) :
    (color.parameters layer).toList.all isParameter = true := by
  cases color with
  | reset =>
      have hlast : isParameter '9' = true := by decide
      simp [parameters, hlayer, hlast]
  | solid color =>
      have hmode : "8;5;".toList.all isParameter = true := by decide
      simp only [parameters, String.toList_append, List.all_append, hlayer, hmode,
        all_isParameter_toString, Bool.and_self]

def IsSequence (text : List Char) : Prop :=
  ∃ parameters final, text = escape :: (parameters ++ [final]) ∧
    parameters.all isParameter = true ∧ final.isAlpha = true ∧ Text.isControl final = false

theorem shownFrom_parameters {parameters : List Char}
    (hparameters : parameters.all isParameter = true) (later : List Char) :
    shownFrom true (parameters ++ later) = shownFrom true later := by
  induction parameters with
  | nil => rfl
  | cons c parameters ih =>
      obtain ⟨hc, hrest⟩ : isParameter c = true ∧ parameters.all isParameter = true := by
        simpa using hparameters
      have hletter : c.isAlpha = false := by
        simpa using (Bool.and_eq_true_iff.mp hc).1
      simpa [shownFrom, hletter] using ih hrest

theorem shownOf_append {text : List Char} (htext : Text.hasControl text = false)
    (later : List Char) : shownOf (text ++ later) = text ++ shownOf later := by
  induction text with
  | nil => rfl
  | cons c text ih =>
      obtain ⟨hc, hrest⟩ : Text.isControl c = false ∧ Text.hasControl text = false := by
        simpa [Text.hasControl] using htext
      have hother : c ≠ escape := by
        rintro rfl
        simp [isControl_escape] at hc
      simpa [shownOf, shownFrom, hother] using ih hrest

namespace IsSequence

variable {text : List Char}

theorem shownOf_append (h : IsSequence text) (later : List Char) :
    shownOf (text ++ later) = shownOf later := by
  obtain ⟨parameters, final, rfl, hparameters, hfinal, -⟩ := h
  simp [shownOf, shownFrom, shownFrom_parameters hparameters, hfinal]

theorem first_of_isControl (h : IsSequence text) {before after : List Char} {c : Char}
    (hsplit : text = before ++ c :: after) (hc : Text.isControl c = true) :
    before = [] ∧ c = escape := by
  obtain ⟨parameters, final, rfl, hparameters, -, hfinal⟩ := h
  cases before with
  | nil => exact ⟨rfl, (List.cons.inj hsplit).1.symm⟩
  | cons first before =>
      have hmem : c ∈ parameters ++ [final] := by
        rw [(List.cons.inj hsplit).2]
        simp
      rcases List.mem_append.mp hmem with hmem | hmem
      · have hparameter := List.all_eq_true.mp hparameters c hmem
        simp [isParameter, hc] at hparameter
      · simp [← List.mem_singleton.mp hmem, hc] at hfinal

end IsSequence

namespace Command

def IsPrint (command : Command) : Prop := ∃ text, command = .print text

def printed : Command → String
  | print text => text
  | _ => ""

def printedAll (commands : List Command) : String := String.join (commands.map printed)

theorem isSequence_encode {command : Command} (hcommand : ¬command.IsPrint) :
    IsSequence command.encode.toList := by
  have hopen : isParameter '[' = true := by decide
  have hbetween : isParameter ';' = true := by decide
  cases command with
  | moveTo column row =>
      refine ⟨'[' :: ((toString (row + 1)).toList ++ ';' :: (toString (column + 1)).toList), 'H',
        ?_, ?_, by decide, by decide⟩
      · simp [encode, introducer, escape]
      · simp only [List.all_cons, List.all_append, all_isParameter_toString, hopen, hbetween,
          Bool.and_self]
  | resetColors =>
      exact ⟨['[', '0'], 'm', rfl, by decide, by decide, by decide⟩
  | setForeground color =>
      refine ⟨'[' :: (color.parameters "3").toList, 'm', ?_, ?_, by decide, by decide⟩
      · simp [encode, introducer, escape]
      · simp only [List.all_cons, hopen, Bool.true_and]
        exact color.all_isParameter_parameters (by decide)
  | setBackground color =>
      refine ⟨'[' :: (color.parameters "4").toList, 'm', ?_, ?_, by decide, by decide⟩
      · simp [encode, introducer, escape]
      · simp only [List.all_cons, hopen, Bool.true_and]
        exact color.all_isParameter_parameters (by decide)
  | print text => exact absurd ⟨text, rfl⟩ hcommand

@[simp] theorem encodeAll_cons (command : Command) (later : List Command) :
    encodeAll (command :: later) = command.encode ++ encodeAll later := by
  simp [encodeAll]

@[simp] theorem printedAll_cons (command : Command) (later : List Command) :
    printedAll (command :: later) = command.printed ++ printedAll later := by
  simp [printedAll]

theorem shownOf_encodeAll {commands : List Command}
    (hprinted : Text.hasControl (printedAll commands).toList = false) :
    shownOf (encodeAll commands).toList = (printedAll commands).toList := by
  induction commands with
  | nil => rfl
  | cons command later ih =>
      obtain ⟨hfirst, hlater⟩ : Text.hasControl command.printed.toList = false ∧
          Text.hasControl (printedAll later).toList = false := by
        simpa using hprinted
      by_cases hprint : command.IsPrint
      · obtain ⟨text, rfl⟩ := hprint
        have htext : Text.hasControl text.toList = false := hfirst
        simp only [encodeAll_cons, printedAll_cons, encode, printed, String.toList_append]
        rw [Terminal.shownOf_append htext, ih hlater]
      · have hnone : command.printed = "" := by
          cases command <;> first | rfl | exact absurd ⟨_, rfl⟩ hprint
        simp [(isSequence_encode hprint).shownOf_append, hnone, ih hlater]

theorem mem_first_or_second {first second before after : List Char} {c : Char}
    (hsplit : first ++ second = before ++ c :: after) :
    (∃ middle, first = before ++ c :: middle) ∨
      ∃ middle, before = first ++ middle ∧ second = middle ++ c :: after := by
  rcases List.append_eq_append_iff.mp hsplit with
    ⟨middle, hbefore, hsecond⟩ | ⟨middle, hfirst, hrest⟩
  · exact .inr ⟨middle, hbefore, hsecond⟩
  · cases middle with
    | nil => exact .inr ⟨[], by simpa using hfirst.symm, hrest.symm⟩
    | cons last middle =>
        obtain ⟨rfl, -⟩ := List.cons.inj hrest
        exact .inl ⟨middle, hfirst⟩

/-- Every control character is the escape with which one of the commands begins. -/
theorem isControl_encodeAll {commands : List Command}
    (hprinted : Text.hasControl (printedAll commands).toList = false) {before after : List Char}
    {c : Char} (hsplit : (encodeAll commands).toList = before ++ c :: after)
    (hc : Text.isControl c = true) :
    c = escape ∧ ∃ earlier command later, commands = earlier ++ command :: later ∧
      ¬command.IsPrint ∧ before = (encodeAll earlier).toList := by
  induction commands generalizing before with
  | nil => simp [encodeAll] at hsplit
  | cons command later ih =>
      obtain ⟨hfirst, hlater⟩ : Text.hasControl command.printed.toList = false ∧
          Text.hasControl (printedAll later).toList = false := by
        simpa using hprinted
      rw [encodeAll_cons, String.toList_append] at hsplit
      rcases mem_first_or_second hsplit with ⟨middle, hencode⟩ | ⟨middle, hbefore, hrest⟩
      · have hnot : ¬command.IsPrint := by
          rintro ⟨text, rfl⟩
          have hmem : c ∈ text.toList := by
            rw [show text.toList = before ++ c :: middle from hencode]
            simp
          simp [Text.hasControl_eq_false_iff.mp hfirst c hmem] at hc
        obtain ⟨rfl, hescape⟩ := (isSequence_encode hnot).first_of_isControl hencode hc
        exact ⟨hescape, [], command, later, rfl, hnot, rfl⟩
      · obtain ⟨hescape, earlier, found, rest, rfl, hfound, hmiddle⟩ := ih hlater hrest
        refine ⟨hescape, command :: earlier, found, rest, rfl, hfound, ?_⟩
        rw [hbefore, hmiddle, encodeAll_cons, String.toList_append]

end Command

end Terminal

end StyledTree
