import Mathlib.Data.List.Induction
import StyledTree.Proofs.Document.Links
import StyledTree.Selector.Basic

/-!
# The names in a class attribute

The names that a class attribute lists are the runs of characters between its spaces; only
the space itself ends a run. Each is listed once, at its first place. Names that are written
down again, with a space or more between them, are read as the same set, and an element that
is made with an attribute has these names as its classes and no others.
-/

namespace StyledTree

/-! ## First places in a list -/

section

variable {α : Type} [BEq α] [LawfulBEq α]

theorem eraseDups_concat (xs : List α) (x : α) :
    (xs ++ [x]).eraseDups = if x ∈ xs then xs.eraseDups else xs.eraseDups ++ [x] := by
  rw [List.eraseDups_append]
  by_cases h : x ∈ xs <;> simp [List.removeAll, h, List.eraseDups_cons]

/-- Of two elements that are kept, the first one stands somewhere before all places of the
other. -/
theorem pairwise_eraseDups (xs : List α) :
    xs.eraseDups.Pairwise fun a b =>
      ∃ before after, xs = before ++ a :: after ∧ b ≠ a ∧ b ∉ before := by
  induction xs using List.reverseRecOn with
  | nil => exact List.Pairwise.nil
  | append_singleton xs x ih =>
      have hkept : xs.eraseDups.Pairwise fun a b =>
          ∃ before after, xs ++ [x] = before ++ a :: after ∧ b ≠ a ∧ b ∉ before := by
        refine ih.imp ?_
        rintro a b ⟨before, after, rfl, hne, hfirst⟩
        exact ⟨before, after ++ [x], by simp, hne, hfirst⟩
      rw [eraseDups_concat]
      split
      case isTrue => exact hkept
      case isFalse hnew =>
        refine List.pairwise_append.mpr ⟨hkept, List.pairwise_singleton _ x, ?_⟩
        intro a ha b hb
        obtain rfl := List.mem_singleton.mp hb
        obtain ⟨before, after, rfl⟩ := List.append_of_mem (List.mem_eraseDups.mp ha)
        rw [List.mem_append, List.mem_cons, not_or, not_or] at hnew
        exact ⟨before, after ++ [b], by simp, hnew.2.1, hnew.1⟩

theorem nodup_eraseDups (xs : List α) : xs.eraseDups.Nodup :=
  (pairwise_eraseDups xs).imp fun ⟨_, _, _, hne, _⟩ => hne.symm

theorem eraseDups_eq_self {xs : List α} (h : xs.Nodup) : xs.eraseDups = xs := by
  induction xs using List.reverseRecOn with
  | nil => rfl
  | append_singleton xs x ih =>
      obtain ⟨hxs, -, hdisjoint⟩ := List.nodup_append.mp h
      have hnew : x ∉ xs := fun hmem => hdisjoint x hmem x (List.mem_singleton_self x) rfl
      rw [eraseDups_concat, if_neg hnew, ih hxs]

end

namespace ClassSet

/-! ## Runs between spaces -/

/-- A run of characters without a space that goes on neither in the text before it nor in
the text after it. -/
structure IsRun (before run after : List Char) : Prop where
  ne_nil : run ≠ []
  spaceless : ' ' ∉ run
  left : ∀ c ∈ before.getLast?, c = ' '
  right : ∀ c ∈ after.head?, c = ' '

theorem wordsFrom_append_of_spaceless {run : List Char} (spaceless : ' ' ∉ run)
    (word after : List Char) :
    wordsFrom word (run ++ after) = wordsFrom (run.reverse ++ word) after := by
  induction run generalizing word with
  | nil => rfl
  | cons c run ih =>
      rw [List.mem_cons, not_or] at spaceless
      rw [List.cons_append, wordsFrom, if_neg (Ne.symm spaceless.1), ih spaceless.2,
        List.reverse_cons, List.append_assoc]
      rfl

theorem wordsFrom_of_spaceless {run : List Char} (spaceless : ' ' ∉ run) :
    wordsFrom [] run = if run = [] then [] else [run] := by
  have hread := wordsFrom_append_of_spaceless spaceless [] []
  rw [List.append_nil, List.append_nil] at hread
  rw [hread, wordsFrom]
  simp

theorem wordsFrom_append_space (word before after : List Char) :
    wordsFrom word (before ++ ' ' :: after) = wordsFrom word before ++ wordsFrom [] after := by
  fun_induction wordsFrom word before with
  | case1 word hempty => simp [wordsFrom, hempty]
  | case2 word hword => simp [wordsFrom, hword]
  | case3 word text hempty ih => simp [wordsFrom, hempty, ih]
  | case4 word text hword ih => simp [wordsFrom, hword, ih]
  | case5 word next text hother ih => simp [wordsFrom, hother, ih]

theorem wordsFrom_append {before : List Char} (hend : ∀ c ∈ before.getLast?, c = ' ')
    (after : List Char) :
    wordsFrom [] (before ++ after) = wordsFrom [] before ++ wordsFrom [] after := by
  rcases List.eq_nil_or_concat before with rfl | ⟨init, last, rfl⟩
  · rfl
  · obtain rfl : last = ' ' := hend last (by simp)
    rw [List.concat_eq_append, List.append_assoc, List.singleton_append, wordsFrom_append_space,
      wordsFrom_append_space, show wordsFrom [] [] = [] from rfl, List.append_nil]

namespace IsRun

variable {before run after : List Char}

theorem wordsFrom_run_append (h : IsRun before run after) :
    wordsFrom [] (run ++ after) = run :: wordsFrom [] after := by
  rw [wordsFrom_append_of_spaceless h.spaceless, List.append_nil]
  cases after with
  | nil => simp [wordsFrom, h.ne_nil]
  | cons c after =>
      obtain rfl := h.right c rfl
      simp [wordsFrom, h.ne_nil]

theorem wordsFrom_eq (h : IsRun before run after) :
    wordsFrom [] (before ++ run ++ after) = wordsFrom [] before ++ run :: wordsFrom [] after := by
  rw [List.append_assoc, wordsFrom_append h.left, h.wordsFrom_run_append]

theorem prepend (h : IsRun before run after) (front : List Char) :
    IsRun (front ++ ' ' :: before) run after where
  ne_nil := h.ne_nil
  spaceless := h.spaceless
  left c hc := by
    rw [List.getLast?_append, List.getLast?_cons, Option.some_or] at hc
    cases hlast : before.getLast? with
    | none => simpa [hlast, eq_comm] using hc
    | some last =>
        obtain rfl : last = c := by simpa [hlast] using hc
        exact h.left last hlast
  right := h.right

end IsRun

/-- Each word that is read is a run, before which the earlier words are read. The first word
may have been begun before the text. -/
theorem exists_isRun {word text run : List Char} {earlier later : List (List Char)}
    (spaceless : ' ' ∉ word) (h : wordsFrom word text = earlier ++ run :: later) :
    ∃ before after, word.reverse ++ text = before ++ run ++ after ∧ IsRun before run after ∧
      wordsFrom [] before = earlier := by
  fun_induction wordsFrom word text generalizing earlier with
  | case1 => simp at h
  | case2 word hword =>
      obtain ⟨rfl, rfl⟩ : earlier = [] ∧ word.reverse = run := by
        cases earlier <;> simp_all
      exact ⟨[], [], by simp, ⟨by simpa using hword, by simpa using spaceless, by simp, by simp⟩,
        rfl⟩
  | case3 word text hempty ih =>
      obtain rfl := List.isEmpty_iff.mp hempty
      obtain ⟨before, after, rfl, hrun, rfl⟩ := ih List.not_mem_nil h
      exact ⟨' ' :: before, after, rfl, hrun.prepend [], rfl⟩
  | case4 word text hword ih =>
      -- the space ends the word that was begun: it is the run, or the first of the earlier words
      have hreverse : ' ' ∉ word.reverse := by simpa using spaceless
      cases earlier with
      | nil =>
          obtain ⟨rfl, -⟩ := List.cons.inj h
          exact ⟨[], ' ' :: text, rfl, ⟨by simpa using hword, hreverse, by simp, by simp⟩, rfl⟩
      | cons first earlier =>
          obtain ⟨rfl, hlater⟩ := List.cons.inj h
          obtain ⟨before, after, rfl, hrun, rfl⟩ := ih List.not_mem_nil hlater
          refine ⟨word.reverse ++ ' ' :: before, after, by simp, hrun.prepend _, ?_⟩
          rw [wordsFrom_append_space, wordsFrom_of_spaceless hreverse,
            if_neg (by simpa using hword)]
          rfl
  | case5 word next text hother ih =>
      have hspaceless : ' ' ∉ next :: word := by simp [spaceless, Ne.symm hother]
      obtain ⟨before, after, htext, hrun, hearlier⟩ := ih hspaceless h
      exact ⟨before, after, by simpa using htext, hrun, hearlier⟩

theorem wordsFrom_ne_nil {word : List Char} (hword : word ≠ []) (text : List Char) :
    wordsFrom word text ≠ [] := by
  fun_induction wordsFrom word text with
  | case1 word hempty => exact absurd (List.isEmpty_iff.mp hempty) hword
  | case2 => simp
  | case3 word text hempty ih => exact absurd (List.isEmpty_iff.mp hempty) hword
  | case4 => simp
  | case5 word next text hother ih => exact ih (List.cons_ne_nil next word)

theorem length_wordsFrom_le (word before after : List Char) :
    (wordsFrom word before).length ≤ (wordsFrom word (before ++ after)).length := by
  fun_induction wordsFrom word before with
  | case1 => simp
  | case2 word hword =>
      exact List.length_pos_iff.mpr (wordsFrom_ne_nil (by simpa using hword) after)
  | case3 word text hempty ih => simpa [wordsFrom, hempty] using ih
  | case4 word text hword ih => simpa [wordsFrom, hword] using ih
  | case5 word next text hother ih => simpa [wordsFrom, hother] using ih

/-! ## Places of names -/

/-- The name is a run in the text and begins at this place. -/
def StandsAt (text : String) (name : String) (place : Nat) : Prop :=
  ∃ before after, text.toList = before ++ name.toList ++ after ∧
    IsRun before name.toList after ∧ before.length = place

/-- The list consists of the runs of the text, each once, in the order of their first places. -/
structure Lists (text : String) (names : List String) : Prop where
  mem_iff : ∀ name, name ∈ names ↔ ∃ place, StandsAt text name place
  nodup : names.Nodup
  in_order : names.Pairwise fun earlier later =>
    ∃ place, StandsAt text earlier place ∧ ∀ other, StandsAt text later other → place < other

theorem Lists.unique {text : String} {names others : List String} (h : Lists text names)
    (h' : Lists text others) : names = others := by
  have hperm : names.Perm others := by
    refine (List.perm_ext_iff_of_nodup h.nodup h'.nodup).mpr fun name => ?_
    rw [h.mem_iff, h'.mem_iff]
  refine hperm.eq_of_pairwise (fun a b _ _ hab hba => ?_) h.in_order h'.in_order
  obtain ⟨place, hplace, hbefore⟩ := hab
  obtain ⟨other, hother, hafter⟩ := hba
  exact absurd (hbefore other hother) (Nat.lt_asymm (hafter place hplace))

theorem mem_words_iff (text name : String) :
    name.toList ∈ wordsFrom [] text.toList ↔ ∃ place, StandsAt text name place := by
  constructor
  · intro hmem
    obtain ⟨earlier, later, hwords⟩ := List.append_of_mem hmem
    obtain ⟨before, after, htext, hrun, -⟩ := exists_isRun List.not_mem_nil hwords
    exact ⟨before.length, before, after, htext, hrun, rfl⟩
  · rintro ⟨-, before, after, htext, hrun, -⟩
    rw [htext, hrun.wordsFrom_eq]
    simp

theorem exists_standsAt_lt {text a b : String} {earlier later : List (List Char)}
    (hwords : wordsFrom [] text.toList = earlier ++ a.toList :: later) (hne : b ≠ a)
    (hnew : b.toList ∉ earlier) :
    ∃ place, StandsAt text a place ∧ ∀ other, StandsAt text b other → place < other := by
  obtain ⟨before, after, htext, hrun, rfl⟩ := exists_isRun List.not_mem_nil hwords
  refine ⟨before.length, ⟨before, after, htext, hrun, rfl⟩, ?_⟩
  rintro - ⟨before', after', htext', hrun', rfl⟩
  by_contra hle
  -- otherwise `b` would be read among the words before `a`, or in the place of `a`
  have hinitial : before' <+: before := by
    have hleft : before' <+: text.toList := ⟨b.toList ++ after', by simp [htext']⟩
    have hright : before <+: text.toList := ⟨a.toList ++ after, by simpa using htext.symm⟩
    exact List.prefix_of_prefix_length_le hleft hright (Nat.not_lt.mp hle)
  obtain ⟨middle, rfl⟩ := hinitial
  rw [htext', hrun'.wordsFrom_eq] at hwords
  obtain ⟨extra, hextra⟩ := List.prefix_of_prefix_length_le ⟨_, rfl⟩ ⟨_, hwords.symm⟩
    (length_wordsFrom_le [] before' middle)
  rw [← hextra, List.append_assoc] at hwords
  cases extra with
  | nil => exact hne (String.toList_inj.mp (List.cons.inj (List.append_cancel_left hwords)).1)
  | cons first extra =>
      obtain ⟨rfl, -⟩ := List.cons.inj (List.append_cancel_left hwords)
      exact hnew (by rw [← hextra]; simp)

theorem lists_namesIn (text : String) : Lists text (namesIn text) where
  mem_iff name := by
    rw [namesIn, List.mem_eraseDups, ← mem_words_iff, List.mem_map]
    constructor
    · rintro ⟨word, hword, rfl⟩
      simpa using hword
    · exact fun hword => ⟨_, hword, String.ofList_toList⟩
  nodup := nodup_eraseDups _
  in_order := by
    refine (pairwise_eraseDups _).imp ?_
    rintro a b ⟨before, after, hnames, hne, hnew⟩
    obtain ⟨earlier, rest, hwords, rfl, hrest⟩ := List.map_eq_append_iff.mp hnames
    obtain ⟨word, later, rfl, rfl, -⟩ := List.map_eq_cons_iff.mp hrest
    rw [← String.toList_ofList (l := word)] at hwords
    refine exists_standsAt_lt hwords hne fun hmem => hnew ?_
    exact List.mem_map.mpr ⟨_, hmem, String.ofList_toList⟩

/-! ## Names written down again -/

theorem wordsFrom_intercalate {pieces : List (List Char)}
    (spaceless : ∀ piece ∈ pieces, ' ' ∉ piece) :
    wordsFrom [] ([' '].intercalate pieces) = pieces.filter (· ≠ []) := by
  induction pieces with
  | nil => rfl
  | cons piece pieces ih =>
      have hpiece := wordsFrom_of_spaceless (spaceless piece List.mem_cons_self)
      have hfilter : (piece :: pieces).filter (· ≠ []) =
          wordsFrom [] piece ++ pieces.filter (· ≠ []) := by
        rw [hpiece, List.filter_cons]
        by_cases hempty : piece = [] <;> simp [hempty]
      rw [hfilter]
      cases pieces with
      | nil => simp
      | cons next pieces =>
          rw [List.intercalate_cons_cons, List.append_assoc, List.singleton_append,
            wordsFrom_append_space,
            ih fun other hmem => spaceless other (List.mem_cons_of_mem piece hmem)]

theorem namesIn_intercalate {pieces : List String}
    (spaceless : ∀ piece ∈ pieces, ' ' ∉ piece.toList) :
    namesIn (" ".intercalate pieces) = (pieces.filter (· ≠ "")).eraseDups := by
  have hpieces : ∀ piece ∈ pieces.map String.toList, ' ' ∉ piece := by simpa using spaceless
  rw [namesIn, String.toList_intercalate, show " ".toList = [' '] from rfl,
    wordsFrom_intercalate hpieces, List.filter_map, List.map_map]
  have hback : String.ofList ∘ String.toList = id := funext fun _ => String.ofList_toList
  have hempty : (fun piece : List Char => decide (piece ≠ [])) ∘ String.toList = (· ≠ "") := by
    funext piece
    simp
  rw [hback, List.map_id, hempty]

theorem Lists.spaceless {text : String} {names : List String} (h : Lists text names)
    {name : String} (hmem : name ∈ names) : name ≠ "" ∧ ' ' ∉ name.toList := by
  obtain ⟨_, _, _, _, hrun, _⟩ := (h.mem_iff name).mp hmem
  exact ⟨fun hempty => hrun.ne_nil (by rw [hempty]; rfl), hrun.spaceless⟩

/-- The names may be written down in any order, more than once, and with further spaces. -/
theorem mem_namesIn_intercalate (text : String) {pieces : List String}
    (hpieces : ∀ piece, piece ≠ "" → (piece ∈ pieces ↔ piece ∈ namesIn text)) (name : String) :
    name ∈ namesIn (" ".intercalate pieces) ↔ name ∈ namesIn text := by
  have hlists := lists_namesIn text
  have hspaceless : ∀ piece ∈ pieces, ' ' ∉ piece.toList := by
    intro piece hmem
    by_cases hempty : piece = ""
    · simp [hempty]
    · exact (hlists.spaceless ((hpieces piece hempty).mp hmem)).2
  rw [namesIn_intercalate hspaceless, List.mem_eraseDups, List.mem_filter]
  constructor
  · rintro ⟨hmem, hne⟩
    exact (hpieces name (by simpa using hne)).mp hmem
  · intro hmem
    have hne := (hlists.spaceless hmem).1
    exact ⟨(hpieces name hne).mpr hmem, by simpa using hne⟩

theorem namesIn_intercalate_namesIn (text : String) :
    namesIn (" ".intercalate (namesIn text)) = namesIn text := by
  have hlists := lists_namesIn text
  have hall : (namesIn text).filter (· ≠ "") = namesIn text :=
    List.filter_eq_self.mpr fun name hmem => by simpa using (hlists.spaceless hmem).1
  rw [namesIn_intercalate fun name hmem => (hlists.spaceless hmem).2, hall,
    eraseDups_eq_self hlists.nodup]

end ClassSet

/-! ## Elements with the names of an attribute -/

theorem Element.hasClass_withAttributes (typeName : String) (id : Option String)
    (listing name : String) :
    (Element.withAttributes { typeName } id (some listing)).hasClass name = true ↔
      name ∈ ClassSet.namesIn listing := by
  rw [withAttributes, hasClass, ClassSet.contains_insertAll]
  simp [ClassSet.contains, ClassSet.empty]

theorem Selector.picks_ofParts_class {name : String} (hname : Text.allBlank name.toList = false)
    (element : Element) :
    (ofParts none none (some name)).picks element = element.hasClass name := by
  simp [ofParts, givenPart, picks, hname]

namespace Document

theorem element_adopt (doc : Document) (element : Element) :
    (doc.adopt element).2.element (doc.adopt element).1 = .ok { element with children := [] } := by
  rw [element_eq_ok_iff, adopt, element?_addNode_self]
  rfl

theorem not_contains_adopt (doc : Document) (element : Element) :
    ¬doc.contains (doc.adopt element).1 = true :=
  not_contains_addNode doc (.element { element with children := [] })

theorem createElementWith_eq_ok {typeName : String} (htype : Text.allBlank typeName.toList = false)
    (doc : Document) (id classAttribute : Option String) :
    doc.createElementWith typeName id classAttribute =
      .ok (doc.adopt (Element.withAttributes { typeName } id classAttribute)) := by
  rw [createElementWith_eq, Element.create, htype]
  rfl

/-- A class attribute lists the runs between its spaces, each once and in the order in which
they first come. Written down with single spaces between them the names are listed again as
they are; written down in any order, any number of times and with further spaces, as empty
pieces between two spaces, they are the same set. An element that is made with the attribute
has these classes, and selectors of one class pick it by them. -/
theorem createElementWith_lists (listing : String) :
    (∀ names, ClassSet.Lists listing names ↔ names = ClassSet.namesIn listing) ∧
    (∀ pieces : List String,
      (∀ piece, piece ≠ "" → (piece ∈ pieces ↔ piece ∈ ClassSet.namesIn listing)) →
        ∀ name, name ∈ ClassSet.namesIn (" ".intercalate pieces) ↔
          name ∈ ClassSet.namesIn listing) ∧
    ClassSet.namesIn (" ".intercalate (ClassSet.namesIn listing)) = ClassSet.namesIn listing ∧
    ∀ (doc : Document) (typeName : String) (id : Option String),
      Text.allBlank typeName.toList = false →
        ∃ node after element, doc.createElementWith typeName id (some listing) = .ok (node, after) ∧
          ¬doc.contains node = true ∧ after.element node = .ok element ∧
          (element.typeName = typeName ∧ element.id = id) ∧
          (∀ name, element.hasClass name = true ↔ name ∈ ClassSet.namesIn listing) ∧
          ∀ name, Text.allBlank name.toList = false →
            ((Selector.ofParts none none (some name)).picks element = true ↔
              name ∈ ClassSet.namesIn listing) := by
  have hlists := ClassSet.lists_namesIn listing
  refine ⟨fun names => ⟨fun h => h.unique hlists, fun h => h ▸ hlists⟩,
    fun pieces => ClassSet.mem_namesIn_intercalate listing,
    ClassSet.namesIn_intercalate_namesIn listing, ?_⟩
  intro doc typeName id htype
  have hclass := Element.hasClass_withAttributes typeName id listing
  have hok := createElementWith_eq_ok htype doc id (some listing)
  let made := Element.withAttributes { typeName } id (some listing)
  refine ⟨_, _, _, hok, not_contains_adopt doc made, element_adopt doc made,
    ⟨rfl, Option.or_none⟩, hclass, ?_⟩
  intro name hname
  rw [Selector.picks_ofParts_class hname]
  exact hclass name

/-- A tab does not separate names, and a name that is listed twice is one class. -/
theorem createElementWith_lists_tab :
    let listing := "  menu\ttop sel  menu\ttop "
    let pieces := ["sel", "", "menu\ttop", "sel", ""]
    (∀ piece, piece ≠ "" → (piece ∈ pieces ↔ piece ∈ ClassSet.namesIn listing)) ∧
    " ".intercalate pieces = "sel  menu\ttop sel " ∧
    (∀ name, name ∈ ClassSet.namesIn (" ".intercalate pieces) ↔
      name ∈ ClassSet.namesIn listing) ∧
    Text.allBlank "list".toList = false ∧ Text.allBlank "menu\ttop".toList = false ∧
    ∃ node after element,
      (Document.empty 3).createElementWith "list" none (some listing) = .ok (node, after) ∧
        after.element node = .ok element ∧ element.hasClass "menu" = false ∧
        (Selector.ofParts none none (some "menu\ttop")).picks element = true := by
  intro listing pieces
  have hnames : ClassSet.namesIn listing = ["menu\ttop", "sel"] := by decide +kernel
  have hpieces : ∀ piece, piece ≠ "" → (piece ∈ pieces ↔ piece ∈ ClassSet.namesIn listing) := by
    intro piece hne
    rw [hnames]
    simp only [pieces, List.mem_cons, List.not_mem_nil]
    grind
  obtain ⟨-, hwritten, -, hmade⟩ := createElementWith_lists listing
  obtain ⟨node, after, element, hok, -, helement, -, hclass, hpicks⟩ :=
    hmade (Document.empty 3) "list" none (by decide)
  refine ⟨hpieces, by decide +kernel, hwritten pieces hpieces, by decide, by decide,
    node, after, element, hok, helement, ?_, (hpicks "menu\ttop" (by decide)).mpr ?_⟩
  · rw [Bool.eq_false_iff, ne_eq, hclass, hnames]
    decide
  · rw [hnames]
    decide

end Document

end StyledTree
