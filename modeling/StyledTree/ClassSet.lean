/-!
# Sets of class names

The classes of an element, kept in ascending order of their code points, so
that equal sets are equal values whatever the order of insertion
(`ClassSet.ext_mem`). A class attribute is a list of names with spaces between
them.
-/

namespace StyledTree

namespace ClassSet

/-- Puts a name into its place in an ascending list. -/
def insertName (name : String) : List String → List String
  | [] => [name]
  | first :: later =>
      if name < first then name :: first :: later
      else if name = first then first :: later
      else first :: insertName name later

theorem mem_insertName {name other : String} {names : List String} :
    other ∈ insertName name names ↔ other = name ∨ other ∈ names := by
  induction names with
  | nil => simp [insertName]
  | cons first later ih =>
      unfold insertName
      split
      · simp
      · split
        · simp_all
        · simp only [List.mem_cons, ih]
          constructor <;> rintro (h | h | h) <;> simp [h]

theorem pairwise_insertName (name : String) {names : List String}
    (sorted : names.Pairwise (· < ·)) : (insertName name names).Pairwise (· < ·) := by
  induction names with
  | nil => simp [insertName]
  | cons first later ih =>
      obtain ⟨hfirst, hlater⟩ := List.pairwise_cons.mp sorted
      unfold insertName
      split
      case isTrue h =>
        refine List.pairwise_cons.mpr ⟨?_, sorted⟩
        intro other hmem
        rcases List.mem_cons.mp hmem with rfl | hmem
        · exact h
        · exact String.lt_trans h (hfirst other hmem)
      case isFalse h =>
        split
        case isTrue => exact sorted
        case isFalse hne =>
          refine List.pairwise_cons.mpr ⟨?_, ih hlater⟩
          intro other hmem
          rcases mem_insertName.mp hmem with rfl | hmem
          · by_cases hlt : first < other
            · exact hlt
            · exact absurd (String.le_antisymm (String.not_lt.mp hlt) (String.not_lt.mp h)) hne
          · exact hfirst other hmem

theorem nodup_of_sorted {names : List String} (sorted : names.Pairwise (· < ·)) :
    names.Nodup :=
  sorted.imp fun {a b} (hlt : a < b) (heq : a = b) => String.lt_irrefl b (heq ▸ hlt)

end ClassSet

structure ClassSet where
  /-- The names in ascending order, each once. -/
  names : List String
  sorted : names.Pairwise (· < ·)
deriving Repr, DecidableEq

namespace ClassSet

def empty : ClassSet := ⟨[], List.Pairwise.nil⟩

def contains (classes : ClassSet) (name : String) : Bool := classes.names.contains name

def insert (classes : ClassSet) (name : String) : ClassSet where
  names := insertName name classes.names
  sorted := pairwise_insertName name classes.sorted

def size (classes : ClassSet) : Nat := classes.names.length

theorem contains_insert (classes : ClassSet) (name other : String) :
    (classes.insert name).contains other = (other == name || classes.contains other) := by
  rw [Bool.eq_iff_iff]
  simp [contains, insert, mem_insertName]

def insertAll (classes : ClassSet) (names : List String) : ClassSet :=
  names.foldl insert classes

theorem contains_insertAll (classes : ClassSet) (names : List String) (other : String) :
    (classes.insertAll names).contains other =
      (names.contains other || classes.contains other) := by
  unfold insertAll
  induction names generalizing classes with
  | nil => simp
  | cons name names ih =>
      rw [List.foldl_cons, ih, contains_insert, List.contains_cons]
      cases names.contains other <;> cases classes.contains other <;> simp

theorem ext_mem {a b : ClassSet} (h : ∀ name, a.contains name = b.contains name) :
    a = b := by
  obtain ⟨names, sorted⟩ := a
  obtain ⟨names', sorted'⟩ := b
  have hmem : ∀ name, name ∈ names ↔ name ∈ names' := by
    intro name
    have := Bool.eq_iff_iff.mp (h name)
    simpa [contains] using this
  congr
  exact List.Perm.eq_of_pairwise
    (fun x y _ _ hxy hyx => absurd (String.lt_trans hxy hyx) (String.lt_irrefl x))
    sorted sorted'
    ((List.perm_ext_iff_of_nodup (nodup_of_sorted sorted) (nodup_of_sorted sorted')).mpr hmem)

/-- The names as they are listed: sorted by their code points. -/
def listed (classes : ClassSet) : List String := classes.names.mergeSort

/-- In whatever order the names of a set are taken, sorting them gives the same list. -/
theorem mergeSort_eq_names {classes : ClassSet} {order : List String}
    (hperm : order.Perm classes.names) : order.mergeSort = classes.names := by
  have htrans (a b c : String) (hab : decide (a ≤ b) = true) (hbc : decide (b ≤ c) = true) :
      decide (a ≤ c) = true :=
    decide_eq_true (String.le_trans (of_decide_eq_true hab) (of_decide_eq_true hbc))
  have htotal (a b : String) : (decide (a ≤ b) || decide (b ≤ a)) = true := by
    simpa using String.le_total a b
  have hsorted : order.mergeSort.Pairwise (· ≤ ·) :=
    (List.pairwise_mergeSort htrans htotal order).imp of_decide_eq_true
  have hnames : classes.names.Pairwise (· ≤ ·) :=
    classes.sorted.imp fun h => String.not_lt.mp fun h' => String.lt_irrefl _ (String.lt_trans h h')
  exact List.Perm.eq_of_pairwise (fun x y _ _ => String.le_antisymm) hsorted hnames
    ((List.mergeSort_perm order _).trans hperm)

theorem listed_eq_names (classes : ClassSet) : classes.listed = classes.names :=
  mergeSort_eq_names (.refl _)

/-- The words between the spaces of a text, when the characters of `word`, last
one first, have been read of the first of them. Only the space itself separates
words; a tab or a line feed is part of one. -/
def wordsFrom (word : List Char) : List Char → List (List Char)
  | [] => if word.isEmpty then [] else [word.reverse]
  | next :: text =>
      if next = ' ' then
        if word.isEmpty then wordsFrom [] text else word.reverse :: wordsFrom [] text
      else wordsFrom (next :: word) text

/-- The names that a class attribute lists, each at its first place. -/
def namesIn (listing : String) : List String :=
  ((wordsFrom [] listing.toList).map String.ofList).eraseDups

end ClassSet

end StyledTree
