import StyledTree.Fault
import StyledTree.Style

/-!
# Computed styles

The styles of elements by handle, in the order in which the elements were
visited. A handle has one style at most, and `get?_insert` says which.
-/

namespace StyledTree

namespace ComputedStyles

/-- Puts a style in the place of the one that a handle has, or at the end. -/
def putEntry (id : NodeId) (style : Style) : List (NodeId × Style) → List (NodeId × Style)
  | [] => [(id, style)]
  | entry :: later =>
      if entry.1 = id then (id, style) :: later else entry :: putEntry id style later

theorem mem_keys_putEntry {id other : NodeId} {style : Style} {entries : List (NodeId × Style)} :
    other ∈ (putEntry id style entries).map Prod.fst ↔
      other = id ∨ other ∈ entries.map Prod.fst := by
  induction entries with
  | nil => simp [putEntry]
  | cons entry later ih =>
      unfold putEntry
      by_cases hkey : entry.1 = id
      · simp [hkey]
      · rw [if_neg hkey, List.map_cons, List.map_cons, List.mem_cons, List.mem_cons, ih]
        constructor <;> rintro (h | h | h) <;> simp [h]

theorem nodup_keys_putEntry (id : NodeId) (style : Style) {entries : List (NodeId × Style)}
    (distinct : (entries.map Prod.fst).Nodup) :
    ((putEntry id style entries).map Prod.fst).Nodup := by
  induction entries with
  | nil => simp [putEntry]
  | cons entry later ih =>
      obtain ⟨hfresh, hlater⟩ := List.nodup_cons.mp distinct
      unfold putEntry
      by_cases hkey : entry.1 = id
      · rw [if_pos hkey]
        exact List.nodup_cons.mpr ⟨hkey ▸ hfresh, hlater⟩
      · rw [if_neg hkey]
        refine List.nodup_cons.mpr ⟨fun hmem => ?_, ih hlater⟩
        rcases mem_keys_putEntry.mp hmem with h | h
        · exact hkey h
        · exact hfresh h

theorem lookup_putEntry (id other : NodeId) (style : Style) (entries : List (NodeId × Style)) :
    (putEntry id style entries).lookup other =
      if other = id then some style else entries.lookup other := by
  induction entries with
  | nil => by_cases h : other = id <;> simp [putEntry, h]
  | cons entry later ih =>
      unfold putEntry
      by_cases hkey : entry.1 = id
      · rw [if_pos hkey, List.lookup_cons, List.lookup_cons, hkey]
        by_cases hother : other = id
        · simp [hother]
        · have hne : (other == id) = false := by simp [hother]
          simp [hother, hne]
      · rw [if_neg hkey, List.lookup_cons, List.lookup_cons, ih]
        by_cases hother : other = id
        · have hne : (id == entry.1) = false := by simp [Ne.symm hkey]
          simp [hother, hne]
        · simp [hother]

end ComputedStyles

structure ComputedStyles where
  entries : List (NodeId × Style)
  /-- No element has two entries. -/
  distinct : (entries.map Prod.fst).Nodup
deriving Repr, DecidableEq

namespace ComputedStyles

def empty : ComputedStyles := ⟨[], List.nodup_nil⟩

def size (styles : ComputedStyles) : Nat := styles.entries.length

def isEmpty (styles : ComputedStyles) : Bool := styles.entries.isEmpty

def get? (styles : ComputedStyles) (id : NodeId) : Option Style := styles.entries.lookup id

def contains (styles : ComputedStyles) (id : NodeId) : Bool := (styles.get? id).isSome

/-- The style of an element; one without an entry has nothing set. -/
def styleOf (styles : ComputedStyles) (id : NodeId) : Style := (styles.get? id).getD .unset

def insert (styles : ComputedStyles) (id : NodeId) (style : Style) : ComputedStyles where
  entries := putEntry id style styles.entries
  distinct := nodup_keys_putEntry id style styles.distinct

theorem get?_insert (styles : ComputedStyles) (id other : NodeId) (style : Style) :
    (styles.insert id style).get? other =
      if other = id then some style else styles.get? other :=
  lookup_putEntry id other style styles.entries

end ComputedStyles

end StyledTree
