import Mathlib.Data.List.Nodup
import StyledTree.Cascade

/-!
# Computed styles with an index

To find the style of a handle without a search, computed styles can be stored with an
index: besides the entries, a table that tells the slot of each handle. Entries and
index agree as long as they are changed by `insert` alone. Then the index adds
nothing: all that can be asked is answered as from the entries, and two stores are
the same as soon as their entries are.
-/

namespace StyledTree

instance : Hashable NodeId := ⟨fun id => hash (id.document, id.index)⟩

structure IndexedStyles where
  entries : Array (NodeId × Style) := #[]
  /-- The place of the entry of each handle that has one. -/
  slots : Std.ExtHashMap NodeId Nat := ∅
deriving DecidableEq

namespace IndexedStyles

def size (stored : IndexedStyles) : Nat := stored.entries.size

def get? (stored : IndexedStyles) (id : NodeId) : Option Style :=
  stored.slots[id]?.bind fun slot => stored.entries[slot]?.map Prod.snd

def contains (stored : IndexedStyles) (id : NodeId) : Bool := stored.slots.contains id

def insert (stored : IndexedStyles) (id : NodeId) (style : Style) : IndexedStyles :=
  match stored.slots[id]? with
  | some slot =>
      { stored with entries := stored.entries.modify slot fun entry => (entry.1, style) }
  | none =>
      { entries := stored.entries.push (id, style)
        slots := stored.slots.insert id stored.entries.size }

def ofElements (sheet : StyleSheet) (elements : List (NodeId × Element)) : IndexedStyles :=
  elements.foldl (fun stored (id, element) => stored.insert id (sheet.computeStyle element)) {}

/-! ## Entries and index -/

/-- The index has the slot of every entry, and no other. -/
def Coherent (stored : IndexedStyles) : Prop :=
  ∀ (id : NodeId) (slot : Nat),
    stored.slots[id]? = some slot ↔ ∃ style, stored.entries[slot]? = some (id, style)

theorem coherent_empty : ({} : IndexedStyles).Coherent := by
  intro id slot
  simp

namespace Coherent

variable {stored other : IndexedStyles}

theorem insert (h : stored.Coherent) (id : NodeId) (style : Style) :
    (stored.insert id style).Coherent := by
  intro key slot
  unfold IndexedStyles.insert
  cases hfound : stored.slots[id]? with
  | some place =>
      -- The entry changes its style, but stays in its slot.
      simp only [Array.getElem?_modify, h key slot]
      by_cases hslot : place = slot <;> simp [hslot]
  | none =>
      simp only [Std.ExtHashMap.getElem?_insert, Array.getElem?_push]
      have hfresh (old : Style) : stored.entries[slot]? ≠ some (id, old) := by
        intro hold
        simp [(h id slot).mpr ⟨old, hold⟩] at hfound
      have hpast : stored.slots[key]? ≠ some stored.entries.size := by
        simp [h key]
      by_cases hkey : id = key
      · subst hkey
        by_cases hslot : slot = stored.entries.size
        · simp [hslot]
        · simp [hslot, hfresh, Ne.symm hslot]
      · by_cases hslot : slot = stored.entries.size
        · simp [hslot, hkey, hpast]
        · simp [hslot, hkey, h key slot]

theorem get?_eq_some_iff (h : stored.Coherent) (id : NodeId) (style : Style) :
    stored.get? id = some style ↔ (id, style) ∈ stored.entries.toList := by
  rw [get?, Option.bind_eq_some_iff, Array.mem_toList_iff, Array.mem_iff_getElem?]
  constructor
  · rintro ⟨slot, hslot, hstyle⟩
    obtain ⟨old, hold⟩ := (h id slot).mp hslot
    rw [hold, Option.map_some, Option.some.injEq] at hstyle
    exact ⟨slot, hstyle ▸ hold⟩
  · rintro ⟨slot, hentry⟩
    exact ⟨slot, (h id slot).mpr ⟨style, hentry⟩, by rw [hentry, Option.map_some]⟩

theorem contains_eq_isSome_get? (h : stored.Coherent) (id : NodeId) :
    stored.contains id = (stored.get? id).isSome := by
  rw [contains, Std.ExtHashMap.contains_eq_isSome_getElem?, get?]
  cases hslot : stored.slots[id]? with
  | none => rfl
  | some slot =>
      obtain ⟨style, hentry⟩ := (h id slot).mp hslot
      rw [Option.bind_some, hentry]
      rfl

theorem eq_iff (h : stored.Coherent) (h' : other.Coherent) :
    stored = other ↔ stored.entries = other.entries := by
  constructor
  · exact congrArg entries
  · intro hentries
    have hslots : stored.slots = other.slots := by
      apply Std.ExtHashMap.ext_getElem?
      intro id
      apply Option.ext
      intro slot
      rw [h id slot, h' id slot, hentries]
    cases stored
    cases other
    cases hentries
    cases hslots
    rfl

end Coherent

end IndexedStyles

namespace ComputedStyles

theorem putEntry_of_not_mem {id : NodeId} (style : Style) {entries : List (NodeId × Style)}
    (hfresh : id ∉ entries.map Prod.fst) :
    putEntry id style entries = entries ++ [(id, style)] := by
  induction entries with
  | nil => rfl
  | cons entry later ih =>
      rw [List.map_cons, List.mem_cons, not_or] at hfresh
      rw [putEntry, if_neg (Ne.symm hfresh.1), ih hfresh.2, List.cons_append]

theorem putEntry_of_getElem? {id : NodeId} {old : Style} (style : Style)
    {entries : List (NodeId × Style)} (distinct : (entries.map Prod.fst).Nodup) {slot : Nat}
    (hslot : entries[slot]? = some (id, old)) :
    putEntry id style entries = entries.modify slot fun entry => (entry.1, style) := by
  induction entries generalizing slot with
  | nil => cases hslot
  | cons entry later ih =>
      obtain ⟨hfirst, hlater⟩ := List.nodup_cons.mp distinct
      cases slot with
      | zero =>
          cases hslot
          rw [putEntry, if_pos rfl, List.modify_zero_cons]
      | succ slot =>
          have hne : entry.1 ≠ id := by
            rintro rfl
            have hmem : (entry.1, old) ∈ later := List.mem_of_getElem? hslot
            exact hfirst (List.mem_map.mpr ⟨_, hmem, rfl⟩)
          rw [putEntry, if_neg hne, List.modify_succ_cons, ih hlater hslot]

theorem get?_eq_some_iff (styles : ComputedStyles) (id : NodeId) (style : Style) :
    styles.get? id = some style ↔ (id, style) ∈ styles.entries := by
  obtain ⟨entries, distinct⟩ := styles
  show entries.lookup id = some style ↔ (id, style) ∈ entries
  induction entries with
  | nil => simp
  | cons entry later ih =>
      obtain ⟨hfirst, hlater⟩ := List.nodup_cons.mp distinct
      rw [List.lookup_cons, List.mem_cons]
      by_cases hkey : id = entry.1
      · have hnot : (id, style) ∉ later := fun hmem =>
          hfirst (hkey ▸ List.mem_map_of_mem (f := Prod.fst) hmem)
        obtain ⟨key, held⟩ := entry
        obtain rfl : id = key := hkey
        simp [hnot, eq_comm]
      · have hne : (id == entry.1) = false := by simp [hkey]
        have hother : (id, style) ≠ entry := by
          rintro rfl
          exact hkey rfl
        simp [hne, hother, ih hlater]

end ComputedStyles

namespace IndexedStyles

/-- All that can be asked has the same answer. -/
structure Answers (stored : IndexedStyles) (styles : ComputedStyles) : Prop where
  entries : stored.entries.toList = styles.entries
  get? : ∀ id, stored.get? id = styles.get? id
  contains : ∀ id, stored.contains id = styles.contains id
  size : stored.size = styles.size

structure Holds (stored : IndexedStyles) (styles : ComputedStyles) : Prop where
  coherent : stored.Coherent
  entries : stored.entries.toList = styles.entries

namespace Holds

variable {stored : IndexedStyles} {styles : ComputedStyles}

theorem empty : Holds {} .empty := ⟨coherent_empty, rfl⟩

theorem insert (h : stored.Holds styles) (id : NodeId) (style : Style) :
    (stored.insert id style).Holds (styles.insert id style) where
  coherent := h.coherent.insert id style
  entries := by
    unfold IndexedStyles.insert ComputedStyles.insert
    cases hfound : stored.slots[id]? with
    | some slot =>
        obtain ⟨old, hold⟩ := (h.coherent id slot).mp hfound
        rw [← Array.getElem?_toList, h.entries] at hold
        show (stored.entries.modify slot _).toList = ComputedStyles.putEntry id style styles.entries
        rw [Array.toList_modify, h.entries, ComputedStyles.putEntry_of_getElem? style
          styles.distinct hold]
    | none =>
        have hfresh : id ∉ styles.entries.map Prod.fst := by
          rw [← h.entries]
          intro hmem
          obtain ⟨⟨key, old⟩, hentry, rfl⟩ := List.mem_map.mp hmem
          have hget := (h.coherent.get?_eq_some_iff key old).mpr hentry
          simp [get?, hfound] at hget
        show (stored.entries.push (id, style)).toList =
          ComputedStyles.putEntry id style styles.entries
        rw [Array.toList_push, h.entries, ComputedStyles.putEntry_of_not_mem style hfresh]

theorem foldl_insert (h : stored.Holds styles) (sheet : StyleSheet)
    (elements : List (NodeId × Element)) :
    (elements.foldl (fun stored (id, element) =>
        stored.insert id (sheet.computeStyle element)) stored).Holds
      (elements.foldl (fun styles (id, element) =>
        styles.insert id (sheet.computeStyle element)) styles) := by
  induction elements generalizing stored styles with
  | nil => exact h
  | cons first later ih => exact ih (h.insert first.1 (sheet.computeStyle first.2))

theorem ofElements (sheet : StyleSheet) (elements : List (NodeId × Element)) :
    (IndexedStyles.ofElements sheet elements).Holds (.ofElements sheet elements) :=
  empty.foldl_insert sheet elements

theorem get?_eq (h : stored.Holds styles) (id : NodeId) : stored.get? id = styles.get? id := by
  apply Option.ext
  intro style
  rw [h.coherent.get?_eq_some_iff, styles.get?_eq_some_iff, h.entries]

theorem answers (h : stored.Holds styles) : stored.Answers styles where
  entries := h.entries
  get? := h.get?_eq
  contains id := by rw [h.coherent.contains_eq_isSome_get?, h.get?_eq, ComputedStyles.contains]
  size := by rw [size, ComputedStyles.size, ← h.entries, Array.length_toList]

end Holds

end IndexedStyles

end StyledTree
