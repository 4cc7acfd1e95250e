import StyledTree.Proofs.Cascade.IndexedStyles
import StyledTree.Proofs.Document.Descent

/-!
# Which nodes have computed styles

The walk below an element meets every node at or below it once, so computing styles
never overwrites an entry: the elements among these nodes have an entry each, in
pre-order, and nothing else has.
-/

namespace StyledTree

namespace ComputedStyles

theorem entries_insert_of_not_mem {styles : ComputedStyles} {id : NodeId} (style : Style)
    (hfresh : id ∉ styles.entries.map Prod.fst) :
    (styles.insert id style).entries = styles.entries ++ [(id, style)] :=
  putEntry_of_not_mem style hfresh

theorem entries_foldl_insert (sheet : StyleSheet) {styles : ComputedStyles}
    {elements : List (NodeId × Element)}
    (honce : (styles.entries.map Prod.fst ++ elements.map Prod.fst).Nodup) :
    (elements.foldl (fun styles (id, element) =>
        styles.insert id (sheet.computeStyle element)) styles).entries =
      styles.entries ++ elements.map fun (id, element) => (id, sheet.computeStyle element) := by
  induction elements generalizing styles with
  | nil => simp
  | cons first later ih =>
      have hfresh : first.1 ∉ styles.entries.map Prod.fst := by
        intro hmem
        exact (List.nodup_append.mp honce).2.2 _ hmem _ List.mem_cons_self rfl
      have hentries := entries_insert_of_not_mem (sheet.computeStyle first.2) hfresh
      rw [List.foldl_cons, ih (by simpa [hentries] using honce), hentries]
      simp

theorem entries_ofElements (sheet : StyleSheet) {elements : List (NodeId × Element)}
    (honce : (elements.map Prod.fst).Nodup) :
    (ofElements sheet elements).entries =
      elements.map fun (id, element) => (id, sheet.computeStyle element) := by
  have hall : (empty.entries.map Prod.fst ++ elements.map Prod.fst).Nodup := honce
  exact entries_foldl_insert sheet hall

end ComputedStyles

namespace Document

/-- The computed styles of an element and of all elements below it, stored with an
index. -/
def indexedStyles (doc : Document) (root : NodeId) (sheet : StyleSheet) :
    Except Fault IndexedStyles := do
  let _ ← doc.element root
  return .ofElements sheet (doc.elements root)

/-- These are the computed styles of the elements at and below a node. -/
structure Covered (doc : Document) (root : NodeId) (sheet : StyleSheet) (styles : ComputedStyles) :
    Prop where
  order : styles.entries.map Prod.fst = (doc.preorder root).filter fun id => doc.isElement id
  once : (styles.entries.map Prod.fst).Nodup
  styled : ∀ id style, (id, style) ∈ styles.entries →
    ∃ element, doc.element id = .ok element ∧ style = sheet.computeStyle element
  get? : ∀ id style, styles.get? id = some style ↔ (id, style) ∈ styles.entries
  contains : ∀ id, styles.contains id = true ↔
    doc.isElement id = true ∧ root ∈ doc.inclusiveAncestors id
  size : styles.size = doc.ids.countP fun id =>
    doc.isElement id && (doc.inclusiveAncestors id).contains root

theorem kind_of_element_error {doc : Document} {id : NodeId} {fault : Fault}
    (h : doc.element id = .error fault) : fault.kind = .invalidArgument := by
  rw [element_eq] at h
  cases helement : doc.element? id with
  | some element => simp [helement] at h
  | none =>
      rw [helement] at h
      injection h with hfault
      rw [← hfault]
      split <;> rfl

namespace Forest

variable {doc : Document}

theorem mem_elements_iff (h : doc.Forest) {root : NodeId} (hroot : doc.contains root = true)
    (id : NodeId) (element : Element) :
    (id, element) ∈ doc.elements root ↔
      id ∈ doc.preorder root ∧ doc.element? id = some element := by
  rw [elements, h.inclusiveDescendants_eq hroot, List.mem_filterMap]
  constructor
  · rintro ⟨other, hmem, hother⟩
    obtain ⟨held, hheld, hpair⟩ := Option.map_eq_some_iff.mp hother
    cases hpair
    exact ⟨hmem, hheld⟩
  · rintro ⟨hmem, helement⟩
    exact ⟨id, hmem, by rw [helement, Option.map_some]⟩

theorem handles_elements (h : doc.Forest) {root : NodeId} (hroot : doc.contains root = true) :
    (doc.elements root).map Prod.fst = (doc.preorder root).filter fun id => doc.isElement id := by
  rw [elements, h.inclusiveDescendants_eq hroot]
  induction doc.preorder root with
  | nil => rfl
  | cons id later ih =>
      cases helement : doc.element? id with
      | none =>
          have hnot : doc.isElement id = false := by rw [isElement, helement]; rfl
          simp [helement, hnot, ih]
      | some element =>
          have his : doc.isElement id = true := by rw [isElement, helement]; rfl
          simp [helement, his, ih]

theorem nodup_handles_elements (h : doc.Forest) {root : NodeId}
    (hroot : doc.contains root = true) : ((doc.elements root).map Prod.fst).Nodup := by
  rw [h.handles_elements hroot]
  exact (h.nodup_preorder root).filter _

theorem covered (h : doc.Forest) {root : NodeId} (hroot : doc.isElement root = true)
    (sheet : StyleSheet) :
    doc.Covered root sheet (.ofElements sheet (doc.elements root)) := by
  have howned := contains_of_isElement hroot
  have hhandles := h.handles_elements howned
  have hentries := ComputedStyles.entries_ofElements sheet (h.nodup_handles_elements howned)
  have horder : (ComputedStyles.ofElements sheet (doc.elements root)).entries.map Prod.fst =
      (doc.preorder root).filter fun id => doc.isElement id := by
    rw [hentries, List.map_map, ← hhandles]
    rfl
  have hget := (ComputedStyles.ofElements sheet (doc.elements root)).get?_eq_some_iff
  have hmem (id : NodeId) : id ∈ (doc.preorder root).filter (fun id => doc.isElement id) ↔
      doc.isElement id = true ∧ root ∈ doc.inclusiveAncestors id := by
    rw [List.mem_filter, and_comm]
    exact and_congr_right fun hid => h.mem_preorder_iff (contains_of_isElement hid) root
  constructor
  case order => exact horder
  case once => exact ComputedStyles.distinct _
  case styled =>
    intro id style hmem
    rw [hentries] at hmem
    obtain ⟨⟨other, element⟩, helement, hpair⟩ := List.mem_map.mp hmem
    cases hpair
    exact ⟨element, (element_eq_ok_iff doc id element).mpr
      ((h.mem_elements_iff howned id element).mp helement).2, rfl⟩
  case get? => exact hget
  case contains =>
    intro id
    rw [← hmem, ← horder, ComputedStyles.contains, Option.isSome_iff_exists, List.mem_map]
    constructor
    · rintro ⟨style, hstyle⟩
      exact ⟨_, (hget id style).mp hstyle, rfl⟩
    · rintro ⟨⟨id, style⟩, hentry, rfl⟩
      exact ⟨style, (hget id style).mpr hentry⟩
  case size =>
    rw [ComputedStyles.size, ← List.length_map, horder, List.countP_eq_length_filter]
    apply List.Perm.length_eq
    rw [List.perm_ext_iff_of_nodup ((h.nodup_preorder root).filter _) (doc.nodup_ids.filter _)]
    intro id
    rw [hmem, List.mem_filter, mem_ids_iff]
    simp only [Bool.and_eq_true, List.contains_iff_mem]
    exact ⟨fun hid => ⟨contains_of_isElement hid.1, hid⟩, And.right⟩

end Forest

theorem computeStyles_eq_ok {doc : Document} {root : NodeId} (hroot : doc.isElement root = true)
    (sheet : StyleSheet) :
    ∃ records, doc.computeStyles root sheet =
      .ok ⟨.ofElements sheet (doc.elements root), records⟩ := by
  obtain ⟨element, helement⟩ := (isElement_iff doc root).mp hroot
  rw [computeStyles, (element_eq_ok_iff doc root element).mpr helement]
  exact ⟨_, rfl⟩

theorem Forest.covered_of_computeStyles {doc : Document} (h : doc.Forest) {root : NodeId}
    {sheet : StyleSheet} {output : Log.Logged ComputedStyles}
    (hcompute : doc.computeStyles root sheet = .ok output) :
    doc.Covered root sheet output.value := by
  rw [computeStyles] at hcompute
  cases helement : doc.element root with
  | error fault =>
      rw [helement] at hcompute
      cases hcompute
  | ok element =>
      rw [helement] at hcompute
      cases hcompute
      rw [element_eq_ok_iff] at helement
      exact h.covered ((isElement_iff doc root).mpr ⟨element, helement⟩) sheet

theorem Covered.get?_eq {doc : Document} {root id : NodeId} {sheet : StyleSheet}
    {styles : ComputedStyles} {element : Element} (h : doc.Covered root sheet styles)
    (helement : doc.element? id = some element) (hbelow : root ∈ doc.inclusiveAncestors id) :
    styles.get? id = some (sheet.computeStyle element) := by
  have hid : doc.isElement id = true := (isElement_iff doc id).mpr ⟨element, helement⟩
  obtain ⟨style, hstyle⟩ := Option.isSome_iff_exists.mp ((h.contains id).mpr ⟨hid, hbelow⟩)
  obtain ⟨held, hheld, rfl⟩ := h.styled id style ((h.get? id style).mp hstyle)
  rw [element_eq_ok_iff, helement] at hheld
  rw [hstyle, Option.some.inj hheld]

theorem indexedStyles_eq_ok_iff {doc : Document} {root : NodeId} {sheet : StyleSheet}
    {stored : IndexedStyles} :
    doc.indexedStyles root sheet = .ok stored ↔
      doc.isElement root = true ∧ stored = .ofElements sheet (doc.elements root) := by
  rw [indexedStyles, element_eq, isElement]
  cases doc.element? root with
  | none => simp [bind, Except.bind]
  | some element => simp [bind, Except.bind, pure, Except.pure, eq_comm]

/-- Computing the styles at a handle fails if it is not one of an element. Otherwise
the elements at and below it have one entry each, in pre-order, and nothing else has.
Stored with an index, the styles answer in the same way, and are the same exactly if
their entries are. -/
theorem computeStyles_covers (number : Nat) (calls : List Call) (root : NodeId)
    (sheet : StyleSheet) :
    let doc := (Document.empty number).run calls
    (doc.isElement root = false → ∃ fault, doc.computeStyles root sheet = .error fault ∧
      doc.indexedStyles root sheet = .error fault ∧ fault.kind = .invalidArgument) ∧
    (doc.isElement root = true → ∃ output stored, doc.computeStyles root sheet = .ok output ∧
      doc.indexedStyles root sheet = .ok stored ∧ doc.Covered root sheet output.value ∧
        stored.Answers output.value) ∧
    ∀ (number' : Nat) (calls' : List Call) (root' : NodeId) (sheet' : StyleSheet)
      (stored stored' : IndexedStyles), doc.indexedStyles root sheet = .ok stored →
        ((Document.empty number').run calls').indexedStyles root' sheet' = .ok stored' →
          (stored = stored' ↔ stored.entries = stored'.entries) := by
  intro doc
  have hforest : doc.Forest := (Forest.empty number).run calls
  refine ⟨?_, ?_, ?_⟩
  · intro hroot
    cases helement : doc.element root with
    | error fault =>
        refine ⟨fault, ?_, ?_, kind_of_element_error helement⟩
        · rw [computeStyles, helement]
          rfl
        · rw [indexedStyles, helement]
          rfl
    | ok element =>
        rw [element_eq_ok_iff] at helement
        simp [isElement, helement] at hroot
  · intro hroot
    obtain ⟨records, hcompute⟩ := computeStyles_eq_ok hroot sheet
    exact ⟨_, _, hcompute, indexedStyles_eq_ok_iff.mpr ⟨hroot, rfl⟩, hforest.covered hroot sheet,
      (IndexedStyles.Holds.ofElements sheet _).answers⟩
  · intro number' calls' root' sheet' stored stored' hstored hstored'
    obtain ⟨-, rfl⟩ := indexedStyles_eq_ok_iff.mp hstored
    obtain ⟨-, rfl⟩ := indexedStyles_eq_ok_iff.mp hstored'
    exact (IndexedStyles.Holds.ofElements sheet _).coherent.eq_iff
      (IndexedStyles.Holds.ofElements sheet' _).coherent

/-- A button has a style and its text has none. The store for another button is not
the same. -/
theorem computeStyles_covers_buttons :
    let doc := (Document.empty 0).run [.createButton "yes" none none, .createButton "no" none none]
    (∃ fault, doc.computeStyles ⟨0, 1⟩ {} = .error fault ∧ fault.kind = .invalidArgument) ∧
    ∃ stored stored', doc.indexedStyles ⟨0, 0⟩ {} = .ok stored ∧
      doc.indexedStyles ⟨0, 2⟩ {} = .ok stored' ∧ stored.contains ⟨0, 0⟩ = true ∧
        stored.contains ⟨0, 1⟩ = false ∧ stored ≠ stored' := by
  intro doc
  let calls : List Call := [.createButton "yes" none none, .createButton "no" none none]
  obtain ⟨hfault, -⟩ := computeStyles_covers 0 calls ⟨0, 1⟩ {}
  obtain ⟨-, hfirst, hequal⟩ := computeStyles_covers 0 calls ⟨0, 0⟩ {}
  obtain ⟨-, hsecond, -⟩ := computeStyles_covers 0 calls ⟨0, 2⟩ {}
  obtain ⟨fault, herror, -, hkind⟩ := hfault (by decide)
  obtain ⟨output, stored, -, hstored, hcovered, hanswers⟩ := hfirst (by decide)
  obtain ⟨output', stored', -, hstored', hcovered', hanswers'⟩ := hsecond (by decide)
  refine ⟨⟨fault, herror, hkind⟩, stored, stored', hstored, hstored', ?_, ?_, ?_⟩
  · rw [hanswers.contains, hcovered.contains]
    decide
  · rw [hanswers.contains, Bool.eq_false_iff, ne_eq, hcovered.contains]
    decide
  · rw [ne_eq, hequal 0 calls _ _ _ _ hstored hstored']
    intro hentries
    have hhandles := congrArg (fun entries => entries.toList.map Prod.fst) hentries
    simp only [hanswers.entries, hanswers'.entries, hcovered.order, hcovered'.order] at hhandles
    exact absurd hhandles (by decide)

end Document

end StyledTree
