import StyledTree.Proofs.Cascade.Coverage
import StyledTree.Proofs.Document.Splicing

/-!
# What attaching does to computed styles

The entries of computed styles are read off a walk, node by node, and attaching nodes
changes no style. So what comes into a walk with the attached nodes is what comes into
the styles that are computed along it.
-/

namespace StyledTree.Document

/-- The entries of the styles computed at a node; none if it is not an element. -/
def styledEntries (doc : Document) (sheet : StyleSheet) (root : NodeId) : List (NodeId × Style) :=
  match doc.computeStyles root sheet with
  | .ok output => output.value.entries
  | .error _ => []

/-- The entry that a node has wherever styles are computed above it. -/
def entryOf? (doc : Document) (sheet : StyleSheet) (id : NodeId) : Option (NodeId × Style) :=
  (doc.element? id).map fun element => (id, sheet.computeStyle element)

theorem computeStyles_eq_error_iff (doc : Document) (root : NodeId) (sheet : StyleSheet)
    (fault : Fault) :
    doc.computeStyles root sheet = .error fault ↔ doc.element root = .error fault := by
  rw [computeStyles]
  cases doc.element root with
  | error found => simp [bind, Except.bind]
  | ok element => exact ⟨fun h => (by cases h), fun h => (by cases h)⟩

namespace Forest

variable {doc : Document}

theorem entries_ofElements_eq (h : doc.Forest) (sheet : StyleSheet) {root : NodeId}
    (hroot : doc.contains root = true) :
    (ComputedStyles.ofElements sheet (doc.elements root)).entries =
      (doc.inclusiveDescendants root).filterMap (doc.entryOf? sheet) := by
  rw [ComputedStyles.entries_ofElements sheet (h.nodup_handles_elements hroot), elements,
    List.map_filterMap]
  congr 1
  funext id
  rw [entryOf?, Option.map_map]
  rfl

theorem styledEntries_eq (h : doc.Forest) (sheet : StyleSheet) (root : NodeId) :
    doc.styledEntries sheet root =
      (doc.inclusiveDescendants root).filterMap (doc.entryOf? sheet) := by
  by_cases hroot : doc.isElement root = true
  · obtain ⟨records, hcompute⟩ := computeStyles_eq_ok hroot sheet
    rw [styledEntries, hcompute]
    exact h.entries_ofElements_eq sheet (contains_of_isElement hroot)
  · have hnone : doc.element? root = none := Option.not_isSome_iff_eq_none.mp hroot
    have hempty : doc.styledEntries sheet root = [] := by
      have helement := element_eq doc root
      rw [hnone] at helement
      rw [styledEntries, (computeStyles_eq_error_iff doc root sheet _).mpr helement]
    rw [hempty]
    by_cases howned : doc.contains root = true
    · rw [h.inclusiveDescendants_eq howned, h.preorder_eq, children_of_not_isElement hroot]
      simp [entryOf?, hnone]
    · rw [inclusiveDescendants_of_not_contains howned, List.filterMap_nil]

end Forest

/-! ## Attaching -/

theorem entryOf?_link (doc : Document) (parent : NodeId) (children : List NodeId)
    (sheet : StyleSheet) : (doc.link parent children).entryOf? sheet = doc.entryOf? sheet := by
  funext id
  rw [entryOf?, entryOf?, element?_link, Option.map_map]
  congr 1
  funext element
  rw [Function.comp_apply]
  -- No selector looks at children.
  split <;> rfl

theorem element_link_eq_error_iff (doc : Document) (parent : NodeId) (children : List NodeId)
    (id : NodeId) (fault : Fault) :
    (doc.link parent children).element id = .error fault ↔ doc.element id = .error fault := by
  rw [element_eq, element_eq, element?_link, contains_link]
  cases doc.element? id with
  | none => rfl
  | some element => exact ⟨fun h => (by cases h), fun h => (by cases h)⟩

namespace Forest

variable {doc : Document} {parent : NodeId} {children : List NodeId}

theorem spliced_link (h : doc.Forest) (admitted : doc.Admits parent children) :
    doc.Spliced parent children (doc.link parent children) :=
  h.spliced (h.link admitted) ((h.admits_iff_acceptable parent children).mp admitted)
    admitted.attached

theorem styledEntries_link (h : doc.Forest) (admitted : doc.Admits parent children)
    (sheet : StyleSheet) (root : NodeId) :
    (doc.link parent children).styledEntries sheet root =
      ((doc.link parent children).inclusiveDescendants root).filterMap (doc.entryOf? sheet) := by
  rw [(h.link admitted).styledEntries_eq, entryOf?_link]

theorem flatMap_styledEntries (h : doc.Forest) (sheet : StyleSheet) (roots : List NodeId) :
    roots.flatMap (doc.styledEntries sheet) =
      (roots.flatMap doc.inclusiveDescendants).filterMap (doc.entryOf? sheet) := by
  rw [List.filterMap_flatMap]
  exact List.flatMap_congr fun root _ => h.styledEntries_eq sheet root

end Forest

/-- Attaching nodes puts their walks, one after the other, into every walk that meets
their parent, right after what was at and below it; other walks stay. With them come
the entries of the attached nodes and those below them into the computed styles, and
nothing else changes in these. -/
theorem add_splices (number : Nat) (calls : List Call) (parent : NodeId)
    (children : List NodeId) (returned : NodeId) (grown : Document) :
    let doc := (Document.empty number).run calls
    doc.add parent children = .ok (returned, grown) →
      doc.Spliced parent children grown ∧
      ∀ (sheet : StyleSheet) (root : NodeId),
        (∀ fault, grown.computeStyles root sheet = .error fault ↔
          doc.computeStyles root sheet = .error fault) ∧
        (parent ∉ doc.inclusiveDescendants root →
          grown.styledEntries sheet root = doc.styledEntries sheet root) ∧
        (parent ∈ doc.inclusiveDescendants root →
          SplicedAfter (doc.styledEntries sheet parent)
            (children.flatMap (doc.styledEntries sheet)) (doc.styledEntries sheet root)
            (grown.styledEntries sheet root)) := by
  intro doc hadd
  have hforest : doc.Forest := (Forest.empty number).run calls
  obtain ⟨hadmits, hresult⟩ := (add_eq_ok_iff ..).mp hadd
  obtain ⟨-, rfl⟩ := Prod.mk.inj hresult
  have hspliced := hforest.spliced_link hadmits
  refine ⟨hspliced, ?_⟩
  intro sheet root
  refine ⟨?_, ?_, ?_⟩
  · intro fault
    rw [computeStyles_eq_error_iff, computeStyles_eq_error_iff, element_link_eq_error_iff]
  · intro hparent
    rw [hforest.styledEntries_link hadmits, hspliced.elsewhere root hparent,
      hforest.styledEntries_eq]
  · intro hparent
    rw [hforest.styledEntries_link hadmits, hforest.flatMap_styledEntries,
      hforest.styledEntries_eq, hforest.styledEntries_eq]
    exact (hspliced.below root hparent).filterMap _

/-- A button comes between the element that it is attached to and the text after that.
It has an entry, as the two elements have, and its label has none. -/
theorem add_splices_button :
    let doc := (Document.empty 0).run [.createDiv none none, .createDiv none none,
      .createButton "yes" none none, .createText "end", .add ⟨0, 0⟩ [⟨0, 1⟩, ⟨0, 4⟩]]
    let grown := doc.run [.add ⟨0, 1⟩ [⟨0, 2⟩]]
    let sheet := StyleSheet.empty.push .any { padding := 1 }
    doc.add ⟨0, 1⟩ [⟨0, 2⟩] = .ok (⟨0, 1⟩, grown) ∧
      SplicedAfter [⟨0, 1⟩] [⟨0, 2⟩, ⟨0, 3⟩] [⟨0, 0⟩, ⟨0, 1⟩, ⟨0, 4⟩]
        (grown.inclusiveDescendants ⟨0, 0⟩) ∧
      grown.inclusiveDescendants ⟨0, 4⟩ = [⟨0, 4⟩] ∧
      SplicedAfter [(⟨0, 1⟩, { padding := 1 })] [(⟨0, 2⟩, { padding := 1 })]
        [(⟨0, 0⟩, { padding := 1 }), (⟨0, 1⟩, { padding := 1 })]
        (grown.styledEntries sheet ⟨0, 0⟩) := by
  intro doc grown sheet
  have hadd : doc.add ⟨0, 1⟩ [⟨0, 2⟩] = .ok (⟨0, 1⟩, grown) := by decide
  obtain ⟨hwalks, hstyles⟩ := add_splices 0 [.createDiv none none, .createDiv none none,
    .createButton "yes" none none, .createText "end", .add ⟨0, 0⟩ [⟨0, 1⟩, ⟨0, 4⟩]]
    ⟨0, 1⟩ [⟨0, 2⟩] ⟨0, 1⟩ grown hadd
  have hentries := (hstyles sheet ⟨0, 0⟩).2.2 (by decide)
  have hroot : doc.styledEntries sheet ⟨0, 0⟩ =
      [(⟨0, 0⟩, { padding := 1 }), (⟨0, 1⟩, { padding := 1 })] := by decide +kernel
  have hspot : doc.styledEntries sheet ⟨0, 1⟩ = [(⟨0, 1⟩, { padding := 1 })] := by
    decide +kernel
  have hadded : [⟨0, 2⟩].flatMap (doc.styledEntries sheet) = [(⟨0, 2⟩, { padding := 1 })] := by
    decide +kernel
  rw [hroot, hspot, hadded] at hentries
  exact ⟨hadd, hwalks.below ⟨0, 0⟩ (by decide), hwalks.elsewhere ⟨0, 4⟩ (by decide), hentries⟩

end StyledTree.Document
