import StyledTree.Proofs.Cascade.Coverage
import StyledTree.Proofs.Document.Updates

/-!
# What selectors see of an element

A rule picks an element by its type in lowercase, its id and the names in its class set,
and nothing else of the element enters its style. How the set came about leaves no trace:
it lists the names that were added, each once and in ascending order.
-/

namespace StyledTree

namespace Element

/-! ## Elements that look alike -/

/-- Selectors cannot tell the elements apart. -/
structure Alike (a b : Element) : Prop where
  typeName : Text.lowercased a.typeName.toList = Text.lowercased b.typeName.toList
  id : a.id = b.id
  hasClass : ∀ name, a.hasClass name = b.hasClass name

namespace Alike

variable {a b : Element}

theorem picks_eq (h : a.Alike b) (selector : Selector) : selector.picks a = selector.picks b := by
  have htype : (Text.sameIgnoringCase · a.typeName) = (Text.sameIgnoringCase · b.typeName) := by
    funext typeName
    rw [Text.sameIgnoringCase, Text.sameIgnoringCase, h.typeName]
  have hclass : a.hasClass = b.hasClass := funext h.hasClass
  rw [Selector.picks, Selector.picks, htype, h.id, hclass]

theorem computeStyle_eq (h : a.Alike b) (sheet : StyleSheet) :
    sheet.computeStyle a = sheet.computeStyle b := by
  have hrules : sheet.rulesFor a = sheet.rulesFor b := by
    simp only [StyleSheet.rulesFor, h.picks_eq]
  rw [StyleSheet.computeStyle, StyleSheet.computeStyle, hrules]

theorem classes_eq (h : a.Alike b) : a.classes = b.classes := ClassSet.ext_mem h.hasClass

end Alike

/-! ## Names that were added -/

/-- The name that an edit adds to the classes, if it adds one. -/
def Edit.added? : Edit → Option String
  | addClass name => some name
  | _ => none

/-- The names that are added, as often as they are, in the order in which they are. -/
def addedNames (edits : List Edit) : List String := edits.filterMap Edit.added?

/-- The classes of the element are the names of a list. They are listed in ascending order of
their code points, each once, however the list has them. -/
structure HoldsNames (element : Element) (names : List String) : Prop where
  hasClass : ∀ name, element.hasClass name = true ↔ name ∈ names
  listed : ∀ name, name ∈ element.sortedClasses ↔ name ∈ names
  ascending : element.sortedClasses.Pairwise (· < ·)

/-- After any edits, adding a name tells whether it is added for the first time. -/
def TellsNewNames (element : Element) : Prop :=
  ∀ edits name, ((element.edit edits).addClass name).1 = true ↔ name ∉ addedNames edits

theorem hasClass_applyTo (element : Element) (change : Edit) (name : String) :
    (change.applyTo element).hasClass name = true ↔
      change.added? = some name ∨ element.hasClass name = true := by
  cases change with
  | setId id => simp [Edit.applyTo, Edit.added?, setId, hasClass]
  | clearId => simp [Edit.applyTo, Edit.added?, clearId, hasClass]
  | addClass added =>
      rw [Edit.applyTo, hasClass_addClass, Bool.or_eq_true, beq_iff_eq, Edit.added?,
        Option.some.injEq, @eq_comm _ name]

theorem hasClass_edit (element : Element) (edits : List Edit) (name : String) :
    (element.edit edits).hasClass name = true ↔
      name ∈ addedNames edits ∨ element.hasClass name = true := by
  induction edits generalizing element with
  | nil => simp [edit, addedNames]
  | cons first later ih =>
      have hrest : (element.edit (first :: later)).hasClass name = true ↔ _ :=
        ih (first.applyTo element)
      have hnames : name ∈ addedNames (first :: later) ↔
          first.added? = some name ∨ name ∈ addedNames later := by
        simp [addedNames, List.mem_filterMap]
      rw [hrest, hasClass_applyTo, hnames, or_left_comm, or_assoc]

theorem hasClass_of_classes_eq_empty {element : Element} (hnone : element.classes = .empty)
    (name : String) : ¬element.hasClass name = true := by
  rw [hasClass, hnone]
  simp [ClassSet.contains, ClassSet.empty]

theorem holdsNames_edit {element : Element} (hnone : element.classes = .empty)
    (edits : List Edit) : (element.edit edits).HoldsNames (addedNames edits) := by
  have hclass (name : String) :
      (element.edit edits).hasClass name = true ↔ name ∈ addedNames edits := by
    rw [hasClass_edit, or_iff_left (hasClass_of_classes_eq_empty hnone name)]
  have hlisted : (element.edit edits).sortedClasses = (element.edit edits).classes.names :=
    ClassSet.listed_eq_names _
  refine ⟨hclass, fun name => ?_, ?_⟩
  · rw [hlisted, ← hclass name, hasClass, ClassSet.contains, List.contains_iff_mem]
  · rw [hlisted]
    exact ClassSet.sorted _

theorem tellsNewNames {element : Element} (hnone : element.classes = .empty) :
    element.TellsNewNames := by
  intro edits name
  rw [addClass, Bool.not_eq_true', Bool.eq_false_iff, ne_eq, (holdsNames_edit hnone edits).hasClass]

end Element

namespace Document

theorem Forest.exists_computed {doc : Document} (h : doc.Forest) {root id : NodeId}
    {element : Element} (helement : doc.element id = .ok element)
    (hbelow : root ∈ doc.inclusiveAncestors id) (sheet : StyleSheet) :
    ∃ output, doc.computeStyles root sheet = .ok output ∧
      output.value.get? id = some (sheet.computeStyle element) := by
  rw [element_eq_ok_iff] at helement
  have hid : doc.isElement id = true := (isElement_iff doc id).mpr ⟨element, helement⟩
  have hroot := h.isElement_of_mem_inclusiveAncestors hid hbelow
  obtain ⟨records, hcompute⟩ := computeStyles_eq_ok hroot sheet
  exact ⟨_, hcompute, (h.covered hroot sheet).get?_eq helement hbelow⟩

end Document

namespace StyleSheet

/-- Two elements get the same style if their types have the same lowercase form, their ids
are the same, and the same names were added to their classes, in any order and any number
of times. Nothing else matters: not the nodes below them, nor what documents they are in,
nor where. Their classes are listed in the same way, as the names that were added, and
each addition tells whether the name is new. -/
theorem computeStyle_alike (sheet : StyleSheet) (a b : Element) (edits edits' : List Element.Edit)
    (ha : a.classes = .empty) (hb : b.classes = .empty)
    (htype : Text.lowercased (a.edit edits).typeName.toList =
      Text.lowercased (b.edit edits').typeName.toList)
    (hid : (a.edit edits).id = (b.edit edits').id)
    (hnames : ∀ name, name ∈ Element.addedNames edits ↔ name ∈ Element.addedNames edits') :
    let one := a.edit edits
    let other := b.edit edits'
    sheet.computeStyle one = sheet.computeStyle other ∧
    one.sortedClasses = other.sortedClasses ∧
    (one.HoldsNames (Element.addedNames edits) ∧ other.HoldsNames (Element.addedNames edits)) ∧
    (a.TellsNewNames ∧ b.TellsNewNames) ∧
    ∀ number calls number' calls' root root' id id',
      let doc := (Document.empty number).run calls
      let doc' := (Document.empty number').run calls'
      doc.element id = .ok one → doc'.element id' = .ok other →
        root ∈ doc.inclusiveAncestors id → root' ∈ doc'.inclusiveAncestors id' →
          ∃ output output', doc.computeStyles root sheet = .ok output ∧
            doc'.computeStyles root' sheet = .ok output' ∧
            output.value.get? id = some (sheet.computeStyle one) ∧
            output'.value.get? id' = some (sheet.computeStyle one) := by
  intro one other
  have hone : one.HoldsNames (Element.addedNames edits) := Element.holdsNames_edit ha edits
  have hother : other.HoldsNames (Element.addedNames edits') := Element.holdsNames_edit hb edits'
  have halike : one.Alike other := by
    refine ⟨htype, hid, fun name => ?_⟩
    rw [Bool.eq_iff_iff, hone.hasClass, hother.hasClass, hnames]
  have hsame := halike.computeStyle_eq sheet
  have hclasses := halike.classes_eq
  refine ⟨hsame, congrArg ClassSet.listed hclasses, ⟨hone, ?_⟩,
    ⟨Element.tellsNewNames ha, Element.tellsNewNames hb⟩, ?_⟩
  · refine ⟨fun name => ?_, fun name => ?_, hother.ascending⟩
    · rw [hother.hasClass, hnames]
    · rw [hother.listed, hnames]
  · intro number calls number' calls' root root' id id' doc doc' helement helement' hbelow hbelow'
    obtain ⟨output, hcompute, hget⟩ :=
      ((Document.Forest.empty number).run calls).exists_computed helement hbelow sheet
    obtain ⟨output', hcompute', hget'⟩ :=
      ((Document.Forest.empty number').run calls').exists_computed helement' hbelow' sheet
    rw [← hsame] at hget'
    exact ⟨output, output', hcompute, hcompute', hget, hget'⟩

/-- The lowercase form of the one type is the other type, which has a character more. The
rule goes by a class, to which both elements come on different ways. -/
theorem computeStyle_alike_dotted :
    let a : Element := { typeName := "İ" }
    let b : Element := { typeName := "i̇", children := [⟨7, 7⟩] }
    let edits : List Element.Edit := [.addClass "x", .setId "m", .addClass "y", .addClass "x"]
    let edits' : List Element.Edit := [.addClass "y", .setId "k", .addClass "x", .setId "m"]
    let sheet := StyleSheet.empty.push { className := some "x" } { padding := 1 }
    a.classes = .empty ∧ b.classes = .empty ∧
      Text.lowercased (a.edit edits).typeName.toList =
        Text.lowercased (b.edit edits').typeName.toList ∧
      (a.edit edits).id = (b.edit edits').id ∧
      (∀ name, name ∈ Element.addedNames edits ↔ name ∈ Element.addedNames edits') ∧
      sheet.computeStyle (b.edit edits') = { padding := 1 } ∧
      (a.edit edits).sortedClasses = ["x", "y"] ∧
      ((a.edit [.addClass "x", .setId "m"]).addClass "y").1 = true := by
  intro a b edits edits' sheet
  have ha : a.classes = .empty := rfl
  have hb : b.classes = .empty := rfl
  have htype : Text.lowercased (a.edit edits).typeName.toList =
      Text.lowercased (b.edit edits').typeName.toList := by decide +kernel
  have hid : (a.edit edits).id = (b.edit edits').id := rfl
  have hnames : ∀ name, name ∈ Element.addedNames edits ↔ name ∈ Element.addedNames edits' := by
    intro name
    have hadded : Element.addedNames edits = ["x", "y", "x"] := rfl
    have hadded' : Element.addedNames edits' = ["y", "x"] := rfl
    rw [hadded, hadded']
    simp only [List.mem_cons, List.not_mem_nil]
    tauto
  obtain ⟨hstyle, hlisted, -, ⟨htells, -⟩, -⟩ :=
    computeStyle_alike sheet a b edits edits' ha hb htype hid hnames
  refine ⟨ha, hb, htype, hid, hnames, ?_, ?_, (htells _ "y").mpr (by decide)⟩
  · rw [← hstyle]
    decide +kernel
  · rw [hlisted]
    exact (ClassSet.listed_eq_names _).trans (by decide +kernel)

end StyleSheet

end StyledTree
