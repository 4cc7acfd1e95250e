import StyledTree.Proofs.Cascade.Splicing

/-!
# Computed styles of a part of a tree

The walk from a node is a piece of every walk that meets it, and none of it is visited
before or after that piece. Styles are computed entry by entry along a walk, so the
styles of a part of a tree are a piece of the styles of the whole. In the index, which
counts slots from the first entry, they stand further along by as many slots as there
are entries before the piece.
-/

namespace StyledTree

/-- The entries of `part` stand in one piece in those of `whole`, between `before` and
`after`. They begin with the entry of `spot`, and answer for all nodes at and below it;
the entries around them are those of elements elsewhere. -/
structure Document.Slices (doc : Document) (spot : NodeId) (part whole : ComputedStyles)
    (before after : List (NodeId × Style)) : Prop where
  entries : whole.entries = before ++ part.entries ++ after
  first : ∃ style, part.entries.head? = some (spot, style)
  get? : ∀ id ∈ doc.inclusiveDescendants spot, part.get? id = whole.get? id
  outside : ∀ entry ∈ before ++ after,
    doc.isElement entry.1 = true ∧ entry.1 ∉ doc.inclusiveDescendants spot

theorem ComputedStyles.get?_eq_of_slice {part whole : ComputedStyles}
    {before after : List (NodeId × Style)} {id : NodeId}
    (hentries : whole.entries = before ++ part.entries ++ after)
    (hid : ∀ entry ∈ before ++ after, entry.1 ≠ id) : part.get? id = whole.get? id := by
  apply Option.ext
  intro style
  have hnot : (id, style) ∉ before ++ after := fun hmem => hid _ hmem rfl
  simp only [List.mem_append, not_or] at hnot
  simp [get?_eq_some_iff, hentries, hnot]

theorem IndexedStyles.Holds.slots_of_slice {stored stored' : IndexedStyles}
    {part whole : ComputedStyles} {before after : List (NodeId × Style)}
    (hpart : stored.Holds part) (hwhole : stored'.Holds whole)
    (hentries : whole.entries = before ++ part.entries ++ after) {id : NodeId} {slot : Nat}
    (hslot : stored.slots[id]? = some slot) :
    stored'.slots[id]? = some (before.length + slot) := by
  obtain ⟨style, hstyle⟩ := (hpart.coherent id slot).mp hslot
  rw [← Array.getElem?_toList, hpart.entries] at hstyle
  have hlt : slot < part.entries.length := (List.getElem?_eq_some_iff.mp hstyle).1
  apply (hwhole.coherent id _).mpr
  refine ⟨style, ?_⟩
  rw [← Array.getElem?_toList, hwhole.entries, hentries, List.append_assoc,
    List.getElem?_append_right (Nat.le_add_right _ _), Nat.add_sub_cancel_left,
    List.getElem?_append_left hlt, hstyle]

namespace Document.Forest

variable {doc : Document} {root spot : NodeId}

/-- The walk from a node is a piece of each walk that meets it, and the rest of that walk
is elsewhere. -/
theorem exists_slice (h : doc.Forest) (hspot : spot ∈ doc.inclusiveDescendants root) :
    ∃ before after,
      doc.inclusiveDescendants root = before ++ doc.inclusiveDescendants spot ++ after ∧
        ∀ id ∈ before ++ after, id ∉ doc.inclusiveDescendants spot := by
  have hroot := contains_root_of_mem_inclusiveDescendants hspot
  have howned := h.contains_of_mem_inclusiveDescendants hspot
  rw [h.inclusiveDescendants_eq hroot] at hspot ⊢
  rw [h.inclusiveDescendants_eq howned]
  obtain ⟨before, after, haround⟩ := h.exists_around hspot
  have hsplit := haround doc h fun _ _ => rfl
  have honce := h.nodup_preorder root
  rw [hsplit] at honce
  refine ⟨before, after, hsplit, ?_⟩
  intro id hid hmem
  simp only [List.append_assoc, List.nodup_append, List.mem_append] at honce hid
  rcases hid with hbefore | hafter
  · exact honce.2.2 id hbefore id (Or.inl hmem) rfl
  · exact honce.2.1.2.2 id hmem id hafter rfl

theorem isElement_root (h : doc.Forest) (helement : doc.isElement spot = true)
    (hspot : spot ∈ doc.inclusiveDescendants root) : doc.isElement root = true := by
  apply h.isElement_of_mem_inclusiveAncestors helement
  exact (h.mem_inclusiveDescendants_iff (contains_root_of_mem_inclusiveDescendants hspot)
    (contains_of_isElement helement)).mp hspot

theorem head?_entries_ofElements (h : doc.Forest) (sheet : StyleSheet)
    (hspot : doc.isElement spot = true) :
    ∃ style, (ComputedStyles.ofElements sheet (doc.elements spot)).entries.head? =
      some (spot, style) := by
  have howned := contains_of_isElement hspot
  obtain ⟨element, helement⟩ := (isElement_iff doc spot).mp hspot
  refine ⟨sheet.computeStyle element, ?_⟩
  rw [h.entries_ofElements_eq sheet howned, h.inclusiveDescendants_eq howned, h.preorder_eq]
  simp [entryOf?, helement]

theorem exists_slices (h : doc.Forest) (sheet : StyleSheet)
    (helement : doc.isElement spot = true) (hspot : spot ∈ doc.inclusiveDescendants root) :
    ∃ before after, doc.Slices spot (.ofElements sheet (doc.elements spot))
      (.ofElements sheet (doc.elements root)) before after := by
  obtain ⟨before, after, hsplit, helsewhere⟩ := h.exists_slice hspot
  have hentries : (ComputedStyles.ofElements sheet (doc.elements root)).entries =
      before.filterMap (doc.entryOf? sheet) ++
        (ComputedStyles.ofElements sheet (doc.elements spot)).entries ++
          after.filterMap (doc.entryOf? sheet) := by
    rw [h.entries_ofElements_eq sheet (contains_root_of_mem_inclusiveDescendants hspot), hsplit,
      h.entries_ofElements_eq sheet (contains_of_isElement helement), List.filterMap_append,
      List.filterMap_append]
  have houtside : ∀ entry ∈ before.filterMap (doc.entryOf? sheet) ++
      after.filterMap (doc.entryOf? sheet),
      doc.isElement entry.1 = true ∧ entry.1 ∉ doc.inclusiveDescendants spot := by
    intro entry hmem
    rw [← List.filterMap_append, List.mem_filterMap] at hmem
    obtain ⟨id, hid, hentry⟩ := hmem
    obtain ⟨held, hheld, rfl⟩ := Option.map_eq_some_iff.mp hentry
    exact ⟨(isElement_iff doc id).mpr ⟨held, hheld⟩, helsewhere id hid⟩
  refine ⟨_, _, hentries, h.head?_entries_ofElements sheet helement, ?_, houtside⟩
  intro id hid
  apply ComputedStyles.get?_eq_of_slice hentries
  rintro entry hmem rfl
  exact (houtside entry hmem).2 hid

end Document.Forest

namespace Document

/-- The styles computed at an element are a piece of those computed at any element above
it, and begin with its own entry. All nodes at and below it get the same answer from
both, and the other entries belong to elements that are not among these nodes. Stored
with an index, each style stands as many slots further along as there are entries before
the piece. -/
theorem computeStyles_slices (number : Nat) (calls : List Call) (sheet : StyleSheet)
    (root spot : NodeId) :
    let doc := (Document.empty number).run calls
    doc.isElement spot = true → spot ∈ doc.inclusiveDescendants root →
      ∃ part whole before after, doc.computeStyles spot sheet = .ok part ∧
        doc.computeStyles root sheet = .ok whole ∧
        doc.Slices spot part.value whole.value before after ∧
        ∃ stored stored' : IndexedStyles, doc.indexedStyles spot sheet = .ok stored ∧
          doc.indexedStyles root sheet = .ok stored' ∧ stored.Answers part.value ∧
          stored'.Answers whole.value ∧
          ∀ (id : NodeId) (slot : Nat), stored.slots[id]? = some slot →
            stored'.slots[id]? = some (before.length + slot) := by
  intro doc helement hspot
  have hforest : doc.Forest := (Forest.empty number).run calls
  have hroot := hforest.isElement_root helement hspot
  obtain ⟨records, hpart⟩ := computeStyles_eq_ok helement sheet
  obtain ⟨records', hwhole⟩ := computeStyles_eq_ok hroot sheet
  obtain ⟨before, after, hslices⟩ := hforest.exists_slices sheet helement hspot
  have hheld := IndexedStyles.Holds.ofElements sheet (doc.elements spot)
  have hheld' := IndexedStyles.Holds.ofElements sheet (doc.elements root)
  refine ⟨_, _, before, after, hpart, hwhole, hslices, _, _,
    indexedStyles_eq_ok_iff.mpr ⟨helement, rfl⟩, indexedStyles_eq_ok_iff.mpr ⟨hroot, rfl⟩,
    hheld.answers, hheld'.answers, ?_⟩
  intro id slot hslot
  exact hheld.slots_of_slice hheld' hslices.entries hslot

/-- A panel between two buttons, with a button in it. -/
theorem computeStyles_slices_panel :
    let doc := (Document.empty 0).run [.createDiv none none, .createButton "yes" none none,
      .createDiv none none, .createButton "maybe" none none, .createButton "no" none none,
      .add ⟨0, 3⟩ [⟨0, 4⟩], .add ⟨0, 0⟩ [⟨0, 1⟩, ⟨0, 3⟩, ⟨0, 6⟩]]
    let sheet := StyleSheet.empty.push { typeName := some "button" } { padding := 1 }
    doc.isElement ⟨0, 3⟩ = true ∧ ⟨0, 3⟩ ∈ doc.inclusiveDescendants ⟨0, 0⟩ ∧
      ∃ part whole before after, doc.computeStyles ⟨0, 3⟩ sheet = .ok part ∧
        doc.computeStyles ⟨0, 0⟩ sheet = .ok whole ∧
        doc.Slices ⟨0, 3⟩ part.value whole.value before after ∧
        part.value.get? ⟨0, 4⟩ = whole.value.get? ⟨0, 4⟩ := by
  intro doc sheet
  have helement : doc.isElement ⟨0, 3⟩ = true := by decide
  have hspot : ⟨0, 3⟩ ∈ doc.inclusiveDescendants ⟨0, 0⟩ := by decide
  obtain ⟨part, whole, before, after, hpart, hwhole, hslices, -⟩ :=
    computeStyles_slices 0 [.createDiv none none, .createButton "yes" none none,
      .createDiv none none, .createButton "maybe" none none, .createButton "no" none none,
      .add ⟨0, 3⟩ [⟨0, 4⟩], .add ⟨0, 0⟩ [⟨0, 1⟩, ⟨0, 3⟩, ⟨0, 6⟩]] sheet ⟨0, 0⟩ ⟨0, 3⟩
      helement hspot
  exact ⟨helement, hspot, part, whole, before, after, hpart, hwhole, hslices,
    hslices.get? ⟨0, 4⟩ (by decide)⟩

end Document

end StyledTree
