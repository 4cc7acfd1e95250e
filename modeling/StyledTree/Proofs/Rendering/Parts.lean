import StyledTree.Proofs.Rendering.Layers
import StyledTree.Proofs.Rendering.Shift

/-!
# Parts of a rendered tree

An element that is rendered by itself, in the columns that it has within a larger tree,
looks as it does there. What is drawn around it leaves its symbols alone, and its
strokes are those that it makes in its place, moved to the top left. Only where none of
its own grounds covers a cell may the ground be another.
-/

namespace StyledTree

/-- The same symbol in the same color, over whatever ground. -/
structure Cell.SameInk (cell other : Cell) : Prop where
  symbol : cell.symbol = other.symbol
  fg : cell.fg = other.fg

theorem Cell.SameInk.symm {cell other : Cell} (h : cell.SameInk other) : other.SameInk cell :=
  ⟨h.symbol.symm, h.fg.symm⟩

namespace Stroke

variable {stroke : Stroke} {strokes : List Stroke} {x y : Int} {columns : Nat} {cell other : Cell}

/-- The stroke leaves the symbol of a cell alone: it gives it a ground or is elsewhere. -/
def Mute (x y : Int) (stroke : Stroke) : Prop :=
  (∃ region color, stroke = .fill region color) ∨ ¬stroke.Touches x y

theorem sameInk_of_mute (hmute : stroke.Mute x y) (h : cell.SameInk other) (columns : Nat) :
    (stroke.cellAfter columns x y cell).SameInk other := by
  rcases hmute with ⟨region, color, rfl⟩ | haway
  · simp only [cellAfter]
    split
    · exact ⟨h.symbol, h.fg⟩
    · exact h
  · rw [cellAfter_of_not_touches haway]
    exact h

theorem sameInk_foldl_mute (hmute : ∀ stroke ∈ strokes, stroke.Mute x y) (h : cell.SameInk other)
    (columns : Nat) : (strokes.foldl (cellAfter columns x y) cell).SameInk other :=
  List.foldlRecOn (motive := (Cell.SameInk · other)) strokes _ h fun _ hheld stroke hmem =>
    sameInk_of_mute (hmute stroke hmem) hheld columns

theorem sameInk_cellAfter (h : cell.SameInk other) (stroke : Stroke) :
    (stroke.cellAfter columns x y cell).SameInk (stroke.cellAfter columns x y other) := by
  cases stroke with
  | fill region color =>
      simp only [cellAfter]
      split
      · exact ⟨h.symbol, h.fg⟩
      · exact h
  | mark block content =>
      simp only [cellAfter]
      split
      · exact ⟨rfl, h.fg⟩
      · exact h
  | write left row width text color =>
      simp only [cellAfter]
      split
      · exact ⟨rfl, rfl⟩
      · exact h

theorem sameInk_foldl (h : cell.SameInk other) (strokes : List Stroke) :
    (strokes.foldl (cellAfter columns x y) cell).SameInk
      (strokes.foldl (cellAfter columns x y) other) := by
  induction strokes generalizing cell other with
  | nil => exact h
  | cons first later ih => exact ih (sameInk_cellAfter h first)

theorem sameInk_foldl_fill (h : cell.SameInk other) (color? : Option Terminal.Color)
    (region : Region) (columns : Nat) :
    ((color?.map (fill region)).toList.foldl (cellAfter columns x y) cell).SameInk other := by
  refine sameInk_foldl_mute (fun stroke hmem => ?_) h columns
  obtain ⟨color, -, rfl⟩ := Option.map_eq_some_iff.mp (Option.mem_toList.mp hmem)
  exact .inl ⟨region, color, rfl⟩

end Stroke

namespace Document

variable {doc : Document} {look : Look} {x y : Int}

namespace Forest

theorem content_covers (h : doc.Forest) {spacing : Spacing} {outer next inner : NodeId × Slot}
    (hnests : doc.Nests spacing outer next) (hwithin : doc.Within spacing next inner)
    (hx : inner.2.Spans x)
    (hy : inner.2.y ≤ y ∧ y < inner.2.y + doc.outerHeight spacing inner.1) :
    (doc.contentAt spacing outer.2 outer.1).Covers x y := by
  have hcolumn := (Within.inside hwithin).spans hx
  have hrows := h.within_rows hwithin
  have hstack := stack_rows hnests
  obtain ⟨_, _, -, hslot⟩ := mem_stack_iff.mp hnests
  rw [hslot] at hcolumn
  have hnonempty : (doc.children outer.1).isEmpty = false :=
    List.isEmpty_eq_false_iff_exists_mem.mpr ⟨_, hnests.mem_children⟩
  have hheight : (doc.contentAt spacing outer.2 outer.1).height =
      doc.stackedHeight spacing (doc.children outer.1) := by
    simp only [contentAt, blockAt, Region.inset, Region.ofBounds, contentHeight, hnonempty,
      Bool.false_eq_true, if_false]
    omega
  refine ⟨hcolumn, ?_⟩
  omega

theorem mute_of_mem_own (h : doc.Forest) {outer next inner : NodeId × Slot}
    (hnests : doc.Nests look.spacing outer next) (hwithin : doc.Within look.spacing next inner)
    (hx : inner.2.Spans x)
    (hy : inner.2.y ≤ y ∧ y < inner.2.y + doc.outerHeight look.spacing inner.1)
    (hnamed : x < Region.lastCoordinate ∧ y < Region.lastCoordinate)
    {ground : Option Terminal.Color} {stroke : Stroke}
    (hmem : stroke ∈ doc.ownStrokes look outer ground) : stroke.Mute x y := by
  rcases mem_ownStrokes_iff.mp hmem with ⟨color, -, rfl⟩ | ⟨-, rfl⟩
  · exact .inl ⟨_, color, rfl⟩
  · refine .inr fun htouches => htouches.2 ?_
    rw [Region.contains_iff_covers hnamed.1 hnamed.2]
    exact h.content_covers hnests hwithin hx hy

theorem fits_of_mem_strokes (h : doc.Forest) (look : Look) {id : NodeId}
    (hid : doc.isElement id = true) {width : Nat} {ground : Option Terminal.Color}
    {ink : Terminal.Color} {stroke : Stroke}
    (hmem : stroke ∈ (doc.subtree id).strokes look 0 0 width ground ink) : stroke.Fits width := by
  rcases h.stroke_cases look (id, ⟨0, 0, width⟩) hid hmem with
    ⟨_, _, -, -, -, rfl⟩ | ⟨-, _, -, -, -, rfl⟩ | ⟨owner, text, words, row, hprints, rfl⟩
  · trivial
  · trivial
  · obtain ⟨howner, -, hnests⟩ := prints_iff.mp hprints
    exact hnests.inside.trans (Within.inside howner)

theorem sameInk_strokes (h : doc.Forest) (look : Look) {id : NodeId}
    (hid : doc.isElement id = true) (slot : Slot) (ground ground' : Option Terminal.Color)
    (ink ink' : Terminal.Color) {cell other : Cell} (hcell : cell.SameInk other) (columns : Nat) :
    (((doc.subtree id).strokes look slot.x slot.y slot.width ground ink).foldl
        (Stroke.cellAfter columns x y) cell).SameInk
      (((doc.subtree id).strokes look slot.x slot.y slot.width ground' ink').foldl
        (Stroke.cellAfter columns x y) other) := by
  -- Ground and ink decide about the first stroke at most.
  obtain ⟨rest, hstrokes⟩ : ∃ rest, ∀ ground ink,
      (doc.subtree id).strokes look slot.x slot.y slot.width ground ink =
        (((look.colors id).bg.or ground).map
          (Stroke.fill (doc.blockAt look.spacing slot id))).toList ++ rest :=
    ⟨_, fun ground ink =>
      (h.strokes_subtree look hid slot ground ink).trans (List.append_assoc ..)⟩
  rw [hstrokes, hstrokes, List.foldl_append, List.foldl_append]
  apply Stroke.sameInk_foldl
  refine Stroke.sameInk_foldl_fill ?_ _ _ columns
  exact (Stroke.sameInk_foldl_fill hcell.symm _ _ columns).symm

theorem showsOnTop_of_within (h : doc.Forest) {start inner : NodeId × Slot} {id : NodeId}
    {color : Terminal.Color} (hwithin : doc.Within look.spacing start inner)
    (htop : doc.ShowsOnTop look inner x y id color) :
    doc.ShowsOnTop look start x y id color := by
  obtain ⟨slot, hbelow, helement, hcovers, hbg⟩ := htop.1
  refine ⟨⟨slot, hwithin.trans hbelow, helement, hcovers, hbg⟩, ?_⟩
  rintro other shade ⟨slot', hwithin', helement', hcovers', hbg'⟩
  have hself : doc.Within look.spacing (other, slot') (other, slot') := .refl
  rcases h.within_total hwithin hwithin' (h.block_rows hbelow helement hcovers)
    (h.block_rows hself helement' hcovers') with hinside | haround
  · exact htop.2 other shade ⟨slot', hinside, helement', hcovers', hbg'⟩
  · exact h.mem_inclusiveAncestors_of_within (haround.trans hbelow)
      (contains_of_isElement helement')

theorem sameInk_part (h : doc.Forest) (look : Look) {root id : NodeId} {width : Nat} {slot : Slot}
    (hwithin : doc.Within look.spacing (root, ⟨0, 0, width⟩) (id, slot))
    (hid : doc.isElement id = true) (hwidth : (width : Int) ≤ Region.lastCoordinate)
    (hx : 0 ≤ x ∧ x < slot.width) (hy : 0 ≤ y ∧ y < doc.outerHeight look.spacing id)
    (hbottom : y + slot.y < Region.lastCoordinate) (ground ground' : Option Terminal.Color)
    (ink ink' : Terminal.Color) :
    (((doc.subtree root).strokes look 0 0 width ground ink).foldl
        (Stroke.cellAfter width (x + slot.x) (y + slot.y)) {}).SameInk
      (((doc.subtree id).strokes look 0 0 slot.width ground' ink').foldl
        (Stroke.cellAfter slot.width x y) {}) := by
  have hinside : slot.Inside ⟨0, 0, width⟩ := hwithin.inside
  have htop : 0 ≤ slot.y := (h.within_rows hwithin).1
  have hroom : 0 ≤ slot.x ∧ slot.x + slot.width ≤ width := by
    simp only [Slot.Inside] at hinside
    omega
  have hspans : slot.Spans (x + slot.x) := by
    simp only [Slot.Spans]
    omega
  have hrows : slot.y ≤ y + slot.y ∧ y + slot.y < slot.y + doc.outerHeight look.spacing id := by
    omega
  have hnamed : x + slot.x < Region.lastCoordinate ∧ y + slot.y < Region.lastCoordinate := by
    omega
  have hmute : ∀ outer next, doc.Nests look.spacing outer next →
      doc.Within look.spacing next (id, slot) →
      ∀ ground, ∀ stroke ∈ doc.ownStrokes look outer ground,
        stroke.Mute (x + slot.x) (y + slot.y) :=
    fun _ _ hnests hrest _ _ => h.mute_of_mem_own hnests hrest hspans hrows hnamed
  obtain ⟨ground'', ink'', before, after, hstrokes, hbefore, hafter⟩ :=
    h.encloses_within look hwithin hrows (fun _ haway => .inr (haway _)) hmute ground ink
  have hmoved : (doc.subtree id).strokes look slot.x slot.y slot.width ground'' ink'' =
      ((doc.subtree id).strokes look 0 0 slot.width ground'' ink'').map
        (Stroke.shift slot.x slot.y) := by
    rw [← Tree.strokes_shift, Int.zero_add, Int.zero_add]
  have hblank : Cell.SameInk {} {} := ⟨rfl, rfl⟩
  have hbare := Stroke.sameInk_foldl_mute hbefore hblank width
  simp only at hstrokes
  rw [hstrokes, List.foldl_append, List.foldl_append,
    Stroke.foldl_of_not_touches fun stroke hmem => hafter stroke hmem _, hmoved,
    Stroke.foldl_cellAfter_shift _ (fun _ => h.fits_of_mem_strokes look hid) hroom (by omega)
      (by omega)]
  exact h.sameInk_strokes look hid ⟨0, 0, slot.width⟩ ground'' ground' ink'' ink' hbare slot.width

theorem ground_part (h : doc.Forest) (look : Look) {root id : NodeId} {width : Nat} {slot : Slot}
    (hwithin : doc.Within look.spacing (root, ⟨0, 0, width⟩) (id, slot))
    {background background' : Terminal.Color} {ground ground' : Option Terminal.Color}
    (hwhole : doc.GroundLaw look background (root, ⟨0, 0, width⟩) (x + slot.x) (y + slot.y) ground)
    (hpart : doc.GroundLaw look background' (id, ⟨0, 0, slot.width⟩) x y ground')
    (hshows : ∃ top color, doc.Shows look (id, slot) (x + slot.x) (y + slot.y) top color) :
    ground = ground' := by
  have hplace : (⟨0, 0, slot.width⟩ : Slot).shift slot.x slot.y = slot := by
    simp [Slot.shift]
  have hmoved (top : NodeId) (color : Terminal.Color) :
      doc.Shows look (id, slot) (x + slot.x) (y + slot.y) top color ↔
        doc.Shows look (id, ⟨0, 0, slot.width⟩) x y top color := by
    have hiff : doc.Shows look (id, (⟨0, 0, slot.width⟩ : Slot).shift slot.x slot.y) (x + slot.x)
        (y + slot.y) top color ↔ _ := shows_shift_iff slot.x slot.y
    rwa [hplace] at hiff
  simp only [hmoved] at hshows
  obtain ⟨top, color, htop⟩ := hpart.exists_onTop hshows
  have hplaced : doc.ShowsOnTop look (id, slot) (x + slot.x) (y + slot.y) top color := by
    simpa only [ShowsOnTop, hmoved] using htop
  rw [hpart.onTop top color htop,
    hwhole.onTop top color (h.showsOnTop_of_within hwithin hplaced)]

end Forest

end Document

namespace Renderer

theorem cells_part {doc : Document} (hforest : doc.Forest) {root part : NodeId}
    (hroot : doc.isElement root = true) (hpart : doc.isElement part = true) (renderer : Renderer)
    (styles : ComputedStyles) {width : Nat} (hwidth : (width : Int) ≤ Region.lastCoordinate)
    {slot : Slot} :
    let look := renderer.look styles
    let whole := renderer.paint styles (doc.subtree root) width
      (min (doc.outerHeight look.spacing root) maxRows)
    let alone := renderer.paint styles (doc.subtree part) slot.width
      (min (doc.outerHeight look.spacing part) maxRows)
    doc.Within look.spacing (root, ⟨0, 0, width⟩) (part, slot) →
      ∀ x y : Nat, x < slot.width → y < doc.outerHeight look.spacing part → y < maxRows →
        slot.y + y < maxRows →
          ∃ cell cell', whole.cell? (slot.x + x) (slot.y + y) = some cell ∧
            alone.cell? x y = some cell' ∧ cell.symbol = cell'.symbol ∧ cell.fg = cell'.fg ∧
            ((∃ id color, doc.Shows look (part, slot) (slot.x + x) (slot.y + y) id color) →
              cell.bg = cell'.bg) := by
  intro look whole alone hwithin x y hx hy hrow hbottom
  have hinside : slot.Inside ⟨0, 0, width⟩ := hwithin.inside
  have hrows : 0 ≤ slot.y ∧ slot.y + doc.outerHeight look.spacing part ≤
      0 + doc.outerHeight look.spacing root := hforest.within_rows hwithin
  have hlast : (maxRows : Int) < Region.lastCoordinate := by decide
  simp only [Slot.Inside] at hinside
  rw [Int.add_comm slot.x, Int.add_comm slot.y]
  obtain ⟨cell, hcell⟩ := Option.isSome_iff_exists.mp
    ((renderer.cell?_paint_isSome_iff styles (doc.subtree root) width
      (min (doc.outerHeight look.spacing root) maxRows) (x + slot.x) (y + slot.y)).mpr (by omega))
  obtain ⟨cell', hcell'⟩ := Option.isSome_iff_exists.mp
    ((renderer.cell?_paint_isSome_iff styles (doc.subtree part) slot.width
      (min (doc.outerHeight look.spacing part) maxRows) x y).mpr (by omega))
  have hink : cell.SameInk cell' := by
    rw [Canvas.eq_foldl_of_cell?_drawAll hcell, Canvas.eq_foldl_of_cell?_drawAll hcell']
    exact hforest.sameInk_part look hwithin hpart hwidth (by omega) (by omega) (by omega) ..
  refine ⟨cell, cell', hcell, hcell', hink.symbol, hink.fg, ?_⟩
  exact hforest.ground_part look hwithin
    (groundLaw_paint hforest hroot renderer styles (Nat.min_le_left ..) hcell)
    (groundLaw_paint hforest hpart renderer styles (Nat.min_le_left ..) hcell')

/-- An element that is rendered by itself, as wide as the content of its parent is within
a larger tree, looks as it does there, row for row, as far as both canvases reach. Where
an element at or below it shows a ground of its own, the grounds are the same too. -/
theorem render_part (number : Nat) (calls : List Document.Call) (root part : NodeId)
    (styles : ComputedStyles) (renderer : Renderer) (width : Nat)
    (hroot : ((Document.empty number).run calls).isElement root = true)
    (hpart : ((Document.empty number).run calls).isElement part = true)
    (hbelow : root ∈ ((Document.empty number).run calls).inclusiveAncestors part)
    (hother : part ≠ root) (hwidth : (width : Int) ≤ Region.lastCoordinate) :
    let doc := (Document.empty number).run calls
    let look := renderer.look styles
    ∃ owner above below, doc.Within look.spacing (root, ⟨0, 0, width⟩) owner ∧
      doc.children owner.1 = above ++ part :: below ∧
      let content := doc.contentAt look.spacing owner.2 owner.1
      let slot : Slot :=
        ⟨content.x, content.y + doc.stackedHeight look.spacing above, content.width⟩
      ∃ whole alone, renderer.Renders doc root styles width whole ∧
        renderer.Renders doc part styles slot.width alone ∧
        ∀ x y : Nat, x < slot.width → y < doc.outerHeight look.spacing part → y < maxRows →
          slot.y + y < maxRows →
            ∃ cell cell', whole.value.cell? (slot.x + x) (slot.y + y) = some cell ∧
              alone.value.cell? x y = some cell' ∧
              cell.symbol = cell'.symbol ∧ cell.fg = cell'.fg ∧
              ((∃ id color, doc.Shows look (part, slot) (slot.x + x) (slot.y + y) id color) →
                cell.bg = cell'.bg) := by
  intro doc look
  have hforest : doc.Forest := (Document.Forest.empty number).run calls
  have howned := Document.contains_of_isElement hpart
  obtain ⟨inner, hwithin⟩ : ∃ inner, doc.Within look.spacing (root, ⟨0, 0, width⟩) (part, inner) :=
    hforest.exists_within ⟨0, 0, width⟩ howned hbelow
  rcases Relation.ReflTransGen.cases_tail hwithin with heq | ⟨owner, howner, hnests⟩
  · exact absurd (Prod.mk.inj heq).1 hother
  · obtain ⟨above, below, hsplit, rfl⟩ := Document.mem_stack_iff.mp hnests
    refine ⟨owner, above, below, howner, hsplit, ?_⟩
    intro content slot
    obtain ⟨records, hwhole⟩ := exists_renders hroot renderer styles width
    obtain ⟨records', halone⟩ := exists_renders hpart renderer styles slot.width
    exact ⟨_, _, hwhole, halone, cells_part hforest hroot hpart renderer styles hwidth hwithin⟩

theorem render_part_button :
    let doc := (Document.empty 0).run [.createDiv none none, .createButton "yes" none none,
      .createButton "no" none none, .add ⟨0, 0⟩ [⟨0, 1⟩, ⟨0, 3⟩]]
    let root : NodeId := ⟨0, 0⟩
    let part : NodeId := ⟨0, 3⟩
    let styles :=
      (ComputedStyles.empty.insert root { padding := 1 }).insert part { bg := some .red }
    let renderer : Renderer := ⟨.plain, .palette, false, false⟩
    doc.isElement root = true ∧ doc.isElement part = true ∧
      root ∈ doc.inclusiveAncestors part ∧ part ≠ root ∧ (6 : Int) ≤ Region.lastCoordinate ∧
      ∃ whole alone, renderer.render doc root styles 6 = .ok whole ∧
        renderer.render doc part styles 4 = .ok alone ∧
        ∃ cell cell', whole.value.cell? 1 2 = some cell ∧ alone.value.cell? 0 0 = some cell' ∧
          cell.symbol = cell'.symbol ∧ cell.fg = cell'.fg ∧ cell.bg = cell'.bg := by
  intro doc root part styles renderer
  have hroot : doc.isElement root = true := by decide
  have hpart : doc.isElement part = true := by decide
  have hbelow : root ∈ doc.inclusiveAncestors part := by decide
  have hother : part ≠ root := by decide
  have hwidth : (6 : Int) ≤ Region.lastCoordinate := by decide
  obtain ⟨owner, above, below, howner, hsplit, whole, alone, hwhole, halone, hcells⟩ :=
    render_part 0 [.createDiv none none, .createButton "yes" none none,
      .createButton "no" none none, .add ⟨0, 0⟩ [⟨0, 1⟩, ⟨0, 3⟩]] root part styles renderer 6
      hroot hpart hbelow hother hwidth
  have hforest : doc.Forest := (Document.Forest.empty 0).run _
  have hparent : doc.parent part = some owner.1 :=
    (hforest.linked owner.1 part).mp (by rw [hsplit]; simp)
  have hsame : owner = (root, ⟨0, 0, 6⟩) :=
    hforest.within_unique howner .refl (Option.some.inj (hparent.symm.trans (by decide)))
  subst hsame
  have hplaced : doc.Nests (renderer.look styles).spacing (root, ⟨0, 0, 6⟩) (part, ⟨1, 2, 4⟩) :=
    Document.mem_stack_iff.mpr ⟨[⟨0, 1⟩], [], by decide, by decide +kernel⟩
  have hslot := Document.slot_unique (hforest.distinct root)
    (Document.mem_stack_iff.mpr ⟨above, below, hsplit, rfl⟩) hplaced
  rw [hslot] at halone hcells
  obtain ⟨cell, cell', hcell, hcell', hsymbol, hfg, hbg⟩ :=
    hcells 0 0 (by decide) (by decide +kernel) (by decide) (by decide)
  have hwholeRender := (hwhole.fits (by decide +kernel)).1
  have haloneRender := (halone.fits (by decide +kernel)).1
  refine ⟨hroot, hpart, hbelow, hother, hwidth, whole, alone, hwholeRender, haloneRender, cell,
    cell', hcell, hcell', hsymbol, hfg, hbg ⟨part, .solid .red, ⟨1, 2, 4⟩, .refl, hpart, ?_, ?_⟩⟩
  · decide +kernel
  · decide

end Renderer

end StyledTree
