import StyledTree.Proofs.Rendering.Layers

/-!
# Rows of a rendered canvas

A row of a rendered canvas holds one line of text or none. The line is in one color and
over one ground, since the strokes behind it are those of the elements around it; all
other cells of the row are as if no text were there.
-/

namespace StyledTree

/-- The cell holds no text; it may hold a mark if padding is marked. -/
structure Cell.Vacant (marks : Bool) (cell : Cell) : Prop where
  symbol : cell.symbol = " " ∨ marks = true ∧ cell.symbol = String.singleton paddingMark
  fg : cell.fg = none

/-- A row of a canvas with symbols in it from a column on: they are in one color, over
one ground, and the cells beside them are vacant. -/
structure Canvas.Inscribed (canvas : Canvas) (marks : Bool) (row left : Int)
    (symbols : List String) (ink : Terminal.Color) : Prop where
  within : symbols ≠ [] → 0 ≤ left ∧ left + symbols.length ≤ canvas.width
  symbol : ∀ x cell, canvas.cell? x row = some cell → left ≤ x ∧ x < left + symbols.length →
    symbols[(x - left).toNat]? = some cell.symbol
  fg : ∀ x cell, canvas.cell? x row = some cell → left ≤ x ∧ x < left + symbols.length →
    cell.fg = some ink
  bg : ∀ x x' cell cell', canvas.cell? x row = some cell → canvas.cell? x' row = some cell' →
    left ≤ x ∧ x < left + symbols.length → left ≤ x' ∧ x' < left + symbols.length →
    cell.bg = cell'.bg
  vacant : ∀ x cell, canvas.cell? x row = some cell → ¬(left ≤ x ∧ x < left + symbols.length) →
    cell.Vacant marks

theorem Canvas.Inscribed.exists_cell {canvas : Canvas} {marks : Bool} {row left : Int}
    {symbols : List String} {ink : Terminal.Color} (h : canvas.Inscribed marks row left symbols ink)
    (hrow : 0 ≤ row ∧ row < canvas.height) {i : Nat} {symbol : String}
    (hsymbol : symbols[i]? = some symbol) :
    ∃ cell, canvas.cell? (left + i) row = some cell ∧ cell.symbol = symbol ∧
      cell.fg = some ink := by
  obtain ⟨hi, -⟩ := List.getElem?_eq_some_iff.mp hsymbol
  have hwithin := h.within (List.ne_nil_of_length_pos (by omega))
  obtain ⟨cell, hcell⟩ := Option.isSome_iff_exists.mp
    ((canvas.cell?_isSome_iff (left + i) row).mpr ⟨by omega, by omega, hrow⟩)
  have hin : left ≤ left + i ∧ left + (i : Int) < left + symbols.length := by omega
  have hat := h.symbol _ cell hcell hin
  rw [show (left + i - left).toNat = i by omega, hsymbol] at hat
  exact ⟨cell, hcell, (Option.some.inj hat).symm, h.fg _ cell hcell hin⟩

/-! ## Cells under strokes -/

namespace Stroke

variable {stroke : Stroke} {strokes : List Stroke} {x y : Int} {cell : Cell}

theorem vacant_cellAfter {marks : Bool} (hwordless : stroke.Wordless y)
    (hmarks : ∀ block content, stroke = .mark block content → marks = true)
    (hcell : cell.Vacant marks) (columns : Nat) :
    (stroke.cellAfter columns x y cell).Vacant marks := by
  cases stroke with
  | fill region color =>
      simp only [cellAfter]
      split
      · exact ⟨hcell.symbol, hcell.fg⟩
      · exact hcell
  | mark block content =>
      simp only [cellAfter]
      split
      · exact ⟨.inr ⟨hmarks block content rfl, rfl⟩, hcell.fg⟩
      · exact hcell
  | write left row width text color =>
      rw [cellAfter_of_not_touches]
      · exact hcell
      · rintro ⟨hrow, hcolumn⟩
        have hnone : width = 0 := hwordless hrow
        omega

theorem vacant_foldl {marks : Bool} (hwordless : ∀ stroke ∈ strokes, stroke.Wordless y)
    (hmarks : ∀ block content, .mark block content ∈ strokes → marks = true)
    (hcell : cell.Vacant marks) (columns : Nat) :
    (strokes.foldl (cellAfter columns x y) cell).Vacant marks := by
  refine List.foldlRecOn strokes _ hcell fun held hheld stroke hmem => ?_
  refine vacant_cellAfter (hwordless stroke hmem) ?_ hheld columns
  rintro block content rfl
  exact hmarks block content hmem

theorem bg_cellAfter_eq {slot : Slot} (hlevel : stroke.Level slot y) {x' : Int}
    (hx : slot.Spans x) (hx' : slot.Spans x') {cell' : Cell} (hbg : cell.bg = cell'.bg)
    (columns : Nat) :
    (stroke.cellAfter columns x y cell).bg = (stroke.cellAfter columns x' y cell').bg := by
  rw [bg_cellAfter, bg_cellAfter, hbg]
  cases stroke with
  | fill region color =>
      simp only [tint]
      by_cases hcovers : region.Covers x y
      · rw [if_pos hcovers, if_pos (hlevel x x' hx hx' hcovers)]
      · rw [if_neg hcovers, if_neg (mt (hlevel x' x hx' hx) hcovers)]
  | mark block content => rfl
  | write left row width text color => rfl

theorem bg_foldl_eq {slot : Slot} (hlevel : ∀ stroke ∈ strokes, stroke.Level slot y) {x' : Int}
    (hx : slot.Spans x) (hx' : slot.Spans x') {cell' : Cell} (hbg : cell.bg = cell'.bg)
    (columns : Nat) :
    (strokes.foldl (cellAfter columns x y) cell).bg =
      (strokes.foldl (cellAfter columns x' y) cell').bg := by
  induction strokes generalizing cell cell' with
  | nil => exact hbg
  | cons stroke later ih =>
      refine ih (fun other hmem => hlevel other (List.mem_cons_of_mem _ hmem)) ?_
      exact bg_cellAfter_eq (hlevel stroke List.mem_cons_self) hx hx' hbg columns

theorem foldl_of_not_touches (h : ∀ stroke ∈ strokes, ¬stroke.Touches x y) (columns : Nat) :
    strokes.foldl (cellAfter columns x y) cell = cell := by
  refine List.foldlRecOn (motive := (· = cell)) strokes _ rfl fun held hheld stroke hmem => ?_
  rw [cellAfter_of_not_touches (h stroke hmem), hheld]

end Stroke

namespace Canvas

theorem eq_foldl_of_cell?_drawAll {width height : Nat} {strokes : List Stroke} {x y : Int}
    {cell : Cell} (hcell : ((blank width height).drawAll strokes).cell? x y = some cell) :
    cell = strokes.foldl (Stroke.cellAfter width x y) {} := by
  rw [cell?_drawAll] at hcell
  obtain ⟨bare, hbare, rfl⟩ := Option.map_eq_some_iff.mp hcell
  have hbounds := (cell?_isSome_iff _ x y).mp (Option.isSome_of_eq_some hbare)
  rw [cell?_blank width height hbounds] at hbare
  rw [← Option.some.inj hbare]
  rfl

end Canvas

/-! ## Rows under strokes -/

theorem lineSymbols_of_inside {columns : Nat} {slot : Slot} {y : Int}
    (hinside : slot.Inside ⟨0, y, columns⟩) (text : String) :
    lineSymbols columns slot.x slot.width text =
      (fitting slot.width (glyphs text)).flatMap cellSymbols := by
  unfold lineSymbols
  rcases hinside with hnone | hinside
  · rw [fitting_of_nonpos (by omega), fitting_of_nonpos (by omega)]
  · congr 2
    simp only at hinside
    omega

namespace Stroke

variable {strokes : List Stroke} {marks : Bool} {row : Int} {width : Nat}

theorem inscribed_of_wordless (hwordless : ∀ stroke ∈ strokes, stroke.Wordless row)
    (hmarks : ∀ block content, .mark block content ∈ strokes → marks = true) (height : Nat)
    (ink : Terminal.Color) :
    ((Canvas.blank width height).drawAll strokes).Inscribed marks row 0 [] ink := by
  have hout (x : Int) : ¬(0 ≤ x ∧ x < 0 + ([] : List String).length) := by
    rw [List.length_nil]
    omega
  refine ⟨fun hne => absurd rfl hne, fun x _ _ hin => absurd hin (hout x),
    fun x _ _ hin => absurd hin (hout x), fun x _ _ _ _ _ hin => absurd hin (hout x), ?_⟩
  intro x cell hcell _
  rw [Canvas.eq_foldl_of_cell?_drawAll hcell]
  exact vacant_foldl hwordless hmarks ⟨.inl rfl, rfl⟩ width

/-- A text that is written over strokes behind its line, and that no later stroke touches,
changes vacant cells of one ground. -/
theorem Layered.exists_under {line : Slot} {text : String} {ink : Terminal.Color}
    (hlayered : Layered line row strokes [.write line.x row line.width text ink]) (width : Nat)
    (hmarks : ∀ block content, .mark block content ∈ strokes → marks = true) (height : Nat) :
    ∃ under : Int → Cell, (∀ x, (under x).Vacant marks) ∧
      (∀ x x', line.Spans x → line.Spans x' → (under x).bg = (under x').bg) ∧
      ∀ x cell, ((Canvas.blank width height).drawAll strokes).cell? x row = some cell →
        cell = cellAfter width x row (under x) (.write line.x row line.width text ink) := by
  obtain ⟨before, after, rfl, hbefore, hafter⟩ := hlayered
  refine ⟨fun x => before.foldl (cellAfter width x row) {}, ?_, ?_, ?_⟩
  · intro x
    refine vacant_foldl (fun stroke hmem => (hbefore stroke hmem).1) ?_ ⟨.inl rfl, rfl⟩ width
    intro block content hmem
    exact hmarks block content (List.mem_append_left _ (List.mem_append_left _ hmem))
  · intro x x' hx hx'
    exact bg_foldl_eq (fun stroke hmem => (hbefore stroke hmem).2) hx hx' rfl width
  · intro x cell hcell
    rw [Canvas.eq_foldl_of_cell?_drawAll hcell, List.foldl_append, List.foldl_append,
      foldl_of_not_touches fun stroke hmem => hafter stroke hmem x]
    rfl

theorem Layered.inscribed {line : Slot} {text : String} {ink : Terminal.Color}
    (hlayered : Layered line row strokes [.write line.x row line.width text ink])
    (hinside : line.Inside ⟨0, 0, width⟩)
    (hmarks : ∀ block content, .mark block content ∈ strokes → marks = true) (height : Nat) :
    ((Canvas.blank width height).drawAll strokes).Inscribed marks row line.x
      ((fitting line.width (glyphs text)).flatMap cellSymbols) ink := by
  obtain ⟨under, hvacant, hlevel, hwritten⟩ := hlayered.exists_under width hmarks height
  have hlength := length_lineSymbols_le width line.x line.width text
  simp only [cellAfter, true_and] at hwritten
  rw [← lineSymbols_of_inside hinside text]
  generalize lineSymbols width line.x line.width text = symbols at hlength hwritten ⊢
  constructor
  case within =>
    intro hne
    rw [(Canvas.sameSize_drawAll _ _).1]
    show 0 ≤ line.x ∧ line.x + symbols.length ≤ width
    rcases hinside with hnone | hinside
    · exact absurd (List.length_eq_zero_iff.mp (by omega)) hne
    · simp only at hinside
      omega
  case symbol =>
    intro x cell hcell hin
    rw [hwritten x cell hcell, if_pos hin]
    show _ = some (symbols.getD (x - line.x).toNat "")
    rw [List.getD_eq_getElem?_getD, List.getElem?_eq_getElem (by omega), Option.getD_some]
  case fg =>
    intro x cell hcell hin
    rw [hwritten x cell hcell, if_pos hin]
    rfl
  case bg =>
    intro x x' cell cell' hcell hcell' hin hin'
    rw [hwritten x cell hcell, hwritten x' cell' hcell', if_pos hin, if_pos hin']
    exact hlevel x x' ⟨hin.1, by omega⟩ ⟨hin'.1, by omega⟩
  case vacant =>
    intro x cell hcell hout
    rw [hwritten x cell hcell, if_neg hout]
    exact hvacant x

end Stroke

namespace Document.Forest

variable {doc : Document} (h : doc.Forest) (look : Look) {root : NodeId}
  (hroot : doc.isElement root = true) (width height : Nat) (ground : Option Terminal.Color)
  (ink : Terminal.Color) {row : Int}

include h hroot

theorem marksPadding_of_mem {block content : Region}
    (hmem : .mark block content ∈ (doc.subtree root).strokes look 0 0 width ground ink) :
    look.marksPadding = true := by
  rcases h.stroke_cases look (root, ⟨0, 0, width⟩) hroot hmem with
    ⟨_, _, _, _, _, hfill⟩ | ⟨hmarks, _⟩ | ⟨_, _, _, _, _, hwrite⟩
  · cases hfill
  · exact hmarks
  · cases hwrite

theorem inscribed_of_prints {owner : NodeId × Slot} {id : NodeId} {words : String}
    (hprints : doc.Prints look.spacing (root, ⟨0, 0, width⟩) owner id words row) :
    let content := doc.contentAt look.spacing owner.2 owner.1
    ((Canvas.blank width height).drawAll
      ((doc.subtree root).strokes look 0 0 width ground ink)).Inscribed look.marksPadding row
      content.x ((fitting content.width (glyphs words)).flatMap cellSymbols)
      (look.colors owner.1).fg := by
  obtain ⟨hwithin, -, hnests⟩ := prints_iff.mp hprints
  exact (h.layered_prints look hprints ground ink).inscribed
    (hnests.inside.trans (Within.inside hwithin))
    (fun _ _ => h.marksPadding_of_mem look hroot width ground ink) height

theorem inscribed_of_not_prints
    (hnone : ∀ owner id words,
      ¬doc.Prints look.spacing (root, ⟨0, 0, width⟩) owner id words row) :
    ((Canvas.blank width height).drawAll
      ((doc.subtree root).strokes look 0 0 width ground ink)).Inscribed look.marksPadding row 0 []
      ink := by
  refine Stroke.inscribed_of_wordless ?_
    (fun _ _ => h.marksPadding_of_mem look hroot width ground ink) height ink
  intro stroke hmem
  rcases h.stroke_cases look (root, ⟨0, 0, width⟩) hroot hmem with
    ⟨_, _, _, _, _, rfl⟩ | ⟨_, _, _, _, _, rfl⟩ | ⟨owner, id, words, _, hprints, rfl⟩
  · trivial
  · trivial
  · rintro rfl
    exact absurd hprints (hnone owner id words)

end Document.Forest

end StyledTree
