import StyledTree.Proofs.Document.Growth
import StyledTree.Proofs.Rendering.Rows

/-!
# The texts of a rendered canvas

Every text below the element rendered has a row to itself, and as long as the canvas
reaches down to that row, it shows there as much of the text as fits into the content of
the element that the text belongs to. Nothing else is written on the canvas.
-/

namespace StyledTree

/-- A row shows glyphs one after the other from a column on, all in one color: each in
the first of the cells that it fills, and nothing in the second. The other cells of the
row are blank. -/
structure Canvas.ShowsLine (canvas : Canvas) (row left : Int) (shown : List (List Char))
    (ink : Terminal.Color) : Prop where
  lead : ∀ before glyph after, shown = before ++ glyph :: after →
    ∃ cell, canvas.cell? (left + lineWidth before) row = some cell ∧
      cell.symbol = String.ofList glyph ∧ cell.fg = some ink
  covered : ∀ before glyph after, shown = before ++ glyph :: after →
    Text.displayWidth glyph = 2 →
      ∃ cell, canvas.cell? (left + lineWidth before + 1) row = some cell ∧
        cell.symbol = "" ∧ cell.fg = some ink
  beside : ∀ x cell, canvas.cell? x row = some cell →
    ¬(left ≤ x ∧ x < left + lineWidth shown) → cell.symbol = " " ∧ cell.fg = none

theorem Cell.Vacant.blank {cell : Cell} (h : cell.Vacant false) :
    cell.symbol = " " ∧ cell.fg = none := by
  refine ⟨?_, h.fg⟩
  rcases h.symbol with hblank | ⟨hmarks, -⟩
  · exact hblank
  · cases hmarks

theorem Canvas.Inscribed.showsLine {canvas : Canvas} {row left : Int} {shown : List (List Char)}
    {ink : Terminal.Color}
    (h : canvas.Inscribed false row left (shown.flatMap cellSymbols) ink)
    (hrow : 0 ≤ row ∧ row < canvas.height) : canvas.ShowsLine row left shown ink where
  lead before glyph after hsplit := by
    have hsymbol := getElem?_flatMap_cellSymbols before glyph after 0 (Text.displayWidth_pos glyph)
    rw [← hsplit, getElem?_cellSymbols (Text.displayWidth_pos glyph)] at hsymbol
    exact h.exists_cell hrow hsymbol
  covered before glyph after hsplit hwide := by
    have hsymbol := getElem?_flatMap_cellSymbols before glyph after 1 (by omega)
    rw [← hsplit, getElem?_cellSymbols (by omega)] at hsymbol
    have hcell := h.exists_cell hrow hsymbol
    rwa [Int.natCast_add, ← Int.add_assoc] at hcell
  beside x cell hcell hout := by
    rw [← length_flatMap_cellSymbols] at hout
    exact (h.vacant x cell hcell hout).blank

/-- The law of the texts on the canvas of an element. -/
structure Document.TextLaw (doc : Document) (spacing : Spacing) (ink : NodeId → Terminal.Color)
    (root : NodeId) (canvas : Canvas) : Prop where
  /-- The texts with a row are those below the element. -/
  placed : ∀ id words, doc.text id = .ok words →
    (root ∈ doc.inclusiveAncestors id ↔
      ∃ owner row, doc.Prints spacing (root, ⟨0, 0, canvas.width⟩) owner id words row)
  /-- No two texts have the same row, and no text has two. -/
  alone : ∀ owner id words row owner' id' words' row',
    doc.Prints spacing (root, ⟨0, 0, canvas.width⟩) owner id words row →
    doc.Prints spacing (root, ⟨0, 0, canvas.width⟩) owner' id' words' row' →
      (id = id' ↔ row = row')
  /-- As much of a text is shown as fits. -/
  shown : ∀ owner id words row,
    doc.Prints spacing (root, ⟨0, 0, canvas.width⟩) owner id words row → row < canvas.height →
      let content := doc.contentAt spacing owner.2 owner.1
      ∃ shown, LongestFitting content.width (glyphs words) shown ∧
        canvas.ShowsLine row content.x shown (ink owner.1)
  blank : ∀ row,
    (∀ owner id words,
      ¬doc.Prints spacing (root, ⟨0, 0, canvas.width⟩) owner id words row) →
    ∀ x cell, canvas.cell? x row = some cell → cell.symbol = " " ∧ cell.fg = none

namespace Document.Forest

variable {doc : Document}

theorem prints_nonneg (h : doc.Forest) {spacing : Spacing} {start owner : NodeId × Slot}
    {id : NodeId} {words : String} {row : Int}
    (hprints : doc.Prints spacing start owner id words row) : start.2.y ≤ row := by
  obtain ⟨hwithin, -, hnests⟩ := prints_iff.mp hprints
  exact (h.within_rows (hwithin.tail hnests)).1

theorem textLaw (h : doc.Forest) (look : Look) {root : NodeId}
    (hroot : doc.isElement root = true) (hmarks : look.marksPadding = false)
    (width height : Nat) (ground : Option Terminal.Color) (ink : Terminal.Color) :
    doc.TextLaw look.spacing (fun id => (look.colors id).fg) root
      ((Canvas.blank width height).drawAll
        ((doc.subtree root).strokes look 0 0 width ground ink)) := by
  obtain ⟨hwidth, hheight⟩ := Canvas.sameSize_drawAll (Canvas.blank width height)
    ((doc.subtree root).strokes look 0 0 width ground ink)
  constructor
  case placed =>
    intro id words htext
    constructor
    · exact h.exists_prints hroot _ htext
    · rintro ⟨owner, row, hprints⟩
      obtain ⟨hwithin, -, hnests⟩ := prints_iff.mp hprints
      exact h.mem_inclusiveAncestors_of_within (hwithin.tail hnests) (contains_of_isElement hroot)
  case alone =>
    intro owner id words row owner' id' words' row' hprints hprints'
    exact h.prints_unique hprints hprints'
  case shown =>
    intro owner id words row hprints hrow content
    refine ⟨_, longestFitting_fitting (Int.natCast_nonneg _) _, ?_⟩
    rw [hwidth] at hprints
    have hinscribed := h.inscribed_of_prints look hroot width height ground ink hprints
    rw [hmarks] at hinscribed
    exact hinscribed.showsLine ⟨h.prints_nonneg hprints, hrow⟩
  case blank =>
    intro row hnone x cell hcell
    rw [hwidth] at hnone
    have hinscribed := h.inscribed_of_not_prints look hroot width height ground ink hnone
    rw [hmarks] at hinscribed
    refine (hinscribed.vacant x cell hcell ?_).blank
    rw [List.length_nil]
    omega

end Document.Forest

namespace Renderer

/-- What is written on a canvas that an element is rendered on, for every document that
calls can lead to. -/
theorem render_texts (number : Nat) (calls : List Document.Call) (root : NodeId)
    (styles : ComputedStyles) (renderer : Renderer) (width : Nat)
    (hroot : ((Document.empty number).run calls).isElement root = true)
    (hbounds : renderer.showBounds = false) :
    let doc := (Document.empty number).run calls
    let spacing : Spacing := fun id => (styles.styleOf id).metrics
    ∃ output, renderer.Renders doc root styles width output ∧
      output.value.width = width ∧
      output.value.height = min (doc.outerHeight spacing root) maxRows ∧
      doc.TextLaw spacing
        (fun id => (renderer.mode.resolve (styles.styleOf id).fg).getD renderer.theme.foreground)
        root output.value := by
  intro doc spacing
  have hforest : doc.Forest := (Document.Forest.empty number).run calls
  obtain ⟨records, hrenders⟩ := exists_renders hroot renderer styles width
  obtain ⟨hwidth, hheight⟩ := renderer.sameSize_paint styles (doc.subtree root) width
    (min (doc.outerHeight spacing root) maxRows)
  exact ⟨_, hrenders, hwidth, hheight,
    hforest.textLaw (renderer.look styles) hroot hbounds width _ _ _⟩

/-- A button with padding, in which the second of two wide glyphs finds no room. -/
theorem render_texts_button :
    let doc := (Document.empty 0).run [.createButton "\u65e5\u672c" none none]
    let root : NodeId := ⟨0, 0⟩
    let styles := ComputedStyles.empty.insert root { padding := 1, fg := some .blue }
    let renderer : Renderer := ⟨.plain, .palette, false, false⟩
    doc.isElement root = true ∧ renderer.showBounds = false ∧
      ∃ output, renderer.render doc root styles 5 = .ok output ∧
        (∃ cell, output.value.cell? 1 1 = some cell ∧ cell.symbol = "\u65e5" ∧
          cell.fg = some (.solid .blue)) ∧
        (∃ cell, output.value.cell? 2 1 = some cell ∧ cell.symbol = "" ∧
          cell.fg = some (.solid .blue)) ∧
        ∀ cell, output.value.cell? 3 1 = some cell → cell.symbol = " " ∧ cell.fg = none := by
  intro doc root styles renderer
  have hroot : doc.isElement root = true := by decide
  obtain ⟨output, hrenders, hwidth, hheight, hlaw⟩ :=
    render_texts 0 [.createButton "\u65e5\u672c" none none] root styles renderer 5 hroot rfl
  have hprints : doc.Prints (renderer.look styles).spacing (root, ⟨0, 0, output.value.width⟩)
      (root, ⟨0, 0, 5⟩) ⟨0, 1⟩ "\u65e5\u672c" 1 := by
    rw [hwidth]
    exact ⟨.refl, rfl, [], [], by decide, by decide⟩
  obtain ⟨shown, hlongest, hline⟩ := hlaw.shown _ _ _ _ hprints (by rw [hheight]; decide)
  obtain rfl : shown = [['\u65e5']] :=
    hlongest.unique (longestFitting_fitting (Int.natCast_nonneg _) _) |>.trans (by decide +kernel)
  exact ⟨hroot, rfl, output, (hrenders.fits (by decide)).1, hline.lead [] _ [] rfl,
    hline.covered [] _ [] rfl (by decide), fun cell hcell => hline.beside 3 cell hcell (by decide)⟩

end Renderer

end StyledTree
