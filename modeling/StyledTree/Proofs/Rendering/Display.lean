import StyledTree.Proofs.Canvas.Replay
import StyledTree.Proofs.Document.Growth
import StyledTree.Proofs.Rendering.Rows

/-!
# Rendered canvases on screens

Drawing an element tears no symbol: its texts are in rows of their own, each within the
canvas and over one ground. So a screen that carries out the commands for a rendered
canvas shows every cell of it. Only if so many rows are needed that their sum does not fit
may lines come to lie over each other and tear a symbol.
-/

namespace StyledTree

theorem Cell.Vacant.symbolWidth_eq_one {marks : Bool} {cell : Cell} (h : cell.Vacant marks) :
    symbolWidth cell.symbol = 1 := by
  rcases h.symbol with hblank | ⟨-, hmark⟩
  · rw [hblank]
    decide
  · rw [hmark]
    decide

namespace Canvas

def Lined (canvas : Canvas) (marks : Bool) : Prop :=
  ∀ row, ∃ left symbols ink, Tiled symbols ∧ canvas.Inscribed marks row left symbols ink

namespace Inscribed

variable {canvas : Canvas} {marks : Bool} {row left : Int} {symbols : List String}
  {ink : Terminal.Color}

theorem exists_index (h : canvas.Inscribed marks row left symbols ink) {x : Int} {cell : Cell}
    (hcell : canvas.cell? x row = some cell) (hwidth : symbolWidth cell.symbol ≠ 1) :
    ∃ i : Nat, x = left + i ∧ symbols[i]? = some cell.symbol := by
  by_cases hin : left ≤ x ∧ x < left + symbols.length
  · exact ⟨(x - left).toNat, by omega, h.symbol x cell hcell hin⟩
  · exact absurd (h.vacant x cell hcell hin).symbolWidth_eq_one hwidth

end Inscribed

variable {canvas : Canvas} {marks : Bool}

theorem Lined.untorn (h : canvas.Lined marks) : canvas.Untorn where
  covered x y symbol hsymbol hwide := by
    have hbounds := symbol?_bounds hsymbol
    obtain ⟨cell, hcell, rfl⟩ := Option.map_eq_some_iff.mp hsymbol
    obtain ⟨left, symbols, ink, htiled, hinscribed⟩ := h y
    obtain ⟨i, rfl, hat⟩ := hinscribed.exists_index hcell (by omega)
    obtain ⟨next, hnext, hempty, -⟩ :=
      hinscribed.exists_cell hbounds.2.2 (htiled.covered hat hwide)
    rw [symbol?, show left + i + 1 = left + (i + 1 : Nat) by omega, hnext, Option.map_some, hempty]
  lead x y hsymbol := by
    have hbounds := symbol?_bounds hsymbol
    obtain ⟨cell, hcell, hempty⟩ := Option.map_eq_some_iff.mp hsymbol
    obtain ⟨left, symbols, ink, htiled, hinscribed⟩ := h y
    obtain ⟨i, rfl, hat⟩ := hinscribed.exists_index hcell (by rw [hempty, symbolWidth_empty]; omega)
    rw [hempty] at hat
    obtain ⟨j, symbol, rfl, hlead, hwide⟩ := htiled.lead hat
    obtain ⟨before, hbefore, hheld, -⟩ := hinscribed.exists_cell hbounds.2.2 hlead
    refine ⟨symbol, ?_, hwide⟩
    rw [symbol?, show left + (j + 1 : Nat) - 1 = left + j by omega, hbefore, Option.map_some, hheld]

end Canvas

theorem Document.Forest.lined {doc : Document} (h : doc.Forest) (look : Look) {root : NodeId}
    (hroot : doc.isElement root = true) (width height : Nat) (ground : Option Terminal.Color)
    (ink : Terminal.Color) :
    ((Canvas.blank width height).drawAll
      ((doc.subtree root).strokes look 0 0 width ground ink)).Lined look.marksPadding := by
  intro row
  by_cases hsome : ∃ owner id words,
      doc.Prints look.spacing (root, ⟨0, 0, width⟩) owner id words row
  · obtain ⟨owner, id, words, hprints⟩ := hsome
    refine ⟨_, _, _, ?_, h.inscribed_of_prints look hroot width height ground ink hprints⟩
    refine tiled_flatMap_cellSymbols fun glyph hmem => ?_
    exact ne_nil_of_mem_glyphs ((fitting_initial _ _).subset hmem)
  · refine ⟨_, _, _, .nil, h.inscribed_of_not_prints look hroot width height ground ink ?_⟩
    exact fun owner id words hprints => hsome ⟨owner, id, words, hprints⟩

namespace Renderer

end Renderer

end StyledTree
