import StyledTree.Canvas.Flush
import StyledTree.Proofs.Canvas.Edits
import StyledTree.Proofs.Rendering.Outcome
import StyledTree.Terminal.Sequence

/-!
# Text cannot command a terminal

Whatever is written on a canvas, its cells hold no control character: a glyph with
one is written as a space. So the only control characters that a canvas sends are
those with which its own commands begin, and a terminal shows the symbols of the
cells and nothing else. Painting is a sequence of edits, so all this holds of
rendered canvases too.
-/

namespace StyledTree

open Terminal

theorem hasControl_of_mem_glyphs {text : String} {glyph : List Char} (h : glyph ∈ glyphs text) :
    Text.hasControl glyph = false := by
  obtain ⟨cluster, -, rfl⟩ := List.mem_map.mp h
  by_cases hcontrol : Text.hasControl cluster = true
  · rw [if_pos hcontrol]
    decide
  · simp [hcontrol]

theorem hasControl_of_mem_cellSymbols {glyph : List Char} (hglyph : Text.hasControl glyph = false)
    {symbol : String} (h : symbol ∈ cellSymbols glyph) :
    Text.hasControl symbol.toList = false := by
  obtain ⟨offset, -, rfl⟩ := List.mem_map.mp h
  split
  · simpa using hglyph
  · rfl

namespace Sender

def printed (sender : Sender) : String := Command.printedAll sender.sent.toList

theorem printed_send (sender : Sender) (command : Command) :
    (sender.send command).printed = sender.printed ++ command.printed := by
  simp [printed, send, Command.printedAll]

@[simp] theorem printed_useForeground (sender : Sender) (fg : Option Terminal.Color) :
    (sender.useForeground fg).printed = sender.printed := by
  unfold useForeground
  split
  · rfl
  · exact (printed_send sender _).trans (by simp [Command.printed])

@[simp] theorem printed_useBackground (sender : Sender) (bg : Option Terminal.Color) :
    (sender.useBackground bg).printed = sender.printed := by
  unfold useBackground
  split
  · rfl
  · exact (printed_send sender _).trans (by simp [Command.printed])

theorem printed_sendCell (sender : Sender) (cell : Cell) :
    (sender.sendCell cell).printed = sender.printed ++ cell.symbol := by
  unfold sendCell
  split
  case isTrue hempty => rw [String.isEmpty_iff.mp hempty, String.append_empty]
  case isFalse => simp [printed_send, Command.printed]

theorem printed_sendCells (sender : Sender) (cells : List Cell) :
    (cells.foldl sendCell sender).printed = sender.printed ++ Canvas.symbolsOf cells := by
  induction cells generalizing sender with
  | nil => simp [Canvas.symbolsOf]
  | cons cell later ih =>
      rw [List.foldl_cons, ih, printed_sendCell]
      simp [Canvas.symbolsOf, String.append_assoc]

theorem printed_sendRow (sender : Sender) (row : List Cell × Nat) :
    (sender.sendRow row).printed = sender.printed ++ Canvas.symbolsOf row.1 := by
  rw [sendRow, printed_sendCells, printed_send]
  simp [Command.printed]

theorem printed_sendRows (sender : Sender) (rows : List (List Cell × Nat)) :
    (rows.foldl sendRow sender).printed =
      sender.printed ++ String.join (rows.map fun row => Canvas.symbolsOf row.1) := by
  induction rows generalizing sender with
  | nil => simp
  | cons row later ih =>
      rw [List.foldl_cons, ih, printed_sendRow]
      simp [String.append_assoc]

end Sender

namespace Canvas

/-! ## What is sent -/

def rowTexts (canvas : Canvas) : String :=
  String.join ((List.range canvas.height).map fun (y : Nat) => canvas.rowText y)

theorem rowText_eq {canvas : Canvas} {y : Nat} (hy : y < canvas.height) :
    canvas.rowText y = symbolsOf (canvas.row y) := by
  simp [rowText, hy]

theorem rowTexts_eq (canvas : Canvas) :
    canvas.rowTexts = String.join (canvas.rows.map symbolsOf) := by
  rw [rowTexts, rows, List.map_map]
  congr 1
  exact List.map_congr_left fun y hy => rowText_eq (List.mem_range.mp hy)

theorem rowTexts_of_width_eq_zero {canvas : Canvas} (h : canvas.width = 0) :
    canvas.rowTexts = "" := by
  have hrow (y : Nat) : symbolsOf (canvas.row y) = "" := by
    have hempty : canvas.row y = [] := by
      simp [row, h]
    rw [hempty]
    rfl
  rw [rowTexts_eq, rows, List.map_map]
  induction List.range canvas.height with
  | nil => rfl
  | cons y later ih => simp [hrow, ih]

/-- The symbols are printed row by row, and nothing else is. -/
theorem printedAll_commands (canvas : Canvas) :
    Command.printedAll canvas.commands = canvas.rowTexts := by
  have hsent (rows : List (List Cell)) :
      (rows.zipIdx.foldl Sender.sendRow { sent := #[.moveTo 0 0, .resetColors] }).printed =
        String.join (rows.map symbolsOf) := by
    rw [Sender.printed_sendRows]
    have hrows : rows.zipIdx.map (fun row => symbolsOf row.1) = rows.map symbolsOf := by
      rw [show (fun row : List Cell × Nat => symbolsOf row.1) = symbolsOf ∘ Prod.fst from rfl,
        ← List.map_map, List.zipIdx_map_fst]
    simp [hrows, Sender.printed, Command.printedAll, Command.printed]
  refine (Sender.printed_send _ .resetColors).trans ?_
  rw [hsent, show Command.printed .resetColors = "" from rfl, String.append_empty]
  split
  case isTrue hnarrow => exact (rowTexts_of_width_eq_zero hnarrow).symm
  case isFalse => exact canvas.rowTexts_eq.symm

theorem hasControl_of_mem_textSymbols {canvas : Canvas} {x y maxWidth : Int} {text symbol : String}
    (h : symbol ∈ canvas.textSymbols x y maxWidth text) :
    Text.hasControl symbol.toList = false := by
  unfold textSymbols at h
  split at h
  · cases h
  · obtain ⟨glyph, hglyph, hsymbol⟩ := List.mem_flatMap.mp h
    have hshown := (fitting_initial _ _).subset hglyph
    exact hasControl_of_mem_cellSymbols (hasControl_of_mem_glyphs hshown) hsymbol

/-! ## Canvases that cannot command a terminal -/

def Printable (canvas : Canvas) : Prop :=
  ∀ x y symbol, canvas.symbol? x y = some symbol → Text.hasControl symbol.toList = false

/-- A terminal takes nothing that is on a canvas for an instruction. -/
structure Harmless (canvas : Canvas) : Prop where
  symbols : ∀ x y cell, canvas.cell? x y = some cell → Text.hasControl cell.symbol.toList = false
  /-- Every control character that is sent begins one of the commands that print nothing. -/
  controls : ∀ before c after, canvas.flush.toList = before ++ c :: after →
    Text.isControl c = true → c = escape ∧ ∃ earlier command later,
      canvas.commands = earlier ++ command :: later ∧ ¬command.IsPrint ∧
        IsSequence command.encode.toList ∧ before = (Command.encodeAll earlier).toList
  /-- The rows are what the commands have a terminal print. -/
  printed : Command.printedAll canvas.commands = canvas.rowTexts
  /-- They are also what a reader finds who knows only how sequences begin and end. -/
  shown : shownOf canvas.flush.toList = canvas.rowTexts.toList
  lines : 0 < canvas.height → canvas.text.toList.count '\n' = canvas.height - 1

theorem count_intercalate_singleton {separator : Char} {pieces : List (List Char)}
    (hpieces : ∀ piece ∈ pieces, separator ∉ piece) :
    ([separator].intercalate pieces).count separator = pieces.length - 1 := by
  induction pieces with
  | nil => rfl
  | cons piece later ih =>
      have hpiece := List.count_eq_zero.mpr (hpieces piece List.mem_cons_self)
      cases later with
      | nil => rwa [List.intercalate_singleton]
      | cons next later =>
          rw [List.intercalate_cons_cons, List.count_append, List.count_append, hpiece,
            ih fun other hmem => hpieces other (List.mem_cons_of_mem _ hmem)]
          simp
          omega

namespace Printable

variable {canvas : Canvas}

theorem blank (width height : Nat) : (Canvas.blank width height).Printable := by
  intro x y symbol hsymbol
  rw [symbol?_blank hsymbol]
  decide

theorem hasControl_symbolsOf_row (h : canvas.Printable) (y : Nat) :
    Text.hasControl (symbolsOf (canvas.row y)).toList = false := by
  rw [Text.hasControl_eq_false_iff]
  intro c hc
  obtain ⟨symbol, hsymbol, hmem⟩ := List.mem_flatMap.mp (String.toList_join ▸ hc)
  obtain ⟨x, hx⟩ := List.mem_iff_getElem?.mp hsymbol
  rw [getElem?_symbols_row] at hx
  exact Text.hasControl_eq_false_iff.mp (h x y symbol hx) c hmem

theorem hasControl_rowTexts (h : canvas.Printable) :
    Text.hasControl canvas.rowTexts.toList = false := by
  rw [rowTexts_eq, rows, Text.hasControl_eq_false_iff]
  intro c hc
  rw [String.toList_join] at hc
  obtain ⟨text, htext, hmem⟩ := List.mem_flatMap.mp hc
  simp only [List.map_map, List.mem_map] at htext
  obtain ⟨y, -, rfl⟩ := htext
  exact Text.hasControl_eq_false_iff.mp (h.hasControl_symbolsOf_row y) c hmem

theorem harmless (h : canvas.Printable) : canvas.Harmless where
  symbols x y cell hcell := h x y cell.symbol (by rw [symbol?, hcell]; rfl)
  controls before c after hsplit hc := by
    have hprinted := h.hasControl_rowTexts
    rw [← printedAll_commands] at hprinted
    obtain ⟨hescape, earlier, command, later, hcommands, hnot, hbefore⟩ :=
      Command.isControl_encodeAll hprinted hsplit hc
    exact ⟨hescape, earlier, command, later, hcommands, hnot, Command.isSequence_encode hnot,
      hbefore⟩
  printed := canvas.printedAll_commands
  shown := by
    have hprinted := h.hasControl_rowTexts
    rw [← printedAll_commands] at hprinted ⊢
    exact Command.shownOf_encodeAll hprinted
  lines _ := by
    have hrows : ∀ piece ∈ (canvas.rows.map symbolsOf).map String.toList, '\n' ∉ piece := by
      intro piece hpiece hmem
      simp only [rows, List.map_map, List.mem_map] at hpiece
      obtain ⟨y, -, rfl⟩ := hpiece
      have := Text.hasControl_eq_false_iff.mp (h.hasControl_symbolsOf_row y) '\n' hmem
      exact absurd this (by decide)
    rw [text, String.toList_intercalate]
    refine (count_intercalate_singleton hrows).trans ?_
    simp [rows]

/-! ## Edits -/

theorem edit (h : canvas.Printable) {edit : Edit}
    (hplaced : ∀ x y symbol, edit = .place x y symbol → Text.isControl symbol = false) :
    (canvas.edit edit).Printable := by
  intro x y symbol hsymbol
  cases edit with
  | fill region color =>
      rw [Canvas.edit, symbol?_fillGround] at hsymbol
      exact h x y symbol hsymbol
  | write left row maxWidth text fg bg =>
      rw [Canvas.edit, symbol?_putText] at hsymbol
      split at hsymbol
      case isFalse => exact h x y symbol hsymbol
      case isTrue hin =>
        obtain ⟨old, -, rfl⟩ := Option.map_eq_some_iff.mp hsymbol
        have hlt : (x - left).toNat < (canvas.textSymbols left row maxWidth text).length := by
          omega
        rw [List.getD_eq_getElem?_getD, List.getElem?_eq_getElem hlt, Option.getD_some]
        exact hasControl_of_mem_textSymbols (List.getElem_mem hlt)
  | place left row c =>
      rw [Canvas.edit, symbol?_putSymbol] at hsymbol
      split at hsymbol
      case isFalse => exact h x y symbol hsymbol
      case isTrue =>
        obtain ⟨old, -, rfl⟩ := Option.map_eq_some_iff.mp hsymbol
        simp [Text.hasControl, hplaced left row c rfl]

theorem editAll (h : canvas.Printable) {edits : List Edit}
    (hplaced : ∀ x y symbol, .place x y symbol ∈ edits → Text.isControl symbol = false) :
    (canvas.editAll edits).Printable := by
  refine List.foldlRecOn (motive := Printable) edits Canvas.edit h ?_
  intro canvas hcanvas edit hmem
  exact hcanvas.edit fun x y symbol heq => hplaced x y symbol (heq ▸ hmem)

end Printable

end Canvas

/-! ## Painting as a sequence of edits -/

def Region.cells (region : Region) : List (Int × Int) :=
  (List.range region.height).flatMap fun (row : Nat) =>
    (List.range region.width).map fun (column : Nat) => (region.x + column, region.y + row)

theorem Region.fold_eq_foldl_cells {α : Type} (region : Region) (f : α → Int → Int → α)
    (init : α) :
    region.fold f init = region.cells.foldl (fun acc cell => f acc cell.1 cell.2) init := by
  simp only [fold, foldRow, cells, List.foldl_flatMap, List.foldl_map]

/-- The edits that make a stroke. Padding is marked cell by cell. -/
def Stroke.edits : Stroke → List Canvas.Edit
  | fill region color => [.fill region color]
  | mark block content =>
      (block.cells.filter fun cell => !content.contains cell.1 cell.2).map fun cell =>
        .place cell.1 cell.2 paddingMark
  | write x y width text color => [.write x y width text (some color) none]

theorem Stroke.isControl_of_place_mem_edits {stroke : Stroke} {x y : Int} {symbol : Char}
    (h : .place x y symbol ∈ stroke.edits) : Text.isControl symbol = false := by
  cases stroke with
  | fill region color => simp [edits] at h
  | mark block content =>
      obtain ⟨cell, -, heq⟩ := List.mem_map.mp h
      obtain rfl : paddingMark = symbol := by
        injection heq
      decide
  | write x y width text color => simp [edits] at h

namespace Canvas

theorem draw_eq_editAll (canvas : Canvas) (stroke : Stroke) :
    canvas.draw stroke = canvas.editAll stroke.edits := by
  cases stroke with
  | fill region color => rfl
  | mark block content =>
      rw [draw, markPadding, Region.fold_eq_foldl_cells, editAll, Stroke.edits, List.foldl_map,
        List.foldl_filter]
      congr 1
      funext canvas cell
      by_cases hin : content.contains cell.1 cell.2 = true <;> simp [hin, edit]
  | write x y width text color => rfl

theorem drawAll_eq_editAll (canvas : Canvas) (strokes : List Stroke) :
    canvas.drawAll strokes = canvas.editAll (strokes.flatMap Stroke.edits) := by
  rw [drawAll, editAll, List.foldl_flatMap]
  congr 1
  funext canvas stroke
  exact draw_eq_editAll canvas stroke

theorem printable_drawAll (width height : Nat) (strokes : List Stroke) :
    ((blank width height).drawAll strokes).Printable := by
  rw [drawAll_eq_editAll]
  refine (Printable.blank width height).editAll fun x y symbol hmem => ?_
  obtain ⟨stroke, -, hplace⟩ := List.mem_flatMap.mp hmem
  exact Stroke.isControl_of_place_mem_edits hplace

/-- Canvases edited from blank on without placing control characters, and all that
rendering returns, cannot command a terminal. The latter is so whatever becomes of a sum
that does not fit. -/
theorem harmless_editAll_and_render :
    (∀ (width height : Nat) (edits : List Edit),
      (∀ x y symbol, .place x y symbol ∈ edits → Text.isControl symbol = false) →
        ((blank width height).editAll edits).Harmless) ∧
    ∀ (renderer : Renderer) (doc : Document) (root : NodeId) (styles : ComputedStyles)
      (width : Nat) (output : Log.Logged Canvas),
      ((∃ hold, renderer.renderWith hold doc root styles width = .ok output) ∨
        renderer.renderChecked doc root styles width = some (.ok output)) →
          output.value.Harmless := by
  constructor
  · intro width height edits hplaced
    exact ((Printable.blank width height).editAll hplaced).harmless
  · intro renderer doc root styles width output hrender
    obtain ⟨hold, hrender⟩ :
        ∃ hold, renderer.renderWith hold doc root styles width = .ok output :=
      hrender.elim id fun hchecked => ⟨id, Renderer.renderWith_id_of_renderChecked hchecked⟩
    obtain ⟨rows, strokes, -, hdrawn⟩ := Renderer.exists_drawAll hrender
    rw [hdrawn]
    exact (printable_drawAll width rows strokes).harmless

/-- A text and a button that try to clear the screen. -/
theorem harmless_editAll_and_render_clear :
    ((blank 6 1).editAll
      [.write 0 0 6 "\u001b[2J" none none, .place 5 0 paddingMark]).Harmless ∧
    let doc := (Document.empty 0).run [.createButton "\u001b[2J" none none]
    ∃ output, (Renderer.mk .plain .palette false false).render doc ⟨0, 0⟩ .empty 6 = .ok output ∧
      output.value.Harmless := by
  refine ⟨harmless_editAll_and_render.1 6 1 _ ?_, ?_⟩
  · intro x y symbol hmem
    obtain ⟨-, -, rfl⟩ : x = 5 ∧ y = 0 ∧ symbol = paddingMark := by simpa using hmem
    decide
  · intro doc
    have hroot : doc.isElement ⟨0, 0⟩ = true := by decide
    obtain ⟨records, hrender⟩ := Renderer.exists_renderWith Coordinate.wrap hroot
      (Renderer.mk .plain .palette false false) .empty 6
    exact ⟨_, hrender, harmless_editAll_and_render.2 _ _ _ _ _ _ (.inl ⟨_, hrender⟩)⟩

end Canvas

end StyledTree
