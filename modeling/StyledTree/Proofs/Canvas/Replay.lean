import StyledTree.Canvas.Flush
import StyledTree.Proofs.Canvas.Edits
import StyledTree.Terminal.Screen

/-!
# A canvas on a screen

Carried out by a screen, the commands for a canvas print its symbols row by row, each
over as many columns as it is wide. Where no symbol is torn, every symbol comes out
in the column of its cell; the colors that the sender remembers are those in use, so
each symbol comes out in the colors of its cell as well.
-/

namespace StyledTree

open Terminal

/-- What a screen shows of a cell that is printed: a patch for each column. -/
def Cell.patches (cell : Cell) : List Patch :=
  (List.range (symbolWidth cell.symbol)).map fun part =>
    ⟨cell.symbol, part, cell.fg.getD .reset, cell.bg.getD .reset⟩

theorem Cell.length_patches (cell : Cell) : cell.patches.length = symbolWidth cell.symbol := by
  rw [patches, List.length_map, List.length_range]

namespace Terminal.Screen

/-- From its cursor on, a screen has come to show patches in a row; the cursor is
behind them. -/
structure Gains (before after : Screen) (patches : List Patch) : Prop where
  columns : after.columns = before.columns
  rows : after.rows = before.rows
  row : after.row = before.row
  column : after.column = before.column + patches.length
  gained : ∀ i patch, patches[i]? = some patch →
    after.shown (before.column + i) before.row = patch
  kept : ∀ x y, ¬(y = before.row ∧ before.column ≤ x ∧ x < before.column + patches.length) →
    after.shown x y = before.shown x y

namespace Gains

theorem refl (screen : Screen) : screen.Gains screen [] :=
  ⟨rfl, rfl, rfl, rfl, fun _ _ hpatch => (by cases hpatch), fun _ _ _ => rfl⟩

theorem trans {a b c : Screen} {first second : List Patch} (hab : a.Gains b first)
    (hbc : b.Gains c second) : a.Gains c (first ++ second) where
  columns := hbc.columns.trans hab.columns
  rows := hbc.rows.trans hab.rows
  row := hbc.row.trans hab.row
  column := by rw [hbc.column, hab.column, List.length_append, Nat.add_assoc]
  gained i patch hpatch := by
    by_cases hfirst : i < first.length
    · rw [List.getElem?_append_left hfirst] at hpatch
      rw [hbc.kept _ _ (by rw [hab.column]; omega)]
      exact hab.gained i patch hpatch
    · rw [List.getElem?_append_right (Nat.le_of_not_lt hfirst)] at hpatch
      rw [← hbc.gained _ patch hpatch, hab.column, hab.row]
      congr 1
      omega
  kept x y hout := by
    rw [List.length_append] at hout
    rw [hbc.kept x y (by rw [hab.column, hab.row]; omega), hab.kept x y (by omega)]

end Gains

end Terminal.Screen

namespace Sender

/-- Carried out from one screen on, what has been sent leads to another one. It uses
the colors that the sender remembers. -/
structure Leads (sender : Sender) (start screen : Screen) : Prop where
  run : start.run sender.sent.toList = some screen
  fg : screen.fg = sender.fg.getD .reset
  bg : screen.bg = sender.bg.getD .reset

namespace Leads

variable {sender : Sender} {start screen : Screen}

theorem run_send (h : sender.Leads start screen) (command : Command) :
    start.run (sender.send command).sent.toList = screen.execute command := by
  rw [send, Array.toList_push, Screen.run_append, h.run, Option.bind_some]
  exact List.foldlM_cons .. |>.trans (bind_pure _)

theorem moveTo (h : sender.Leads start screen) (column row : Nat) :
    (sender.send (.moveTo column row)).Leads start { screen with column, row } :=
  ⟨h.run_send _, h.fg, h.bg⟩

theorem useForeground (h : sender.Leads start screen) (fg : Option Terminal.Color) :
    (sender.useForeground fg).Leads start { screen with fg := fg.getD .reset } := by
  unfold Sender.useForeground
  by_cases hsame : fg = sender.fg
  · rw [if_pos hsame, hsame, ← h.fg]
    exact h
  · rw [if_neg hsame]
    exact ⟨h.run_send _, rfl, h.bg⟩

theorem useBackground (h : sender.Leads start screen) (bg : Option Terminal.Color) :
    (sender.useBackground bg).Leads start { screen with bg := bg.getD .reset } := by
  unfold Sender.useBackground
  by_cases hsame : bg = sender.bg
  · rw [if_pos hsame, hsame, ← h.bg]
    exact h
  · rw [if_neg hsame]
    exact ⟨h.run_send _, h.fg, rfl⟩

theorem sendCell (h : sender.Leads start screen) (cell : Cell)
    (hroom : screen.column + symbolWidth cell.symbol ≤ screen.columns)
    (hrow : screen.row < screen.rows) :
    ∃ after, (sender.sendCell cell).Leads start after ∧ screen.Gains after cell.patches := by
  unfold Sender.sendCell
  by_cases hempty : cell.symbol = ""
  · have hnone : cell.patches = [] := by
      rw [Cell.patches, hempty, symbolWidth_empty]
      rfl
    rw [if_pos (String.isEmpty_iff.mpr hempty), hnone]
    exact ⟨screen, h, .refl screen⟩
  · rw [if_neg (mt String.isEmpty_iff.mp hempty)]
    have hwidth : symbolWidth cell.symbol = Text.displayWidth cell.symbol.toList := if_neg hempty
    have hcolors := (h.useForeground cell.fg).useBackground cell.bg
    have hprint := hcolors.run_send (.print cell.symbol)
    rw [Screen.execute, Screen.print, ← hwidth, if_pos ⟨hroom, hrow⟩] at hprint
    refine ⟨_, ⟨hprint, hcolors.fg, hcolors.bg⟩, ?_⟩
    have hlength := cell.length_patches
    constructor
    case gained =>
      intro i patch hpatch
      obtain ⟨hi, rfl⟩ := List.getElem?_eq_some_iff.mp hpatch
      rw [hlength] at hi
      have hin : screen.column + i < screen.column + symbolWidth cell.symbol :=
        Nat.add_lt_add_left hi _
      simp only [Cell.patches, List.getElem_map, List.getElem_range]
      rw [if_pos ⟨trivial, Nat.le_add_right _ i, hin⟩, Nat.add_sub_cancel_left]
    case kept =>
      intro x y hout
      rw [hlength] at hout
      exact if_neg hout
    case column => rw [hlength]
    all_goals rfl

theorem sendCells (h : sender.Leads start screen) (cells : List Cell)
    (hroom : screen.column + (cells.flatMap Cell.patches).length ≤ screen.columns)
    (hrow : screen.row < screen.rows) :
    ∃ after, (cells.foldl Sender.sendCell sender).Leads start after ∧
      screen.Gains after (cells.flatMap Cell.patches) := by
  induction cells generalizing sender screen with
  | nil => exact ⟨screen, h, .refl screen⟩
  | cons cell later ih =>
      rw [List.flatMap_cons, List.length_append, cell.length_patches] at hroom
      obtain ⟨middle, hleads, hgains⟩ := h.sendCell cell (by omega) hrow
      have hcolumn := hgains.column
      rw [cell.length_patches] at hcolumn
      obtain ⟨after, hafter, hgains'⟩ :=
        ih hleads (by rw [hcolumn, hgains.columns]; omega)
          (by rw [hgains.row, hgains.rows]; exact hrow)
      exact ⟨after, hafter, hgains.trans hgains'⟩

theorem sendRow (h : sender.Leads start screen) (cells : List Cell) {y : Nat}
    (hroom : (cells.flatMap Cell.patches).length ≤ screen.columns) (hy : y < screen.rows) :
    ∃ after, (sender.sendRow (cells, y)).Leads start after ∧ after.columns = screen.columns ∧
      after.rows = screen.rows ∧
        (∀ x patch, (cells.flatMap Cell.patches)[x]? = some patch → after.shown x y = patch) ∧
          ∀ x other, other ≠ y → after.shown x other = screen.shown x other := by
  obtain ⟨after, hleads, hgains⟩ := (h.moveTo 0 y).sendCells cells (by simpa using hroom) hy
  refine ⟨after, hleads, hgains.columns, hgains.rows, ?_, ?_⟩
  · intro x patch hpatch
    have hgained := hgains.gained x patch hpatch
    rwa [Nat.zero_add] at hgained
  · intro x other hother
    exact hgains.kept x other fun hin => hother hin.1

theorem sendRows (h : sender.Leads start screen) (rows : List (List Cell)) (first : Nat)
    (hroom : ∀ cells ∈ rows, (cells.flatMap Cell.patches).length ≤ screen.columns)
    (hrows : first + rows.length ≤ screen.rows) :
    ∃ after, ((rows.zipIdx first).foldl Sender.sendRow sender).Leads start after ∧
      (∀ y cells, rows[y]? = some cells → ∀ x patch,
        (cells.flatMap Cell.patches)[x]? = some patch → after.shown x (first + y) = patch) ∧
      ∀ x other, other < first → after.shown x other = screen.shown x other := by
  induction rows generalizing sender screen first with
  | nil => exact ⟨screen, h, fun _ _ hcells => (by cases hcells), fun _ _ _ => rfl⟩
  | cons cells later ih =>
      rw [List.length_cons] at hrows
      obtain ⟨middle, hleads, hcolumns, hheight, hshown, hkept⟩ :=
        h.sendRow cells (hroom cells List.mem_cons_self) (y := first) (by omega)
      obtain ⟨after, hafter, hshown', hkept'⟩ := ih hleads (first + 1)
        (fun other hmem => hcolumns ▸ hroom other (List.mem_cons_of_mem _ hmem))
        (by rw [hheight]; omega)
      refine ⟨after, hafter, ?_, ?_⟩
      · intro y row hrow x patch hpatch
        cases y with
        | zero =>
            cases hrow
            rw [Nat.add_zero, hkept' x first (Nat.lt_succ_self first)]
            exact hshown x patch hpatch
        | succ y =>
            rw [← hshown' y row hrow x patch hpatch]
            congr 1
            omega
      · intro x other hother
        rw [hkept' x other (by omega)]
        exact hkept x other (by omega)

end Leads

end Sender

/-! ## Symbols in their columns -/

namespace Canvas

variable {canvas : Canvas}

/-- The rows of which the cells are sent: none of a canvas without columns. -/
def sentRows (canvas : Canvas) : List (List Cell) := if canvas.width = 0 then [] else canvas.rows

theorem eq_row_of_getElem?_sentRows {y : Nat} {cells : List Cell}
    (h : canvas.sentRows[y]? = some cells) : y < canvas.height ∧ cells = canvas.row y := by
  unfold sentRows at h
  split at h
  · cases h
  · rw [rows, List.getElem?_map] at h
    obtain ⟨row, hrow, rfl⟩ := Option.map_eq_some_iff.mp h
    obtain ⟨hy, rfl⟩ := List.getElem?_eq_some_iff.mp hrow
    rw [List.length_range] at hy
    rw [List.getElem_range]
    exact ⟨hy, rfl⟩

end Canvas

/-! ## What is sent -/

/-- Everything that the commands of a canvas can be. -/
inductive Canvas.Sends (canvas : Canvas) : Command → Prop where
  /-- To the beginning of a row, or to the top of a canvas without rows. -/
  | move {row : Nat} (hrow : row < max canvas.height 1) : canvas.Sends (.moveTo 0 row)
  | reset : canvas.Sends .resetColors
  | foreground {x y : Int} {cell : Cell} (hcell : canvas.cell? x y = some cell) :
      canvas.Sends (.setForeground (cell.fg.getD .reset))
  | background {x y : Int} {cell : Cell} (hcell : canvas.cell? x y = some cell) :
      canvas.Sends (.setBackground (cell.bg.getD .reset))
  | print {x y : Int} {cell : Cell} (hcell : canvas.cell? x y = some cell) :
      canvas.Sends (.print cell.symbol)

def Sender.SentOnly (sender : Sender) (allowed : Command → Prop) : Prop :=
  ∀ command ∈ sender.sent, allowed command

namespace Sender.SentOnly

variable {sender : Sender} {allowed : Command → Prop}

theorem send (h : sender.SentOnly allowed) {command : Command} (hcommand : allowed command) :
    (sender.send command).SentOnly allowed := by
  intro sent hmem
  rcases Array.mem_push.mp hmem with hmem | rfl
  · exact h sent hmem
  · exact hcommand

theorem useForeground (h : sender.SentOnly allowed) {fg : Option Terminal.Color}
    (hfg : allowed (.setForeground (fg.getD .reset))) :
    (sender.useForeground fg).SentOnly allowed := by
  unfold Sender.useForeground
  split
  · exact h
  · exact h.send hfg

theorem useBackground (h : sender.SentOnly allowed) {bg : Option Terminal.Color}
    (hbg : allowed (.setBackground (bg.getD .reset))) :
    (sender.useBackground bg).SentOnly allowed := by
  unfold Sender.useBackground
  split
  · exact h
  · exact h.send hbg

variable {canvas : Canvas}

theorem sendCell (h : sender.SentOnly canvas.Sends) {x y : Int} {cell : Cell}
    (hcell : canvas.cell? x y = some cell) : (sender.sendCell cell).SentOnly canvas.Sends := by
  unfold Sender.sendCell
  split
  · exact h
  · exact ((h.useForeground (.foreground hcell)).useBackground (.background hcell)).send
      (.print hcell)

theorem sendRow (h : sender.SentOnly canvas.Sends) {y : Nat} (hy : y < canvas.height) :
    (sender.sendRow (canvas.row y, y)).SentOnly canvas.Sends := by
  have hmoved := h.send (.move (Nat.lt_of_lt_of_le hy (Nat.le_max_left ..)))
  refine List.foldlRecOn (motive := (SentOnly · canvas.Sends)) (canvas.row y) _ hmoved
    fun sender hsender cell hmem => ?_
  obtain ⟨x, hx⟩ := List.mem_iff_getElem?.mp hmem
  exact hsender.sendCell ((canvas.getElem?_row x y).symm.trans hx)

end Sender.SentOnly

theorem Canvas.sends_of_mem_commands {canvas : Canvas} {command : Command}
    (hmem : command ∈ canvas.commands) : canvas.Sends command := by
  have hstart : Sender.SentOnly { sent := #[.moveTo 0 0, .resetColors] } canvas.Sends := by
    intro sent hmem
    rcases (by simpa using hmem : sent = .moveTo 0 0 ∨ sent = .resetColors) with rfl | rfl
    · exact .move (Nat.lt_of_lt_of_le Nat.one_pos (Nat.le_max_right ..))
    · exact .reset
  have hrows : (canvas.sentRows.zipIdx.foldl Sender.sendRow
      { sent := #[.moveTo 0 0, .resetColors] }).SentOnly canvas.Sends := by
    refine List.foldlRecOn (motive := (Sender.SentOnly · canvas.Sends)) _ _ hstart
      fun sender hsender row hrow => ?_
    obtain ⟨hy, hcells⟩ := eq_row_of_getElem?_sentRows (List.mem_zipIdx_iff_getElem?.mp hrow)
    have hsent := hsender.sendRow hy
    rwa [← hcells] at hsent
  exact (hrows.send .reset) command (Array.mem_toList_iff.mp hmem)

end StyledTree
