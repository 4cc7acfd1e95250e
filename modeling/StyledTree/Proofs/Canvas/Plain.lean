import StyledTree.Proofs.Canvas.Replay
import StyledTree.Terminal.Transcript

/-!
# Sending no color twice

A color is not sent if it is the one sent last. This makes no difference: the commands for
a canvas print what they would print if both colors were sent before every symbol, and each
symbol comes out in the colors of its cell.
-/

namespace StyledTree

open Terminal

namespace Cell

/-- The commands that print a cell, whatever was printed before. -/
def plainCommands (cell : Cell) : List Command :=
  if cell.symbol = "" then []
  else [.setForeground (cell.fg.getD .reset), .setBackground (cell.bg.getD .reset),
    .print cell.symbol]

/-- The cell in print; nothing if its symbol is empty. -/
def imprint? (cell : Cell) : Option Imprint :=
  if cell.symbol = "" then none
  else some ⟨cell.symbol, cell.fg.getD .reset, cell.bg.getD .reset⟩

end Cell

namespace Canvas

def plainRow (row : List Cell × Nat) : List Command :=
  .moveTo 0 row.2 :: row.1.flatMap Cell.plainCommands

/-- The commands that show a canvas, if both colors are sent before every symbol. -/
def plainCommands (canvas : Canvas) : List Command :=
  [.moveTo 0 0, .resetColors] ++ canvas.sentRows.zipIdx.flatMap plainRow ++ [.resetColors]

/-- A row in print, after a move to its beginning. -/
def stretch (row : List Cell × Nat) : Stretch := ⟨0, row.2, row.1.filterMap Cell.imprint?⟩

end Canvas

/-! ## The same in print -/

namespace Sender

/-- What was sent prints the same as the plain commands so far, and the colors that the
sender remembers are those in use. -/
structure Mirrors (sender : Sender) (start : Transcript) (plain : List Command) : Prop where
  same : start.noteAll sender.sent.toList = start.noteAll plain
  fg : (start.noteAll plain).fg = sender.fg.getD .reset
  bg : (start.noteAll plain).bg = sender.bg.getD .reset

namespace Mirrors

variable {sender : Sender} {start : Transcript} {plain : List Command}

theorem noteAll_send (h : sender.Mirrors start plain) (command : Command) :
    start.noteAll (sender.send command).sent.toList = (start.noteAll plain).note command := by
  rw [send, Array.toList_push, Transcript.noteAll_append, h.same]
  rfl

theorem send (h : sender.Mirrors start plain) (command : Command)
    (hfg : ∀ transcript : Transcript, (transcript.note command).fg = transcript.fg)
    (hbg : ∀ transcript : Transcript, (transcript.note command).bg = transcript.bg) :
    (sender.send command).Mirrors start (plain ++ [command]) := by
  refine ⟨?_, ?_, ?_⟩ <;> rw [Transcript.noteAll_append]
  · exact h.noteAll_send command
  · exact (hfg _).trans h.fg
  · exact (hbg _).trans h.bg

theorem skip (h : sender.Mirrors start plain) {command : Command}
    (hidle : (start.noteAll plain).note command = start.noteAll plain) :
    sender.Mirrors start (plain ++ [command]) := by
  have hkept : start.noteAll (plain ++ [command]) = start.noteAll plain := by
    rw [Transcript.noteAll_append]
    exact hidle
  exact ⟨by rw [hkept, h.same], by rw [hkept, h.fg], by rw [hkept, h.bg]⟩

theorem useForeground (h : sender.Mirrors start plain) (fg : Option Terminal.Color) :
    (sender.useForeground fg).Mirrors start (plain ++ [.setForeground (fg.getD .reset)]) := by
  unfold Sender.useForeground
  by_cases hsame : fg = sender.fg
  · rw [if_pos hsame]
    refine h.skip ?_
    rw [hsame, ← h.fg]
    rfl
  · rw [if_neg hsame]
    refine ⟨?_, ?_, ?_⟩ <;> rw [Transcript.noteAll_append]
    · exact h.noteAll_send _
    · rfl
    · exact h.bg

theorem useBackground (h : sender.Mirrors start plain) (bg : Option Terminal.Color) :
    (sender.useBackground bg).Mirrors start (plain ++ [.setBackground (bg.getD .reset)]) := by
  unfold Sender.useBackground
  by_cases hsame : bg = sender.bg
  · rw [if_pos hsame]
    refine h.skip ?_
    rw [hsame, ← h.bg]
    rfl
  · rw [if_neg hsame]
    refine ⟨?_, ?_, ?_⟩ <;> rw [Transcript.noteAll_append]
    · exact h.noteAll_send _
    · exact h.fg
    · rfl

theorem sendCell (h : sender.Mirrors start plain) (cell : Cell) :
    (sender.sendCell cell).Mirrors start (plain ++ cell.plainCommands) := by
  unfold Sender.sendCell Cell.plainCommands
  by_cases hempty : cell.symbol = ""
  · rw [if_pos (String.isEmpty_iff.mpr hempty), if_pos hempty, List.append_nil]
    exact h
  · rw [if_neg (mt String.isEmpty_iff.mp hempty), if_neg hempty]
    have hcolors := (h.useForeground cell.fg).useBackground cell.bg
    have hprinted := hcolors.send (.print cell.symbol) (fun _ => rfl) (fun _ => rfl)
    rwa [List.append_assoc, List.append_assoc] at hprinted

theorem sendCells (h : sender.Mirrors start plain) (cells : List Cell) :
    (cells.foldl Sender.sendCell sender).Mirrors start
      (plain ++ cells.flatMap Cell.plainCommands) := by
  induction cells generalizing sender plain with
  | nil =>
      rw [List.flatMap_nil, List.append_nil]
      exact h
  | cons cell later ih =>
      have hlater := ih (h.sendCell cell)
      rwa [List.append_assoc] at hlater

theorem sendRow (h : sender.Mirrors start plain) (row : List Cell × Nat) :
    (sender.sendRow row).Mirrors start (plain ++ Canvas.plainRow row) := by
  have hmoved := h.send (.moveTo 0 row.2) (fun _ => rfl) (fun _ => rfl)
  have hrow := hmoved.sendCells row.1
  rwa [List.append_assoc] at hrow

theorem sendRows (h : sender.Mirrors start plain) (rows : List (List Cell × Nat)) :
    (rows.foldl Sender.sendRow sender).Mirrors start (plain ++ rows.flatMap Canvas.plainRow) := by
  induction rows generalizing sender plain with
  | nil =>
      rw [List.flatMap_nil, List.append_nil]
      exact h
  | cons row later ih =>
      have hlater := ih (h.sendRow row)
      rwa [List.append_assoc] at hlater

end Mirrors

end Sender

theorem Canvas.noteAll_plainCommands (canvas : Canvas) (start : Transcript) :
    start.noteAll canvas.plainCommands =
      ((start.noteAll [.moveTo 0 0, .resetColors]).noteAll
        (canvas.sentRows.zipIdx.flatMap plainRow)).note .resetColors := by
  rw [plainCommands, Transcript.noteAll_append, Transcript.noteAll_append]
  rfl

theorem Canvas.noteAll_commands_eq (canvas : Canvas) (start : Transcript) :
    start.noteAll canvas.commands = start.noteAll canvas.plainCommands := by
  have hstart : Sender.Mirrors { sent := #[.moveTo 0 0, .resetColors] } start
      [.moveTo 0 0, .resetColors] := ⟨rfl, rfl, rfl⟩
  have hrows := (hstart.sendRows canvas.sentRows.zipIdx).noteAll_send .resetColors
  rw [Transcript.noteAll_append] at hrows
  exact hrows.trans (canvas.noteAll_plainCommands start).symm

/-! ## What is printed -/

namespace Terminal.Transcript

theorem noteAll_cells (transcript : Transcript) (cells : List Cell) :
    (transcript.noteAll (cells.flatMap Cell.plainCommands)).earlier = transcript.earlier ∧
      (transcript.noteAll (cells.flatMap Cell.plainCommands)).current =
        { transcript.current with
          imprints := transcript.current.imprints ++ cells.filterMap Cell.imprint? } := by
  induction cells generalizing transcript with
  | nil => simp
  | cons cell later ih =>
      obtain ⟨hearlier, hcurrent⟩ := ih (transcript.noteAll cell.plainCommands)
      rw [List.flatMap_cons, noteAll_append, hearlier, hcurrent]
      by_cases hempty : cell.symbol = ""
      · simp [Cell.plainCommands, Cell.imprint?, hempty]
      · simp [Cell.plainCommands, Cell.imprint?, hempty, note, print]

theorem stretches_noteAll_plainRow (transcript : Transcript) (row : List Cell × Nat) :
    (transcript.noteAll (Canvas.plainRow row)).stretches =
      transcript.stretches ++ [Canvas.stretch row] := by
  obtain ⟨hearlier, hcurrent⟩ := (transcript.note (.moveTo 0 row.2)).noteAll_cells row.1
  rw [Canvas.plainRow, noteAll_cons, stretches, hearlier, hcurrent]
  rfl

theorem stretches_noteAll_plainRows (transcript : Transcript) (rows : List (List Cell × Nat)) :
    (transcript.noteAll (rows.flatMap Canvas.plainRow)).stretches =
      transcript.stretches ++ rows.map Canvas.stretch := by
  induction rows generalizing transcript with
  | nil => simp
  | cons row later ih =>
      rw [List.flatMap_cons, noteAll_append, ih, stretches_noteAll_plainRow, List.append_assoc]
      rfl

end Terminal.Transcript

/-- Whatever a terminal printed before, the commands for a canvas have it print the symbols
of the cells, row by row, each row after a move to its beginning and each symbol in the
colors of its cell. The plain commands print the same. After the last command both colors
are reset. -/
theorem Canvas.noteAll_commands (canvas : Canvas) (start : Transcript) :
    let printed := start.noteAll canvas.commands
    printed.stretches =
        start.stretches ++ ⟨0, 0, []⟩ :: canvas.sentRows.zipIdx.map stretch ∧
      printed.fg = .reset ∧ printed.bg = .reset ∧
      printed = start.noteAll canvas.plainCommands := by
  intro printed
  have hsame : printed = start.noteAll canvas.plainCommands := canvas.noteAll_commands_eq start
  rw [canvas.noteAll_plainCommands start] at hsame
  refine ⟨?_, by rw [hsame]; rfl, by rw [hsame]; rfl, canvas.noteAll_commands_eq start⟩
  rw [hsame]
  refine (Transcript.stretches_noteAll_plainRows _ canvas.sentRows.zipIdx).trans ?_
  rw [List.append_cons]
  rfl

end StyledTree
