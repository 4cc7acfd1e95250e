import StyledTree.Proofs.Canvas.Harmless
import StyledTree.Proofs.Canvas.Replay

/-!
# Canvases without colors

Where the cells have no color of the palette, none is sent: the commands that set a color
set the default one. As every escape character begins a command, the text that is sent does
not contain the beginning of a sequence that sets a color of the palette either. The
sequences that move the cursor might look the same, but they all go to the first column.
-/

namespace StyledTree

open Terminal

structure Cell.Colorless (cell : Cell) : Prop where
  fg : cell.fg = none ∨ cell.fg = some .reset
  bg : cell.bg = none ∨ cell.bg = some .reset

theorem Terminal.Color.getD_reset {color : Option Color} (h : color = none ∨ color = some .reset) :
    color.getD .reset = .reset := by
  rcases h with rfl | rfl <;> rfl

namespace Terminal.Command

/-- What a sequence begins with that sets a color of the palette. The layer is `3` for the
color of text, and `4` for that of the ground. -/
def paletteStart (layer : Char) : List Char := [escape, '[', layer, '8', ';', '5']

example : paletteStart '4' <+: (setBackground (.solid .darkRed)).encode.toList := by decide

theorem not_prefix_position {digits : List Char} (hdigits : ';' ∉ digits) {layer : Char}
    (hlayer : layer ≠ ';') (later : List Char) :
    ¬[layer, '8', ';', '5'] <+: digits ++ ';' :: '1' :: later := by
  match digits with
  | [] => simp [hlayer]
  | [_] => simp
  | [_, _] => simp
  | _ :: _ :: last :: _ =>
      have hlast : ';' ≠ last := by
        rintro rfl
        exact hdigits (by simp)
      simp [hlast]

theorem not_mem_toString (n : Nat) : ';' ∉ (toString n).toList := by
  intro hmem
  rw [Nat.toString_eq_repr, Nat.toList_repr] at hmem
  have hdigit := Nat.isDigit_of_mem_toDigits (by decide) (by decide) hmem
  exact absurd hdigit (by decide)

theorem not_paletteStart_moveTo {layer : Char} (hlayer : layer ≠ ';') (row : Nat)
    (later : List Char) :
    ¬paletteStart layer <+: (moveTo 0 row).encode.toList ++ later := by
  have hencode : (moveTo 0 row).encode.toList ++ later =
      escape :: '[' :: ((toString (row + 1)).toList ++ ';' :: '1' :: 'H' :: later) := by
    have hfirst : (toString (0 + 1)).toList = ['1'] := by decide
    simp only [encode, introducer, String.toList_append, hfirst, List.append_assoc]
    rfl
  rw [hencode, paletteStart, List.cons_prefix_cons, List.cons_prefix_cons]
  exact fun h => not_prefix_position (not_mem_toString _) hlayer _ h.2.2

end Terminal.Command

namespace Canvas

variable {canvas : Canvas} {layer : Char}

theorem Sends.not_paletteStart {command : Command} (h : canvas.Sends command)
    (hcells : ∀ x y cell, canvas.cell? x y = some cell → cell.Colorless)
    (hprint : ¬command.IsPrint) (hlayer : layer = '3' ∨ layer = '4') (later : List Char) :
    ¬Command.paletteStart layer <+: command.encode.toList ++ later := by
  cases h with
  | move hrow =>
      have hother : layer ≠ ';' := by
        rcases hlayer with rfl | rfl <;> decide
      exact Command.not_paletteStart_moveTo hother _ later
  | reset =>
      rw [show Command.resetColors.encode.toList = [escape, '[', '0', 'm'] by decide]
      rcases hlayer with rfl | rfl <;> simp [Command.paletteStart]
  | foreground hcell =>
      rw [Color.getD_reset (hcells _ _ _ hcell).fg,
        show (Command.setForeground .reset).encode.toList = [escape, '[', '3', '9', 'm'] by decide]
      simp [Command.paletteStart]
  | background hcell =>
      rw [Color.getD_reset (hcells _ _ _ hcell).bg,
        show (Command.setBackground .reset).encode.toList = [escape, '[', '4', '9', 'm'] by decide]
      simp [Command.paletteStart]
  | print hcell => exact absurd ⟨_, rfl⟩ hprint

theorem Harmless.not_paletteStart_flush (h : canvas.Harmless)
    (hcells : ∀ x y cell, canvas.cell? x y = some cell → cell.Colorless)
    (hlayer : layer = '3' ∨ layer = '4') :
    ¬Command.paletteStart layer <:+: canvas.flush.toList := by
  rintro ⟨before, after, hsplit⟩
  have hflush : canvas.flush.toList =
      before ++ escape :: (['[', layer, '8', ';', '5'] ++ after) := by
    rw [← hsplit, List.append_assoc]
    rfl
  obtain ⟨-, earlier, command, later, hcommands, hprint, -, rfl⟩ :=
    h.controls before escape _ hflush isControl_escape
  have hsends : canvas.Sends command := sends_of_mem_commands (by rw [hcommands]; simp)
  refine hsends.not_paletteStart hcells hprint hlayer (Command.encodeAll later).toList ⟨after, ?_⟩
  have hencoded : canvas.flush.toList = (Command.encodeAll earlier).toList ++
      (command.encode.toList ++ (Command.encodeAll later).toList) := by
    rw [flush, hcommands]
    simp [Command.encodeAll]
  rw [hencoded, List.append_assoc] at hsplit
  exact List.append_cancel_left hsplit

/-- The canvas has no colors, and none is sent for it. -/
structure Colorless (canvas : Canvas) : Prop where
  cells : ∀ x y cell, canvas.cell? x y = some cell → cell.Colorless
  foreground : ¬"\x1b[38;5".toList <:+: canvas.flush.toList
  background : ¬"\x1b[48;5".toList <:+: canvas.flush.toList

theorem Harmless.colorless (h : canvas.Harmless)
    (hcells : ∀ x y cell, canvas.cell? x y = some cell → cell.Colorless) : canvas.Colorless where
  cells := hcells
  foreground := h.not_paletteStart_flush hcells (.inl rfl)
  background := h.not_paletteStart_flush hcells (.inr rfl)

end Canvas

end StyledTree
