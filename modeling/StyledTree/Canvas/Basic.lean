import StyledTree.Region
import StyledTree.Terminal.Basic

/-!
# Canvases

A canvas is a grid of cells, kept row by row. Cells are read with `cell?` and
changed with `modifyCell`; positions outside the canvas hold no cell and changes
there do nothing. `cell?_modifyCell` says what a change does to every cell.
-/

namespace StyledTree

/-- One cell of a terminal. A symbol two columns wide is kept in the first of the
two cells that it fills, and the symbol of the second is empty. -/
structure Cell where
  symbol : String := " "
  fg : Option Terminal.Color := none
  bg : Option Terminal.Color := none
deriving Repr, DecidableEq, Inhabited

structure Canvas where
  width : Nat
  height : Nat
  /-- The cells of the first row from left to right, then those of the next. -/
  cells : Array Cell
  size_cells : cells.size = width * height
deriving Repr, DecidableEq

namespace Canvas

def blank (width height : Nat) : Canvas where
  width := width
  height := height
  cells := Array.replicate (width * height) {}
  size_cells := Array.size_replicate

/-- The place of a cell in the list of all cells, if it is on the canvas. -/
def index? (canvas : Canvas) (x y : Int) : Option Nat :=
  if 0 ≤ x ∧ x < canvas.width ∧ 0 ≤ y ∧ y < canvas.height then
    some (y.toNat * canvas.width + x.toNat)
  else none

def cell? (canvas : Canvas) (x y : Int) : Option Cell :=
  (canvas.index? x y).bind (canvas.cells[·]?)

def modifyCell (canvas : Canvas) (x y : Int) (f : Cell → Cell) : Canvas :=
  match canvas.index? x y with
  | none => canvas
  | some i =>
      { canvas with
        cells := canvas.cells.modify i f
        size_cells := by rw [Array.size_modify]; exact canvas.size_cells }

theorem index?_lt {canvas : Canvas} {x y : Int} {i : Nat} (h : canvas.index? x y = some i) :
    i < canvas.width * canvas.height := by
  unfold index? at h
  split at h
  case isFalse => simp at h
  case isTrue hin =>
    obtain ⟨hx, hxw, hy, hyh⟩ := hin
    obtain rfl := Option.some.inj h
    have hcol : x.toNat < canvas.width := by omega
    have hrow : y.toNat + 1 ≤ canvas.height := by omega
    calc y.toNat * canvas.width + x.toNat
        < y.toNat * canvas.width + canvas.width := by omega
      _ = (y.toNat + 1) * canvas.width := by rw [Nat.add_mul, Nat.one_mul]
      _ ≤ canvas.height * canvas.width := Nat.mul_le_mul_right _ hrow
      _ = canvas.width * canvas.height := Nat.mul_comm _ _

theorem index?_inj {canvas : Canvas} {x y x' y' : Int} {i : Nat}
    (h : canvas.index? x y = some i) (h' : canvas.index? x' y' = some i) :
    x = x' ∧ y = y' := by
  unfold index? at h h'
  split at h <;> split at h' <;> simp only [Option.some.injEq, reduceCtorEq] at h h'
  case isTrue.isTrue hin hin' =>
    obtain ⟨hx, hxw, hy, hyh⟩ := hin
    obtain ⟨hx', hxw', hy', hyh'⟩ := hin'
    have hcol : x.toNat < canvas.width := by omega
    have hcol' : x'.toNat < canvas.width := by omega
    have hpos : 0 < canvas.width := by omega
    have hsame : y.toNat * canvas.width + x.toNat = y'.toNat * canvas.width + x'.toNat := by
      rw [h, h']
    have hrow : y.toNat = y'.toNat := by
      have hdiv := congrArg (· / canvas.width) hsame
      simpa [Nat.mul_comm _ canvas.width, Nat.mul_add_div hpos, Nat.div_eq_of_lt hcol,
        Nat.div_eq_of_lt hcol'] using hdiv
    rw [hrow] at hsame
    omega

@[simp] theorem width_modifyCell (canvas : Canvas) (x y : Int) (f : Cell → Cell) :
    (canvas.modifyCell x y f).width = canvas.width := by
  unfold modifyCell
  split <;> rfl

@[simp] theorem height_modifyCell (canvas : Canvas) (x y : Int) (f : Cell → Cell) :
    (canvas.modifyCell x y f).height = canvas.height := by
  unfold modifyCell
  split <;> rfl

@[simp] theorem index?_modifyCell (canvas : Canvas) (x y x' y' : Int) (f : Cell → Cell) :
    (canvas.modifyCell x y f).index? x' y' = canvas.index? x' y' := by
  simp [index?]

theorem cell?_modifyCell (canvas : Canvas) (x y x' y' : Int) (f : Cell → Cell) :
    (canvas.modifyCell x y f).cell? x' y' =
      if x' = x ∧ y' = y then (canvas.cell? x' y').map f else canvas.cell? x' y' := by
  unfold cell?
  rw [index?_modifyCell]
  cases hat : canvas.index? x' y' with
  | none => simp
  | some j =>
      simp only [Option.bind_some]
      unfold modifyCell
      cases hi : canvas.index? x y with
      | none =>
          have hne : ¬(x' = x ∧ y' = y) := by
            rintro ⟨rfl, rfl⟩
            simp [hi] at hat
          simp [hne]
      | some i =>
          simp only [Array.getElem?_modify]
          by_cases hij : i = j
          · subst hij
            obtain ⟨rfl, rfl⟩ := index?_inj hi hat
            simp
          · have hne : ¬(x' = x ∧ y' = y) := by
              rintro ⟨rfl, rfl⟩
              exact hij (Option.some.inj (hi.symm.trans hat))
            simp [hij, hne]

theorem cell?_isSome_iff (canvas : Canvas) (x y : Int) :
    (canvas.cell? x y).isSome = true ↔
      0 ≤ x ∧ x < canvas.width ∧ 0 ≤ y ∧ y < canvas.height := by
  unfold cell?
  cases hi : canvas.index? x y with
  | none =>
      simp only [Option.bind_none, Option.isSome_none, Bool.false_eq_true, false_iff]
      intro hin
      simp [index?, hin] at hi
  | some i =>
      have hlt := index?_lt hi
      rw [← canvas.size_cells] at hlt
      simp only [Option.bind_some, hlt, Array.getElem?_eq_getElem, Option.isSome_some, true_iff]
      unfold index? at hi
      split at hi
      case isTrue hin => exact hin
      case isFalse => simp at hi

theorem cell?_blank (width height : Nat) {x y : Int}
    (h : 0 ≤ x ∧ x < width ∧ 0 ≤ y ∧ y < height) : (blank width height).cell? x y = some {} := by
  have hsome := (cell?_isSome_iff (blank width height) x y).mpr h
  unfold cell? at hsome ⊢
  cases hi : (blank width height).index? x y with
  | none => simp [hi] at hsome
  | some i =>
      have hlt := index?_lt hi
      simp only [Option.bind_some]
      have : i < width * height := hlt
      simp [blank, this]

/-! ## Visiting a region

A visit that changes only the cell it comes to changes each cell of the region
once and no other cell. -/

theorem cell?_foldRow {visit : Canvas → Int → Int → Canvas} {change : Int → Int → Cell → Cell}
    (hvisit : ∀ canvas x y x' y', (visit canvas x y).cell? x' y' =
      if x' = x ∧ y' = y then (canvas.cell? x' y').map (change x y) else canvas.cell? x' y')
    (canvas : Canvas) (x y : Int) (width : Nat) (x' y' : Int) :
    (Region.foldRow visit x y width canvas).cell? x' y' =
      if (x ≤ x' ∧ x' < x + width) ∧ y' = y then (canvas.cell? x' y').map (change x' y')
      else canvas.cell? x' y' := by
  unfold Region.foldRow
  induction width with
  | zero => rw [if_neg (by omega)]; rfl
  | succ width ih =>
      rw [List.range_succ, List.foldl_append, List.foldl_cons, List.foldl_nil, hvisit, ih]
      by_cases hlast : x' = x + width ∧ y' = y
      · obtain ⟨rfl, rfl⟩ := hlast
        rw [if_pos ⟨rfl, rfl⟩, if_neg (by omega), if_pos (by omega)]
      · rw [if_neg hlast]
        by_cases hrow : (x ≤ x' ∧ x' < x + width) ∧ y' = y
        · rw [if_pos hrow, if_pos (by omega)]
        · rw [if_neg hrow, if_neg (by omega)]

theorem cell?_fold {visit : Canvas → Int → Int → Canvas} {change : Int → Int → Cell → Cell}
    (hvisit : ∀ canvas x y x' y', (visit canvas x y).cell? x' y' =
      if x' = x ∧ y' = y then (canvas.cell? x' y').map (change x y) else canvas.cell? x' y')
    (canvas : Canvas) (region : Region) (x' y' : Int) :
    (region.fold visit canvas).cell? x' y' =
      if (region.x ≤ x' ∧ x' < region.x + region.width) ∧
          region.y ≤ y' ∧ y' < region.y + region.height then
        (canvas.cell? x' y').map (change x' y')
      else canvas.cell? x' y' := by
  obtain ⟨x, y, width, height⟩ := region
  unfold Region.fold
  simp only
  induction height with
  | zero => rw [if_neg (by omega)]; rfl
  | succ height ih =>
      rw [List.range_succ, List.foldl_append, List.foldl_cons, List.foldl_nil,
        cell?_foldRow hvisit, ih]
      by_cases hlast : (x ≤ x' ∧ x' < x + width) ∧ y' = y + height
      · rw [if_pos hlast, if_neg (by omega), if_pos (by omega)]
      · rw [if_neg hlast]
        by_cases hrows : (x ≤ x' ∧ x' < x + width) ∧ y ≤ y' ∧ y' < y + height
        · rw [if_pos hrows, if_pos (by omega)]
        · rw [if_neg hrows, if_neg (by omega)]

end Canvas

end StyledTree
