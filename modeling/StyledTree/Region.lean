/-!
# Regions

Rectangles of cells on an endless grid. Columns grow to the right and rows
downward; both may be negative. A rectangle is written down as `Bounds`, whose
extents may be negative, too; a `Region` is what cells it has.

Columns and rows are held in 32 bits. Where a sum needs more, a build that
checks its sums stops, and one that does not goes on with what is left of the
sum. What goes on in either build is described at once by functions that are
told how to hold a number.
-/

namespace StyledTree

/-- A rectangle: its top left cell, and how many cells it is wide and high. -/
structure Region where
  x : Int
  y : Int
  width : Nat
  height : Nat
deriving Repr, DecidableEq

namespace Region

/-- The last column and row that can be named. No region reaches beyond it, and
the cells there are in no region. -/
def lastCoordinate : Int := 2147483647

/-- The region at a cell with the given extent; a negative extent counts as
none. -/
def ofBounds (x y width height : Int) : Region := ⟨x, y, width.toNat, height.toNat⟩

/-- The region without `amount` cells on each of its sides. A negative amount
makes it larger. -/
def inset (region : Region) (amount : Int) : Region :=
  ofBounds (region.x + amount) (region.y + amount)
    (region.width - 2 * amount) (region.height - 2 * amount)

/-- The first column beyond the region. -/
def right (region : Region) : Int := min (region.x + region.width) lastCoordinate

def bottom (region : Region) : Int := min (region.y + region.height) lastCoordinate

def contains (region : Region) (x y : Int) : Bool :=
  region.x ≤ x && x < region.right && region.y ≤ y && y < region.bottom

theorem contains_iff (region : Region) (x y : Int) :
    region.contains x y = true ↔
      (region.x ≤ x ∧ x < region.right) ∧ region.y ≤ y ∧ y < region.bottom := by
  simp [contains, and_assoc]

def isEmpty (region : Region) : Bool := region.width == 0 || region.height == 0

def foldRow {α : Type} (f : α → Int → Int → α) (x y : Int) (width : Nat) (init : α) : α :=
  (List.range width).foldl (fun acc (column : Nat) => f acc (x + column) y) init

def fold {α : Type} (region : Region) (f : α → Int → Int → α) (init : α) : α :=
  (List.range region.height).foldl
    (fun acc (row : Nat) => foldRow f region.x (region.y + row) region.width acc) init

theorem fold_keeps {α : Type} {motive : α → Prop} {f : α → Int → Int → α}
    (hvisit : ∀ acc x y, motive acc → motive (f acc x y)) (region : Region) {init : α}
    (hinit : motive init) : motive (region.fold f init) := by
  unfold fold
  refine List.foldlRecOn _ _ hinit fun acc hacc row _ => ?_
  unfold foldRow
  exact List.foldlRecOn _ _ hacc fun acc hacc column _ => hvisit acc _ _ hacc

end Region

/-! ## Numbers in 32 bits -/

namespace Coordinate

/-- The numbers that can be held. -/
def InRange (n : Int) : Prop := -Region.lastCoordinate - 1 ≤ n ∧ n ≤ Region.lastCoordinate

instance (n : Int) : Decidable (InRange n) := inferInstanceAs (Decidable (_ ∧ _))

/-- The lowest 32 bits of a number. -/
def wrap (n : Int) : Int := n.bmod 4294967296

def check (n : Int) : Option Int := if InRange n then some n else none

theorem wrap_of_inRange {n : Int} (h : InRange n) : wrap n = n := by
  simp only [InRange, Region.lastCoordinate] at h
  exact Int.bmod_eq_of_le (by omega) (by omega)

theorem check_eq_some_iff {n held : Int} : check n = some held ↔ held = n ∧ InRange n := by
  unfold check
  split <;> simp_all [eq_comm]

end Coordinate

/-! ## Bounds -/

/-- A rectangle as it is written down: its top left cell and its extents. -/
structure Bounds where
  x : Int
  y : Int
  width : Int
  height : Int
deriving Repr, DecidableEq

namespace Bounds

/-- Bounds in which a negative extent counts as none. -/
def clamp (x y width height : Int) : Bounds := ⟨x, y, max width 0, max height 0⟩

/-- The cells within the bounds. -/
def region (bounds : Bounds) : Region :=
  .ofBounds bounds.x bounds.y bounds.width bounds.height

def contains (bounds : Bounds) (x y : Int) : Bool :=
  bounds.x ≤ x && x < min (bounds.x + bounds.width) Region.lastCoordinate &&
    bounds.y ≤ y && y < min (bounds.y + bounds.height) Region.lastCoordinate

def isEmpty (bounds : Bounds) : Bool := bounds.width ≤ 0 || bounds.height ≤ 0

def ofRegion (region : Region) : Bounds := ⟨region.x, region.y, region.width, region.height⟩

@[simp] theorem region_ofRegion (region : Region) : (ofRegion region).region = region := rfl

theorem clamp_eq (x y width height : Int) :
    clamp x y width height = ofRegion (.ofBounds x y width height) := by
  simp [clamp, ofRegion, Region.ofBounds, Int.ofNat_toNat]

theorem contains_eq (bounds : Bounds) (x y : Int) :
    bounds.contains x y = bounds.region.contains x y := by
  rw [Bool.eq_iff_iff, Region.contains_iff]
  simp only [contains, region, Region.ofBounds, Region.right, Region.bottom, Bool.and_eq_true,
    decide_eq_true_eq]
  omega

theorem isEmpty_eq (bounds : Bounds) : bounds.isEmpty = bounds.region.isEmpty := by
  rw [Bool.eq_iff_iff]
  simp [isEmpty, region, Region.ofBounds, Region.isEmpty]

section Held

variable {m : Type → Type} [Monad m] (hold : Int → m Int)

/-- The bounds without `amount` cells on each of their sides. -/
def inset (bounds : Bounds) (amount : Int) : m Bounds := do
  let x ← hold (bounds.x + amount)
  let y ← hold (bounds.y + amount)
  let width ← hold (bounds.width - (← hold (2 * amount)))
  let height ← hold (bounds.height - (← hold (2 * amount)))
  return clamp x y width height

/-- The cells that a loop over the bounds visits, row by row and up to the end of
each. If there is no row, no end is looked for. -/
def visited (bounds : Bounds) : m Region := do
  let bottom ← hold (bounds.y + bounds.height)
  if bounds.y < bottom then
    let right ← hold (bounds.x + bounds.width)
    return ⟨bounds.x, bounds.y, (right - bounds.x).toNat, (bottom - bounds.y).toNat⟩
  else
    return ⟨bounds.x, bounds.y, bounds.width.toNat, 0⟩

end Held

end Bounds

end StyledTree
