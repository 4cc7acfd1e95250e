import StyledTree.Canvas.Basic
import StyledTree.Text.Blank

/-!
# Reading a canvas as text

The symbols of a row one after the other, and the rows one below the other.
-/

namespace StyledTree.Canvas

/-- The cells of a row from left to right; none if the canvas lacks the row. -/
def row (canvas : Canvas) (y : Nat) : List Cell :=
  (canvas.cells.extract (y * canvas.width) (y * canvas.width + canvas.width)).toList

theorem getElem?_row (canvas : Canvas) (x y : Nat) :
    (canvas.row y)[x]? = canvas.cell? x y := by
  simp only [row, Array.getElem?_toList, Array.getElem?_extract, canvas.size_cells]
  by_cases hx : x < canvas.width
  · by_cases hy : y < canvas.height
    · have hin : canvas.index? x y = some (y * canvas.width + x) := by
        simp [index?, hx, hy]
      have hlt := index?_lt hin
      have hrow : y * canvas.width + canvas.width ≤ canvas.width * canvas.height := by
        have := Nat.mul_le_mul_right canvas.width (Nat.succ_le_of_lt hy)
        rw [Nat.succ_mul, Nat.mul_comm canvas.height] at this
        exact this
      rw [if_pos (by omega)]
      simp [cell?, hin]
    · have hout : canvas.index? x y = none := by
        simp [index?, hy]
      have hrow : canvas.width * canvas.height ≤ y * canvas.width := by
        rw [Nat.mul_comm]
        exact Nat.mul_le_mul_right _ (Nat.le_of_not_lt hy)
      rw [if_neg (by omega)]
      simp [cell?, hout]
  · have hout : canvas.index? x y = none := by
      simp [index?, hx]
    rw [if_neg (by omega)]
    simp [cell?, hout]

def rows (canvas : Canvas) : List (List Cell) := (List.range canvas.height).map canvas.row

def symbolsOf (cells : List Cell) : String := String.join (cells.map Cell.symbol)

def rowText (canvas : Canvas) (y : Int) : String :=
  if 0 ≤ y ∧ y < canvas.height then symbolsOf (canvas.row y.toNat) else ""

def text (canvas : Canvas) : String :=
  String.intercalate "\n" (canvas.rows.map symbolsOf)

/-- The texts of all rows, each without the blanks at its end. -/
def trimmedText (canvas : Canvas) : String :=
  String.intercalate "\n"
    (canvas.rows.map fun cells => String.ofList (Text.trimEnd (symbolsOf cells).toList))

end StyledTree.Canvas
