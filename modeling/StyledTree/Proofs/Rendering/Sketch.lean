import StyledTree.Proofs.Rendering.Rows

/-!
# Drawings with something left out

A sketch of a drawing leaves out its grounds or its marks, or has other inks. Leaving
these out of the strokes comes to the same as drawing the tree in a look that has none
of them: what is left stays where it was. Cells can then be compared stroke by stroke.
-/

namespace StyledTree

/-- Which strokes a sketch has, and which inks it has for those of the drawing. -/
structure Sketch where
  grounds : Bool
  marks : Bool
  ink : Terminal.Color → Terminal.Color

namespace Sketch

def stroke? (sketch : Sketch) : Stroke → Option Stroke
  | .fill region color => if sketch.grounds then some (.fill region color) else none
  | .mark block content => if sketch.marks then some (.mark block content) else none
  | .write x y width text color => some (.write x y width text (sketch.ink color))

def ground? (sketch : Sketch) (ground : Option Terminal.Color) : Option Terminal.Color :=
  if sketch.grounds then ground else none

def look (sketch : Sketch) (look : Look) : Look where
  spacing := look.spacing
  colors id := ⟨sketch.ink (look.colors id).fg, sketch.ground? (look.colors id).bg⟩
  marksPadding := sketch.marks && look.marksPadding

variable (sketch : Sketch)

theorem ground?_none : sketch.ground? none = none := ite_self none

theorem ground?_or (color ground : Option Terminal.Color) :
    sketch.ground? (color.or ground) = (sketch.ground? color).or (sketch.ground? ground) := by
  unfold ground?
  cases sketch.grounds <;> rfl

theorem filterMap_fill (color : Option Terminal.Color) (block : Region) :
    ((color.map (Stroke.fill block)).toList).filterMap sketch.stroke? =
      ((sketch.ground? color).map (Stroke.fill block)).toList := by
  cases color with
  | none => rw [ground?_none]; rfl
  | some color => cases hgrounds : sketch.grounds <;> simp [stroke?, ground?, hgrounds]

theorem filterMap_mark (marksPadding : Bool) (padding : Nat) (block content : Region) :
    (if marksPadding ∧ 0 < padding then [Stroke.mark block content] else []).filterMap
        sketch.stroke? =
      if (sketch.marks && marksPadding) ∧ 0 < padding then [Stroke.mark block content] else [] := by
  cases hmarks : sketch.marks with
  | true => split <;> simp_all [stroke?]
  | false => split <;> simp_all [stroke?]

theorem paintedHeight_look (look : Look) (tree : Tree) :
    tree.paintedHeight (sketch.look look) = tree.paintedHeight look := by
  cases tree <;> rfl

end Sketch

namespace Tree

variable (sketch : Sketch) (look : Look)

mutual

theorem strokes_sketch (x y : Int) (width : Nat) (ground : Option Terminal.Color)
    (ink : Terminal.Color) (tree : Tree) :
    strokes (sketch.look look) x y width (sketch.ground? ground) (sketch.ink ink) tree =
      (strokes look x y width ground ink tree).filterMap sketch.stroke? := by
  cases tree with
  | element id children =>
      simp only [strokes, List.filterMap_append, sketch.filterMap_fill, sketch.ground?_or,
        sketch.filterMap_mark]
      congr 1
      exact strokesAll_sketch ..
  | text id words => rfl
  | missing id => rfl

theorem strokesAll_sketch (x y : Int) (width : Nat) (ink : Terminal.Color) (trees : List Tree) :
    strokesAll (sketch.look look) x y width (sketch.ink ink) trees =
      (strokesAll look x y width ink trees).filterMap sketch.stroke? := by
  cases trees with
  | nil => rfl
  | cons tree later =>
      have hfirst := strokes_sketch x y width none ink tree
      rw [sketch.ground?_none] at hfirst
      rw [strokesAll, strokesAll, List.filterMap_append, hfirst, sketch.paintedHeight_look,
        strokesAll_sketch]

end

end Tree

namespace Sketch

variable (sketch : Sketch) (hold : Int → Id Int)

theorem filterMap_fillings (bounds : Bounds) (color : Option Terminal.Color) :
    (bounds.fillings hold color).run.filterMap sketch.stroke? =
      (bounds.fillings hold (sketch.ground? color)).run := by
  cases color with
  | none =>
      rw [ground?_none]
      rfl
  | some color =>
      cases hgrounds : sketch.grounds <;> simp [Bounds.fillings, stroke?, ground?, hgrounds]

theorem filterMap_markings (bounds content : Bounds) (marked : Bool) :
    (bounds.markings hold content marked).run.filterMap sketch.stroke? =
      (bounds.markings hold content (sketch.marks && marked)).run := by
  cases hmarks : sketch.marks <;> cases marked <;> simp [Bounds.markings, stroke?, hmarks]

end Sketch

namespace Tree

variable (sketch : Sketch) (look : Look) (hold : Int → Id Int)

theorem run_heldStrokes_element (x y width : Int) (ground : Option Terminal.Color)
    (ink : Terminal.Color) (id : NodeId) (children : List Tree) :
    let block := Bounds.clamp x (hold (y + (look.spacing id).marginTop)) width
      (heldBlock hold look.spacing id children)
    let content := (block.inset hold (look.spacing id).padding).run
    (heldStrokes hold look x y width ground ink (element id children)).run =
      ((block.fillings hold ((look.colors id).bg.or ground)).run ++
          (block.markings hold content
            (look.marksPadding && 0 < (look.spacing id).padding)).run ++
          (heldStrokesAll hold look content.x content.y content.width (look.colors id).fg
            children).run.1,
        hold ((look.spacing id).marginTop + block.height)) := rfl

theorem run_heldStrokesAll_cons (x row width : Int) (ink : Terminal.Color) (tree : Tree)
    (later : List Tree) :
    let first := (heldStrokes hold look x row width none ink tree).run
    let others := (heldStrokesAll hold look x (hold (row + first.2)) width ink later).run
    (heldStrokesAll hold look x row width ink (tree :: later)).run =
      (first.1 ++ others.1, others.2) := rfl

mutual

/-- The same holds where sums do not fit: no sum depends on what is left out. -/
theorem heldStrokes_sketch (x y width : Int) (ground : Option Terminal.Color)
    (ink : Terminal.Color) (tree : Tree) :
    (heldStrokes hold (sketch.look look) x y width (sketch.ground? ground) (sketch.ink ink)
        tree).run =
      ((heldStrokes hold look x y width ground ink tree).run.1.filterMap sketch.stroke?,
        (heldStrokes hold look x y width ground ink tree).run.2) := by
  cases tree with
  | element id children =>
      have hchildren (x row width : Int) :
          (heldStrokesAll hold (sketch.look look) x row width (sketch.ink (look.colors id).fg)
              children).run.1 =
            (heldStrokesAll hold look x row width (look.colors id).fg children).run.1.filterMap
              sketch.stroke? :=
        congrArg Prod.fst (heldStrokesAll_sketch x row width (look.colors id).fg children)
      simp only [run_heldStrokes_element, List.filterMap_append, sketch.filterMap_fillings,
        sketch.filterMap_markings, sketch.ground?_or, ← hchildren, ← Bool.and_assoc]
      rfl
  | text id words => rfl
  | missing id => rfl

theorem heldStrokesAll_sketch (x row width : Int) (ink : Terminal.Color) (trees : List Tree) :
    (heldStrokesAll hold (sketch.look look) x row width (sketch.ink ink) trees).run =
      ((heldStrokesAll hold look x row width ink trees).run.1.filterMap sketch.stroke?,
        (heldStrokesAll hold look x row width ink trees).run.2) := by
  cases trees with
  | nil => rfl
  | cons tree later =>
      have hfirst := heldStrokes_sketch x row width none ink tree
      rw [sketch.ground?_none] at hfirst
      have hlater row := heldStrokesAll_sketch x row width ink later
      simp only [run_heldStrokesAll_cons, List.filterMap_append, hfirst, hlater]

end

end Tree

/-- Cells of a drawing are related to those of its sketch, if each stroke relates them to
what the sketch has of it. -/
theorem Sketch.rel_foldl {sketch : Sketch} {Related : Cell → Cell → Prop} {strokes : List Stroke}
    {columns : Nat} {x y : Int}
    (hkept : ∀ stroke ∈ strokes, ∀ left, sketch.stroke? stroke = some left → ∀ cell other,
      Related cell other →
        Related (stroke.cellAfter columns x y cell) (left.cellAfter columns x y other))
    (hleft : ∀ stroke ∈ strokes, sketch.stroke? stroke = none → ∀ cell other,
      Related cell other → Related (stroke.cellAfter columns x y cell) other)
    {cell other : Cell} (h : Related cell other) :
    Related (strokes.foldl (Stroke.cellAfter columns x y) cell)
      ((strokes.filterMap sketch.stroke?).foldl (Stroke.cellAfter columns x y) other) := by
  induction strokes generalizing cell other with
  | nil => exact h
  | cons stroke later ih =>
      have hlater := @ih (fun stroke hmem => hkept stroke (List.mem_cons_of_mem _ hmem))
        fun stroke hmem => hleft stroke (List.mem_cons_of_mem _ hmem)
      have hmem : stroke ∈ stroke :: later := List.mem_cons_self
      cases hstroke : sketch.stroke? stroke with
      | none =>
          rw [List.filterMap_cons_none hstroke]
          exact hlater (hleft stroke hmem hstroke cell other h)
      | some left =>
          rw [List.filterMap_cons_some hstroke]
          exact hlater (hkept stroke hmem left hstroke cell other h)

/-- A relation between cells is kept by whatever happens to them, where what the sketch
leaves out happens to the first one only. -/
structure Sketch.Keeps (sketch : Sketch) (Related : Cell → Cell → Prop) : Prop where
  ground : ∀ cell other, Related cell other → ∀ color,
    Related { cell with bg := some color }
      (if sketch.grounds then { other with bg := some color } else other)
  mark : ∀ cell other, Related cell other →
    Related { cell with symbol := String.singleton paddingMark }
      (if sketch.marks then { other with symbol := String.singleton paddingMark } else other)
  symbol : ∀ cell other, Related cell other → ∀ symbol color,
    Related (cell.write symbol (some color) none) (other.write symbol (some (sketch.ink color)) none)

namespace Sketch.Keeps

variable {sketch : Sketch} {Related : Cell → Cell → Prop} {stroke left : Stroke}
  {cell other : Cell} {columns : Nat} {x y : Int}

theorem cellAfter (hkeeps : sketch.Keeps Related) (hleft : sketch.stroke? stroke = some left)
    (h : Related cell other) :
    Related (stroke.cellAfter columns x y cell) (left.cellAfter columns x y other) := by
  cases stroke with
  | fill region color =>
      obtain ⟨hgrounds, ⟨⟩⟩ := Option.ite_none_right_eq_some.mp hleft
      have hchanged := hkeeps.ground cell other h color
      rw [if_pos hgrounds] at hchanged
      simp only [Stroke.cellAfter]
      split
      · exact hchanged
      · exact h
  | mark block content =>
      obtain ⟨hmarks, ⟨⟩⟩ := Option.ite_none_right_eq_some.mp hleft
      have hchanged := hkeeps.mark cell other h
      rw [if_pos hmarks] at hchanged
      simp only [Stroke.cellAfter]
      split
      · exact hchanged
      · exact h
  | write row column width text color =>
      obtain rfl := Option.some.inj hleft
      simp only [Stroke.cellAfter]
      split
      · exact hkeeps.symbol cell other h _ color
      · exact h

theorem of_left_out (hkeeps : sketch.Keeps Related) (hnone : sketch.stroke? stroke = none)
    (h : Related cell other) : Related (stroke.cellAfter columns x y cell) other := by
  cases stroke with
  | fill region color =>
      have hchanged := hkeeps.ground cell other h color
      rw [if_neg (by simpa [stroke?] using hnone)] at hchanged
      simp only [Stroke.cellAfter]
      split
      · exact hchanged
      · exact h
  | mark block content =>
      have hchanged := hkeeps.mark cell other h
      rw [if_neg (by simpa [stroke?] using hnone)] at hchanged
      simp only [Stroke.cellAfter]
      split
      · exact hchanged
      · exact h
  | write row column width text color => cases hnone

theorem foldl (hkeeps : sketch.Keeps Related) (hblank : Related {} {}) (strokes : List Stroke)
    (columns : Nat) (x y : Int) :
    Related (strokes.foldl (Stroke.cellAfter columns x y) {})
      ((strokes.filterMap sketch.stroke?).foldl (Stroke.cellAfter columns x y) {}) :=
  Sketch.rel_foldl (fun _ _ _ hleft _ _ h => hkeeps.cellAfter hleft h)
    (fun _ _ hnone _ _ h => hkeeps.of_left_out hnone h) hblank

end Sketch.Keeps

end StyledTree
