import StyledTree.Proofs.Document.Links
import StyledTree.Proofs.Rendering.Placement
import StyledTree.Proofs.Rendering.Range

/-!
# What rendering returns

Drawing never changes the size of a canvas. So rendering an element returns a
canvas of the width asked for, as high as the element, with the strokes of its
tree drawn on it in the colors of the renderer. With exact counts this is so for
every element; in 32 bits, as long as the rows fit. A build that checks its sums
returns nothing else.
-/

namespace StyledTree

namespace Canvas

/-! ## Sizes -/

theorem sameSize_markPadding (canvas : Canvas) (block content : Region) :
    (canvas.markPadding block content).SameSize canvas := by
  refine Region.fold_keeps (motive := (SameSize · canvas)) (fun acc x y hacc => ?_)
    block ⟨rfl, rfl⟩
  by_cases hin : content.contains x y = true
  · rwa [if_pos hin]
  · rw [if_neg hin]
    exact (sameSize_putSymbol acc x y paddingMark).trans hacc

theorem sameSize_draw (canvas : Canvas) (stroke : Stroke) :
    (canvas.draw stroke).SameSize canvas := by
  cases stroke with
  | fill region color => exact sameSize_fillGround canvas region color
  | mark block content => exact sameSize_markPadding canvas block content
  | write x y width text color => exact sameSize_putText canvas x y width text (some color) none

theorem sameSize_drawAll (canvas : Canvas) (strokes : List Stroke) :
    (canvas.drawAll strokes).SameSize canvas := by
  induction strokes generalizing canvas with
  | nil => exact ⟨rfl, rfl⟩
  | cons stroke later ih => exact (ih (canvas.draw stroke)).trans (sameSize_draw canvas stroke)

end Canvas

namespace Renderer

/-! ## Colors -/

theorem create_eq_ok_iff {options : RenderOptions} {renderer : Renderer} :
    create options = .ok renderer ↔ ∃ theme, Theme.named options.themeName = .ok theme ∧
      renderer = {
        theme := if options.monochrome then .plain else theme
        mode := if options.monochrome then .monochrome else .palette
        showBounds := options.showBounds
        logStyles := options.logStyles } := by
  unfold create
  cases Theme.named options.themeName with
  | error fault =>
      constructor
      · intro hrenderer
        cases hrenderer
      · rintro ⟨_, htheme, -⟩
        cases htheme
  | ok theme =>
      constructor
      · intro hrenderer
        exact ⟨theme, rfl, (Except.ok.inj hrenderer).symm⟩
      · rintro ⟨_, htheme, rfl⟩
        rw [← Except.ok.inj htheme]
        rfl

theorem mode_of_create {options : RenderOptions} {renderer : Renderer}
    (hrenderer : create options = .ok renderer) :
    renderer.mode = if options.monochrome then .monochrome else .palette := by
  obtain ⟨theme, -, rfl⟩ := create_eq_ok_iff.mp hrenderer
  rfl

theorem look_bg_eq_some_iff {options : RenderOptions} {renderer : Renderer}
    (hrenderer : create options = .ok renderer) (styles : ComputedStyles) (id : NodeId)
    (color : Terminal.Color) :
    ((renderer.look styles).colors id).bg = some color ↔
      options.monochrome = false ∧
        ∃ shade, (styles.styleOf id).bg = some shade ∧ color = .solid shade := by
  show renderer.mode.resolve (styles.styleOf id).bg = some color ↔ _
  rw [mode_of_create hrenderer]
  cases options.monochrome with
  | false =>
      show (styles.styleOf id).bg.map Terminal.Color.solid = some color ↔ _
      rw [Option.map_eq_some_iff]
      simp only [true_and, eq_comm]
  | true => simp [ColorMode.resolve]

/-! ## The canvas returned -/

theorem sameSize_paint (renderer : Renderer) (styles : ComputedStyles) (tree : Tree)
    (width height : Nat) :
    (renderer.paint styles tree width height).SameSize (Canvas.blank width height) :=
  Canvas.sameSize_drawAll ..

theorem cell?_paint_isSome_iff (renderer : Renderer) (styles : ComputedStyles) (tree : Tree)
    (width height : Nat) (x y : Int) :
    ((renderer.paint styles tree width height).cell? x y).isSome = true ↔
      (0 ≤ x ∧ x < width) ∧ 0 ≤ y ∧ y < height := by
  obtain ⟨hwidth, hheight⟩ := renderer.sameSize_paint styles tree width height
  rw [Canvas.cell?_isSome_iff, hwidth, hheight, and_assoc]
  rfl

theorem rowsFor_natCast (needed : Nat) : rowsFor needed = min needed maxRows := by
  unfold rowsFor
  split <;> omega

/-! ### Held counts -/

/-- The rows of a tree, where each sum is replaced by what is held of it. -/
def rowsHeld (hold : Int → Int) (renderer : Renderer) (styles : ComputedStyles) (tree : Tree) :
    Int :=
  Id.run (tree.heldHeight (fun n => pure (hold n)) (renderer.look styles).spacing)

def strokesHeld (hold : Int → Int) (renderer : Renderer) (styles : ComputedStyles) (tree : Tree)
    (width : Nat) : List Stroke :=
  (Id.run (tree.heldStrokes (fun n => pure (hold n)) (renderer.look styles) 0 0 width
    (some renderer.theme.background) renderer.theme.foreground)).1

def paintHeld (hold : Int → Int) (renderer : Renderer) (styles : ComputedStyles) (tree : Tree)
    (width height : Nat) : Canvas :=
  (Canvas.blank width height).drawAll (renderer.strokesHeld hold styles tree width)

theorem sameSize_paintHeld (hold : Int → Int) (renderer renderer' : Renderer)
    (styles styles' : ComputedStyles) (tree : Tree) (width height : Nat) :
    (renderer.paintHeld hold styles tree width height).SameSize
      (renderer'.paintHeld hold styles' tree width height) :=
  (Canvas.sameSize_drawAll ..).trans (Canvas.sameSize_drawAll ..).symm

theorem renderWith_of_element (hold : Int → Int) {doc : Document} {root : NodeId}
    {element : Element} (helement : doc.element root = .ok element) (renderer : Renderer)
    (styles : ComputedStyles) (width : Nat) :
    let needed := renderer.rowsHeld hold styles (doc.subtree root)
    renderer.renderWith hold doc root styles width =
      .ok ⟨renderer.paintHeld hold styles (doc.subtree root) width (rowsFor needed),
        renderer.records doc element styles needed⟩ := by
  unfold renderWith renderHeld
  rw [helement]
  rfl

theorem exists_renderWith (hold : Int → Int) {doc : Document} {root : NodeId}
    (hroot : doc.isElement root = true) (renderer : Renderer) (styles : ComputedStyles)
    (width : Nat) :
    ∃ records, renderer.renderWith hold doc root styles width =
      .ok ⟨renderer.paintHeld hold styles (doc.subtree root) width
        (rowsFor (renderer.rowsHeld hold styles (doc.subtree root))), records⟩ := by
  obtain ⟨element, helement⟩ := (Document.isElement_iff doc root).mp hroot
  have hfound := (Document.element_eq_ok_iff doc root element).mpr helement
  exact ⟨_, renderWith_of_element hold hfound renderer styles width⟩

/-! ### Exact counts -/

/-- The rows and columns that it takes to render an element can be held in 32 bits. -/
def Fits (renderer : Renderer) (doc : Document) (root : NodeId) (styles : ComputedStyles)
    (width : Nat) : Prop :=
  (doc.outerHeight (renderer.look styles).spacing root : Int) ≤ Region.lastCoordinate ∧
    (width : Int) ≤ Region.lastCoordinate

instance (renderer : Renderer) (doc : Document) (root : NodeId) (styles : ComputedStyles)
    (width : Nat) : Decidable (renderer.Fits doc root styles width) :=
  inferInstanceAs (Decidable (_ ∧ _))

/-- What rendering an element comes to when every row and column is counted exactly. A
build that checks its sums returns nothing else, and where the counts fit, every build
returns it. -/
structure Renders (renderer : Renderer) (doc : Document) (root : NodeId)
    (styles : ComputedStyles) (width : Nat) (output : Log.Logged Canvas) : Prop where
  exactly : renderer.renderWith id doc root styles width = .ok output
  checked : ∀ outcome, renderer.renderChecked doc root styles width = some outcome →
    outcome = .ok output
  fits : renderer.Fits doc root styles width →
    renderer.render doc root styles width = .ok output ∧
      renderer.renderChecked doc root styles width = some (.ok output)

theorem renders_of_element {doc : Document} {root : NodeId} {element : Element}
    (helement : doc.element root = .ok element) (renderer : Renderer) (styles : ComputedStyles)
    (width : Nat) :
    let needed := doc.outerHeight (renderer.look styles).spacing root
    renderer.Renders doc root styles width
      ⟨renderer.paint styles (doc.subtree root) width (min needed maxRows),
        renderer.records doc element styles needed⟩ := by
  intro needed
  rw [← rowsFor_natCast]
  -- a limit that no count of this rendering goes beyond
  let most : Int := max needed width
  have hrows : (needed : Int) ≤ most := Int.le_max_left ..
  have hwidth : (width : Int) ≤ most := Int.le_max_right ..
  refine ⟨?_, ?_, fun hfits => ⟨?_, ?_⟩⟩
  · have hexact : Reckons (fun n => (pure n : Id Int)) most _ :=
      .of_hold_eq fun _ _ _ => rfl
    exact hexact.renderHeld renderer helement styles hwidth hrows
  · exact (Reckons.of_check most).renderHeld renderer helement styles hwidth hrows
  · have hwrap : Reckons (fun n => (pure (Coordinate.wrap n) : Id Int)) Region.lastCoordinate _ :=
      .of_hold_eq fun n hlow hhigh =>
        congrArg pure (Coordinate.wrap_of_inRange ⟨by omega, hhigh⟩)
    exact hwrap.renderHeld renderer helement styles hfits.2 hfits.1
  · have hcheck : Reckons Coordinate.check Region.lastCoordinate _ :=
      .of_hold_eq fun n hlow hhigh => if_pos ⟨by omega, hhigh⟩
    exact hcheck.renderHeld renderer helement styles hfits.2 hfits.1

theorem exists_renders {doc : Document} {root : NodeId} (hroot : doc.isElement root = true)
    (renderer : Renderer) (styles : ComputedStyles) (width : Nat) :
    ∃ records, renderer.Renders doc root styles width
      ⟨renderer.paint styles (doc.subtree root) width
        (min (doc.outerHeight (renderer.look styles).spacing root) maxRows), records⟩ := by
  obtain ⟨element, helement⟩ := (Document.isElement_iff doc root).mp hroot
  have hfound := (Document.element_eq_ok_iff doc root element).mpr helement
  exact ⟨_, renders_of_element hfound renderer styles width⟩

theorem rowsHeld_id (renderer : Renderer) (styles : ComputedStyles) (tree : Tree) :
    renderer.rowsHeld id styles tree = tree.outerHeight (renderer.look styles).spacing :=
  have hexact : Reckons (fun n => (pure n : Id Int)) _ _ := .of_hold_eq fun _ _ _ => rfl
  hexact.heldHeight (renderer.look styles).spacing (Int.le_refl _)

/-- A build that checks its sums has a result for an element exactly where the counts fit. -/
theorem renderChecked_eq_some_iff {renderer : Renderer} {doc : Document} {root : NodeId}
    {styles : ComputedStyles} {width : Nat} (hwidth : (width : Int) ≤ Region.lastCoordinate)
    {output : Log.Logged Canvas} :
    renderer.renderChecked doc root styles width = some (.ok output) ↔
      renderer.Fits doc root styles width ∧ renderer.Renders doc root styles width output := by
  constructor
  · intro hchecked
    cases helement : doc.element root with
    | error fault =>
        rw [renderChecked, renderHeld_of_error Coordinate.check renderer helement] at hchecked
        cases hchecked
    | ok element =>
        have hrenders := renders_of_element helement renderer styles width
        obtain rfl := Except.ok.inj (hrenders.checked _ hchecked)
        refine ⟨⟨?_, hwidth⟩, hrenders⟩
        rw [renderChecked, renderHeld, helement] at hchecked
        obtain ⟨needed, hneeded, -⟩ := Option.bind_eq_some_iff.mp hchecked
        have hexact := (Reckons.of_check _).heldHeight (renderer.look styles).spacing
          (Int.le_refl _) needed hneeded
        have hrange := Tree.inRange_of_heldHeight hneeded
        rw [hexact] at hrange
        exact hrange.2
  · rintro ⟨hfits, hrenders⟩
    exact (hrenders.fits hfits).2

theorem renderWith_id_of_renderChecked {renderer : Renderer} {doc : Document} {root : NodeId}
    {styles : ComputedStyles} {width : Nat} {outcome : Except RenderError (Log.Logged Canvas)}
    (hchecked : renderer.renderChecked doc root styles width = some outcome) :
    renderer.renderWith id doc root styles width = outcome := by
  cases helement : doc.element root with
  | ok element =>
      have hrenders := renders_of_element helement renderer styles width
      rw [hrenders.checked outcome hchecked, hrenders.exactly]
  | error fault =>
      rw [renderChecked, renderHeld_of_error Coordinate.check renderer helement] at hchecked
      rw [renderWith, renderHeld_of_error _ renderer helement]
      exact Option.some.inj hchecked

theorem rowsFor_le (needed : Int) : rowsFor needed ≤ maxRows := by
  unfold rowsFor
  split <;> omega

theorem exists_drawAll {hold : Int → Int} {renderer : Renderer} {doc : Document} {root : NodeId}
    {styles : ComputedStyles} {width : Nat} {output : Log.Logged Canvas}
    (hrender : renderer.renderWith hold doc root styles width = .ok output) :
    ∃ rows strokes, rows ≤ maxRows ∧ output.value = (Canvas.blank width rows).drawAll strokes := by
  cases helement : doc.element root with
  | ok element =>
      rw [renderWith_of_element hold helement] at hrender
      cases hrender
      exact ⟨_, _, rowsFor_le _, rfl⟩
  | error fault =>
      rw [renderWith, renderHeld_of_error _ renderer helement] at hrender
      cases hrender

theorem read_of_render {renderer : Renderer} {doc : Document} {root : NodeId}
    {styles : ComputedStyles} {width : Nat} {output : Log.Logged Canvas}
    (hrender : renderer.render doc root styles width = .ok output) {α : Type} {value : α}
    (read : Canvas → α)
    (hread : (renderer.render doc root styles width).toOption.map (fun held => read held.value) =
      some value) : read output.value = value := by
  rw [hrender] at hread
  exact Option.some.inj hread

end Renderer

end StyledTree
