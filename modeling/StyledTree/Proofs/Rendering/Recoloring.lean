import StyledTree.Proofs.Canvas.Colorless
import StyledTree.Proofs.Rendering.Locality
import StyledTree.Proofs.Rendering.Sketch

/-!
# Colors do not shape a drawing

Elements are placed by their spacing, and the symbols of a cell do not depend on any color.
So a drawing has the shape of its outline, which has no grounds and only one ink, and two
drawings with the same spacing have the same outline, also where sums do not fit. Without
colors the drawings themselves are the same.
-/

namespace StyledTree

/-- A drawing without its grounds, in one ink. -/
def Sketch.outline : Sketch := ⟨false, true, fun _ => .reset⟩

/-- The same symbol, whatever the colors. There is one for the symbol in both cells or in
neither. -/
structure Cell.SameShape (cell other : Cell) : Prop where
  symbol : cell.symbol = other.symbol
  inked : cell.fg.isSome = other.fg.isSome

theorem Cell.SameShape.symm {cell other : Cell} (h : cell.SameShape other) :
    other.SameShape cell :=
  ⟨h.symbol.symm, h.inked.symm⟩

theorem Cell.SameShape.trans {a b c : Cell} (hab : a.SameShape b) (hbc : b.SameShape c) :
    a.SameShape c :=
  ⟨hab.symbol.trans hbc.symbol, hab.inked.trans hbc.inked⟩

/-- Two canvases of one size, whose cells have the same shape. -/
structure Canvas.SameShape (canvas canvas' : Canvas) : Prop where
  size : canvas.SameSize canvas'
  cells : ∀ x y cell, canvas.cell? x y = some cell →
    ∃ cell', canvas'.cell? x y = some cell' ∧ cell.SameShape cell'

theorem Sketch.keeps_sameShape : Sketch.outline.Keeps Cell.SameShape where
  ground _ _ h _ := ⟨h.symbol, h.inked⟩
  mark _ _ h := ⟨rfl, h.inked⟩
  symbol _ _ _ _ _ := ⟨rfl, rfl⟩

namespace Stroke

variable {stroke : Stroke} {strokes : List Stroke} {x y : Int} {columns : Nat} {cell : Cell}

def Colorless : Stroke → Prop
  | fill _ color => color = .reset
  | mark _ _ => True
  | write _ _ _ _ color => color = .reset

theorem colorless_cellAfter (hstroke : stroke.Colorless) (h : cell.Colorless) :
    (stroke.cellAfter columns x y cell).Colorless := by
  cases stroke with
  | fill region color =>
      obtain rfl : color = .reset := hstroke
      simp only [cellAfter]
      split
      · exact ⟨h.fg, .inr rfl⟩
      · exact h
  | mark block content =>
      simp only [cellAfter]
      split
      · exact ⟨h.fg, h.bg⟩
      · exact h
  | write row column width text color =>
      obtain rfl : color = .reset := hstroke
      simp only [cellAfter]
      split
      · exact ⟨.inr rfl, h.bg⟩
      · exact h

theorem colorless_foldl (hstrokes : ∀ stroke ∈ strokes, stroke.Colorless) :
    (strokes.foldl (cellAfter columns x y) {}).Colorless :=
  List.foldlRecOn (motive := Cell.Colorless) strokes _ ⟨.inl rfl, .inl rfl⟩
    fun _ hheld stroke hmem => colorless_cellAfter (hstrokes stroke hmem) hheld

end Stroke

namespace Tree

variable {look look' : Look} {tree : Tree} {x y width : Int}

theorem filterMap_outline_eq (hold : Int → Id Int)
    (hspacing : ∀ id ∈ tree.elements, look.spacing id = look'.spacing id)
    (hmarks : look.marksPadding = look'.marksPadding) (ground ground' : Option Terminal.Color)
    (ink ink' : Terminal.Color) :
    (heldStrokes hold look x y width ground ink tree).run.1.filterMap Sketch.outline.stroke? =
      (heldStrokes hold look' x y width ground' ink' tree).run.1.filterMap
        Sketch.outline.stroke? := by
  have hlook : Look.AgreeOn tree.elements (Sketch.outline.look look) (Sketch.outline.look look') :=
    ⟨hspacing, fun _ _ => rfl, hmarks⟩
  have houtline := heldStrokes_sketch Sketch.outline look hold x y width ground ink tree
  have houtline' := heldStrokes_sketch Sketch.outline look' hold x y width ground' ink' tree
  have hsame := heldStrokes_congr hold hlook x y width none .reset
  exact congrArg Prod.fst (houtline.symm.trans ((congrArg Id.run hsame).trans houtline'))

theorem sameShape_foldl (hold : Int → Id Int)
    (hspacing : ∀ id ∈ tree.elements, look.spacing id = look'.spacing id)
    (hmarks : look.marksPadding = look'.marksPadding) (ground ground' : Option Terminal.Color)
    (ink ink' : Terminal.Color) (columns : Nat) (column row : Int) :
    ((heldStrokes hold look x y width ground ink tree).run.1.foldl
        (Stroke.cellAfter columns column row) {}).SameShape
      ((heldStrokes hold look' x y width ground' ink' tree).run.1.foldl
        (Stroke.cellAfter columns column row) {}) := by
  have hshape := Sketch.keeps_sameShape.foldl ⟨rfl, rfl⟩
    (heldStrokes hold look x y width ground ink tree).run.1 columns column row
  have hshape' := Sketch.keeps_sameShape.foldl ⟨rfl, rfl⟩
    (heldStrokes hold look' x y width ground' ink' tree).run.1 columns column row
  rw [filterMap_outline_eq hold hspacing hmarks ground ground' ink ink'] at hshape
  exact hshape.trans hshape'.symm

end Tree

/-! ## Without colors -/

namespace Bounds

variable {hold : Int → Id Int} {bounds : Bounds} {stroke : Stroke}

theorem colorless_of_mem_fillings {color : Option Terminal.Color}
    (hcolor : color = none ∨ color = some .reset)
    (hmem : stroke ∈ (bounds.fillings hold color).run) : stroke.Colorless := by
  rcases hcolor with rfl | rfl
  · cases hmem
  · rw [List.mem_singleton.mp hmem]
    rfl

theorem colorless_of_mem_markings {content : Bounds} {marked : Bool}
    (hmem : stroke ∈ (bounds.markings hold content marked).run) : stroke.Colorless := by
  cases marked with
  | false => cases hmem
  | true =>
      rw [List.mem_singleton.mp hmem]
      trivial

end Bounds

namespace Tree

variable {look : Look}

mutual

theorem colorless_of_mem_heldStrokes (hold : Int → Id Int)
    (hcolors : ∀ id, look.colors id = ⟨.reset, none⟩) (x y width : Int)
    {ground : Option Terminal.Color} (hground : ground = none ∨ ground = some .reset)
    {tree : Tree} {stroke : Stroke}
    (hmem : stroke ∈ (heldStrokes hold look x y width ground .reset tree).run.1) :
    stroke.Colorless := by
  cases tree with
  | element id children =>
      simp only [run_heldStrokes_element, hcolors, Option.none_or, List.mem_append] at hmem
      rcases hmem with (hfill | hmark) | hbelow
      · exact Bounds.colorless_of_mem_fillings hground hfill
      · exact Bounds.colorless_of_mem_markings hmark
      · exact colorless_of_mem_heldStrokesAll hold hcolors _ _ _ hbelow
  | text id words =>
      rw [List.mem_singleton.mp hmem]
      rfl
  | missing id => cases hmem

theorem colorless_of_mem_heldStrokesAll (hold : Int → Id Int)
    (hcolors : ∀ id, look.colors id = ⟨.reset, none⟩) (x row width : Int)
    {trees : List Tree} {stroke : Stroke}
    (hmem : stroke ∈ (heldStrokesAll hold look x row width .reset trees).run.1) :
    stroke.Colorless := by
  cases trees with
  | nil => cases hmem
  | cons tree later =>
      simp only [run_heldStrokesAll_cons, List.mem_append] at hmem
      rcases hmem with hfirst | hlater
      · exact colorless_of_mem_heldStrokes hold hcolors x row width (.inl rfl) hfirst
      · exact colorless_of_mem_heldStrokesAll hold hcolors _ _ _ hlater

end

end Tree

namespace Renderer

theorem theme_of_monochrome {options : RenderOptions} {renderer : Renderer}
    (hrenderer : create options = .ok renderer) (hmonochrome : options.monochrome = true) :
    renderer.theme = .plain := by
  obtain ⟨theme, -, rfl⟩ := create_eq_ok_iff.mp hrenderer
  exact if_pos hmonochrome

theorem colors_of_monochrome {options : RenderOptions} {renderer : Renderer}
    (hrenderer : create options = .ok renderer) (hmonochrome : options.monochrome = true)
    (styles : ComputedStyles) (id : NodeId) :
    (renderer.look styles).colors id = ⟨.reset, none⟩ := by
  show renderer.mode.colors (styles.styleOf id) renderer.theme = _
  rw [mode_of_create hrenderer, theme_of_monochrome hrenderer hmonochrome, if_pos hmonochrome]
  rfl

theorem showBounds_of_create {options : RenderOptions} {renderer : Renderer}
    (hrenderer : create options = .ok renderer) : renderer.showBounds = options.showBounds := by
  obtain ⟨theme, -, rfl⟩ := create_eq_ok_iff.mp hrenderer
  rfl

theorem colorless_paintHeld (hold : Int → Int) {options : RenderOptions} {renderer : Renderer}
    (hrenderer : create options = .ok renderer) (hmonochrome : options.monochrome = true)
    (styles : ComputedStyles) (tree : Tree) (width height : Nat) :
    (renderer.paintHeld hold styles tree width height).Colorless := by
  have hharmless := (Canvas.printable_drawAll width height
    (renderer.strokesHeld hold styles tree width)).harmless
  refine hharmless.colorless fun x y cell hcell => ?_
  rw [Canvas.eq_foldl_of_cell?_drawAll hcell]
  refine Stroke.colorless_foldl fun stroke hmem => ?_
  rw [strokesHeld, theme_of_monochrome hrenderer hmonochrome] at hmem
  exact Tree.colorless_of_mem_heldStrokes _
    (colors_of_monochrome hrenderer hmonochrome styles) 0 0 width (.inr rfl) hmem

theorem metrics_eq_of_eq {style style' : Style} (hpadding : style.padding = style'.padding)
    (hmargin : max style.marginTop 0 = max style'.marginTop 0) :
    style.metrics = style'.metrics := by
  have htop : style.marginTop.toNat = style'.marginTop.toNat := by omega
  rw [Style.metrics, Style.metrics, hpadding, htop]

/-- One canvas is another one in other colors. If both are to be without, they are the
same, and there is none on them. -/
structure Recolors (options options' : RenderOptions) (canvas canvas' : Canvas) : Prop where
  shape : canvas.SameShape canvas'
  colorless : options.monochrome = true → options'.monochrome = true →
    canvas = canvas' ∧ canvas.Colorless

section Recoloring

variable {options options' : RenderOptions} {renderer renderer' : Renderer}
  {styles styles' : ComputedStyles} {tree : Tree}

theorem sameShape_paintHeld (hold : Int → Int)
    (hspacing : ∀ id ∈ tree.elements,
      (renderer.look styles).spacing id = (renderer'.look styles').spacing id)
    (hmarks : (renderer.look styles).marksPadding = (renderer'.look styles').marksPadding)
    (width height : Nat) :
    (renderer.paintHeld hold styles tree width height).SameShape
      (renderer'.paintHeld hold styles' tree width height) := by
  have hsize := sameSize_paintHeld hold renderer renderer' styles styles' tree width height
  refine ⟨hsize, fun x y cell hcell => ?_⟩
  obtain ⟨cell', hcell'⟩ := hsize.exists_cell hcell
  refine ⟨cell', hcell', ?_⟩
  rw [Canvas.eq_foldl_of_cell?_drawAll hcell, Canvas.eq_foldl_of_cell?_drawAll hcell']
  exact Tree.sameShape_foldl _ hspacing hmarks _ _ _ _ width x y

theorem paintHeld_congr (hold : Int → Int) (htheme : renderer.theme = renderer'.theme)
    (hlook : Look.AgreeOn tree.elements (renderer.look styles) (renderer'.look styles'))
    (width height : Nat) :
    renderer.paintHeld hold styles tree width height =
      renderer'.paintHeld hold styles' tree width height := by
  rw [paintHeld, paintHeld, strokesHeld, strokesHeld, htheme, Tree.heldStrokes_congr _ hlook]

theorem recolors_paintHeld (hold : Int → Int) (hrenderer : create options = .ok renderer)
    (hrenderer' : create options' = .ok renderer')
    (hspacing : ∀ id ∈ tree.elements,
      (renderer.look styles).spacing id = (renderer'.look styles').spacing id)
    (hmarks : (renderer.look styles).marksPadding = (renderer'.look styles').marksPadding)
    (width height : Nat) :
    Recolors options options' (renderer.paintHeld hold styles tree width height)
      (renderer'.paintHeld hold styles' tree width height) where
  shape := sameShape_paintHeld hold hspacing hmarks width height
  colorless hmonochrome hmonochrome' := by
    have hcolors := colors_of_monochrome hrenderer hmonochrome styles
    have hcolors' := colors_of_monochrome hrenderer' hmonochrome' styles'
    have htheme := (theme_of_monochrome hrenderer hmonochrome).trans
      (theme_of_monochrome hrenderer' hmonochrome').symm
    have hlook : Look.AgreeOn tree.elements (renderer.look styles) (renderer'.look styles') :=
      ⟨hspacing, fun id _ => (hcolors id).trans (hcolors' id).symm, hmarks⟩
    exact ⟨paintHeld_congr hold htheme hlook width height,
      colorless_paintHeld hold hrenderer hmonochrome styles tree width height⟩

end Recoloring

/-- Colors have no part in the layout: with the same spacing and whatever colors, themes
and color modes, the canvases are of one size and have the same symbols, in a color of
their own at the same places. If there are to be no colors, the canvases are the same, and
there is nothing on them or in what is sent for them other than the default colors. All
this holds whatever becomes of a sum that does not fit, and a build that stops there
stops in either case. -/
theorem render_recolored (number : Nat) (calls : List Document.Call) (root : NodeId)
    (styles styles' : ComputedStyles) (options options' : RenderOptions)
    (renderer renderer' : Renderer) (width : Nat)
    (hroot : ((Document.empty number).run calls).isElement root = true)
    (hspacing : ∀ id, ((Document.empty number).run calls).isElement id = true →
      root ∈ ((Document.empty number).run calls).inclusiveAncestors id →
        (styles.styleOf id).padding = (styles'.styleOf id).padding ∧
          max (styles.styleOf id).marginTop 0 = max (styles'.styleOf id).marginTop 0)
    (hrenderer : create options = .ok renderer) (hrenderer' : create options' = .ok renderer')
    (hbounds : options.showBounds = options'.showBounds) :
    let doc := (Document.empty number).run calls
    (∀ hold : Int → Int, ∃ output output',
      renderer.renderWith hold doc root styles width = .ok output ∧
        renderer'.renderWith hold doc root styles' width = .ok output' ∧
        Recolors options options' output.value output'.value) ∧
    ((width : Int) ≤ Region.lastCoordinate → ∀ output,
      renderer.renderChecked doc root styles width = some (.ok output) →
        ∃ output', renderer'.renderChecked doc root styles' width = some (.ok output') ∧
          Recolors options options' output.value output'.value) := by
  intro doc
  have hforest : doc.Forest := (Document.Forest.empty number).run calls
  have hbelow : ∀ id ∈ (doc.subtree root).elements,
      (renderer.look styles).spacing id = (renderer'.look styles').spacing id := by
    intro id hmem
    obtain ⟨hmem, hid⟩ := hforest.mem_elements_subtree hmem
    have habove := (hforest.mem_preorder_iff (Document.contains_of_isElement hid) root).mp hmem
    exact metrics_eq_of_eq (hspacing id hid habove).1 (hspacing id hid habove).2
  have hmarks : (renderer.look styles).marksPadding = (renderer'.look styles').marksPadding :=
    (showBounds_of_create hrenderer).trans (hbounds.trans (showBounds_of_create hrenderer').symm)
  have hrows (hold : Int → Int) : renderer.rowsHeld hold styles (doc.subtree root) =
      renderer'.rowsHeld hold styles' (doc.subtree root) :=
    congrArg Id.run (Tree.heldHeight_congr _ hbelow)
  have hheld (hold : Int → Int) : ∃ output output',
      renderer.renderWith hold doc root styles width = .ok output ∧
        renderer'.renderWith hold doc root styles' width = .ok output' ∧
        Recolors options options' output.value output'.value := by
    obtain ⟨records, hrender⟩ := exists_renderWith hold hroot renderer styles width
    obtain ⟨records', hrender'⟩ := exists_renderWith hold hroot renderer' styles' width
    rw [← hrows] at hrender'
    exact ⟨_, _, hrender, hrender',
      recolors_paintHeld hold hrenderer hrenderer' hbelow hmarks width _⟩
  refine ⟨hheld, fun hwidth output hchecked => ?_⟩
  obtain ⟨hfits, hrenders⟩ := (renderChecked_eq_some_iff hwidth).mp hchecked
  obtain ⟨records, hrenders'⟩ := exists_renders hroot renderer' styles' width
  have hneeded := hrows id
  rw [rowsHeld_id, rowsHeld_id] at hneeded
  have hfits' : renderer'.Fits doc root styles' width := ⟨hneeded ▸ hfits.1, hwidth⟩
  refine ⟨_, (renderChecked_eq_some_iff hwidth).mpr ⟨hfits', hrenders'⟩, ?_⟩
  -- both are what exact counts give
  obtain ⟨_, _, hexact, hexact', hboth⟩ := hheld id
  rw [hrenders.exactly] at hexact
  rw [hrenders'.exactly] at hexact'
  cases hexact
  cases hexact'
  exact hboth

/-- A red button without a ground and a blue ground under a button, in two themes and then
without colors. -/
theorem render_recolored_button :
    let doc := (Document.empty 0).run [.createButton "ok" none none]
    let root : NodeId := ⟨0, 0⟩
    let styles := ComputedStyles.empty.insert root
      { padding := 1, marginTop := -2, fg := some .red }
    let styles' := ComputedStyles.empty.insert root { padding := 1, bg := some .blue }
    let bright : Renderer := ⟨.light, .palette, false, false⟩
    let dark : Renderer := ⟨.dark, .palette, false, false⟩
    let bare : Renderer := ⟨.plain, .monochrome, false, false⟩
    doc.isElement root = true ∧ create { themeName := "light" } = .ok bright ∧
      create { themeName := "dark" } = .ok dark ∧
      create { themeName := "dark", monochrome := true } = .ok bare ∧
      (∃ output output', bright.render doc root styles 4 = .ok output ∧
        dark.render doc root styles' 4 = .ok output' ∧ output.value.SameShape output'.value) ∧
      ∃ output output', bare.render doc root styles 4 = .ok output ∧
        bare.render doc root styles' 4 = .ok output' ∧ output.value = output'.value ∧
        output.value.Colorless := by
  intro doc root styles styles' bright dark bare
  have hroot : doc.isElement root = true := by decide
  have hspacing : ∀ id, doc.isElement id = true → root ∈ doc.inclusiveAncestors id →
      (styles.styleOf id).padding = (styles'.styleOf id).padding ∧
        max (styles.styleOf id).marginTop 0 = max (styles'.styleOf id).marginTop 0 := by
    intro id _ _
    rw [ComputedStyles.styleOf, ComputedStyles.styleOf, ComputedStyles.get?_insert,
      ComputedStyles.get?_insert]
    by_cases hid : id = root
    · rw [if_pos hid, if_pos hid]
      decide
    · rw [if_neg hid, if_neg hid]
      exact ⟨rfl, rfl⟩
  have hbright : create { themeName := "light" } = .ok bright := by decide
  have hdark : create { themeName := "dark" } = .ok dark := by decide
  have hbare : create { themeName := "dark", monochrome := true } = .ok bare := by decide
  obtain ⟨output, output', hrender, hrender', hrecolors⟩ :=
    (render_recolored 0 [.createButton "ok" none none] root styles styles' _ _ bright dark 4 hroot
      hspacing hbright hdark rfl).1 Coordinate.wrap
  obtain ⟨shown, shown', hshown, hshown', hbared⟩ :=
    (render_recolored 0 [.createButton "ok" none none] root styles styles' _ _ bare bare 4 hroot
      hspacing hbare hbare rfl).1 Coordinate.wrap
  exact ⟨hroot, hbright, hdark, hbare, ⟨output, output', hrender, hrender', hrecolors.shape⟩,
    shown, shown', hshown, hshown', hbared.colorless rfl rfl⟩

end Renderer

end StyledTree
