import StyledTree.Proofs.Cascade.Coverage
import StyledTree.Proofs.Rendering.Outcome

/-!
# Rendering reads the styles of its subtree

To measure and to paint an element, only the looks of the elements at and below it are
needed, also where sums do not fit. So styles that agree on these give the same canvas,
whatever else they hold: styles computed from further up do not differ from styles computed
right here, and those of another document, whose handles are all different, count for
nothing.
-/

namespace StyledTree

namespace Tree

mutual

def elements : Tree → List NodeId
  | element id children => id :: elementsAll children
  | text _ _ => []
  | missing _ => []

def elementsAll : List Tree → List NodeId
  | [] => []
  | tree :: later => elements tree ++ elementsAll later

end

theorem elementsAll_eq_flatMap (trees : List Tree) :
    elementsAll trees = trees.flatMap elements := by
  induction trees with
  | nil => rfl
  | cons tree later ih => rw [elementsAll, ih, List.flatMap_cons]

end Tree

theorem Document.Forest.mem_elements_subtree {doc : Document} (h : doc.Forest) {root id : NodeId}
    (hmem : id ∈ (doc.subtree root).elements) :
    id ∈ doc.preorder root ∧ doc.isElement id = true := by
  induction root using h.descend with
  | hstep root ih =>
      by_cases hroot : doc.isElement root = true
      · rw [h.subtree_of_isElement hroot, Tree.elements, Tree.elementsAll_eq_flatMap,
          List.flatMap_map] at hmem
        rcases List.mem_cons.mp hmem with rfl | hbelow
        · exact ⟨h.mem_preorder_self id, hroot⟩
        · obtain ⟨child, hchild, hmem⟩ := List.mem_flatMap.mp hbelow
          obtain ⟨hid, helement⟩ := ih child hchild hmem
          rw [h.preorder_eq root]
          exact ⟨List.mem_cons_of_mem _ (List.mem_flatMap.mpr ⟨child, hchild, hid⟩), helement⟩
      · by_cases howned : doc.contains root = true
        · obtain ⟨words, htext⟩ := h.subtree_of_not_isElement howned hroot
          rw [htext] at hmem
          cases hmem
        · rw [Document.subtree, Document.Forest.treeWithin_of_not_contains howned] at hmem
          cases hmem

/-- Two looks are the same for some elements. -/
structure Look.AgreeOn (ids : List NodeId) (look look' : Look) : Prop where
  spacing : ∀ id ∈ ids, look.spacing id = look'.spacing id
  colors : ∀ id ∈ ids, look.colors id = look'.colors id
  marks : look.marksPadding = look'.marksPadding

namespace Tree

variable {m : Type → Type} [Monad m] (hold : Int → m Int)

/-! ## Measuring -/

section Spacing

variable {spacing spacing' : Spacing}

theorem heldBlock_congr {id : NodeId} {children : List Tree}
    (hself : spacing id = spacing' id)
    (hstack : heldStack hold spacing 0 children = heldStack hold spacing' 0 children) :
    heldBlock hold spacing id children = heldBlock hold spacing' id children := by
  rw [heldBlock, heldBlock, hself, hstack]

mutual

theorem heldHeight_congr {tree : Tree} (hsame : ∀ id ∈ tree.elements, spacing id = spacing' id) :
    heldHeight hold spacing tree = heldHeight hold spacing' tree := by
  cases tree with
  | element id children =>
      have hself : spacing id = spacing' id := hsame id List.mem_cons_self
      have hstack := heldStack_congr 0 fun other hmem => hsame other (List.mem_cons_of_mem _ hmem)
      rw [heldHeight_element, heldHeight_element, heldBlock_congr hold hself hstack, hself]
  | text id words => rfl
  | missing id => rfl

theorem heldStack_congr (counted : Int) {trees : List Tree}
    (hsame : ∀ id ∈ elementsAll trees, spacing id = spacing' id) :
    heldStack hold spacing counted trees = heldStack hold spacing' counted trees := by
  cases trees with
  | nil => rfl
  | cons tree later =>
      have hfirst := heldHeight_congr fun other hmem => hsame other (List.mem_append_left _ hmem)
      have hlater counted := heldStack_congr counted fun other hmem =>
        hsame other (List.mem_append_right _ hmem)
      simp only [heldStack, hfirst, hlater]

end

end Spacing

/-! ## Painting -/

section Look

variable {look look' : Look}

mutual

theorem heldStrokes_congr {tree : Tree} (hlook : Look.AgreeOn tree.elements look look')
    (x y width : Int) (ground : Option Terminal.Color) (ink : Terminal.Color) :
    heldStrokes hold look x y width ground ink tree =
      heldStrokes hold look' x y width ground ink tree := by
  cases tree with
  | element id children =>
      have hself := List.mem_cons_self (a := id) (l := elementsAll children)
      have hbelow : Look.AgreeOn (elementsAll children) look look' :=
        ⟨fun other hmem => hlook.spacing other (List.mem_cons_of_mem _ hmem),
          fun other hmem => hlook.colors other (List.mem_cons_of_mem _ hmem), hlook.marks⟩
      have hblock := heldBlock_congr hold (hlook.spacing id hself)
        (heldStack_congr hold 0 hbelow.spacing)
      have hchildren x row width ink := heldStrokesAll_congr hbelow x row width ink
      simp only [heldStrokes, hlook.spacing id hself, hlook.colors id hself, hlook.marks, hblock,
        hchildren]
  | text id words => rfl
  | missing id => rfl

theorem heldStrokesAll_congr {trees : List Tree}
    (hlook : Look.AgreeOn (elementsAll trees) look look') (x row width : Int)
    (ink : Terminal.Color) :
    heldStrokesAll hold look x row width ink trees =
      heldStrokesAll hold look' x row width ink trees := by
  cases trees with
  | nil => rfl
  | cons tree later =>
      have hfirst := heldStrokes_congr
        ⟨fun other hmem => hlook.spacing other (List.mem_append_left _ hmem),
          fun other hmem => hlook.colors other (List.mem_append_left _ hmem), hlook.marks⟩
        x row width none ink
      have hlater next := heldStrokesAll_congr
        ⟨fun other hmem => hlook.spacing other (List.mem_append_right _ hmem),
          fun other hmem => hlook.colors other (List.mem_append_right _ hmem), hlook.marks⟩
        x next width ink
      simp only [heldStrokesAll, hfirst, hlater]

end

end Look

end Tree

namespace Document

variable {doc : Document}

/-! ## Computed styles -/

theorem Covered.styleOf_eq {root id : NodeId} {sheet : StyleSheet} {styles : ComputedStyles}
    {element : Element} (h : doc.Covered root sheet styles)
    (helement : doc.element? id = some element) (hbelow : root ∈ doc.inclusiveAncestors id) :
    styles.styleOf id = sheet.computeStyle element := by
  rw [ComputedStyles.styleOf, h.get?_eq helement hbelow, Option.getD_some]

theorem Covered.styleOf_eq_unset {root id : NodeId} {sheet : StyleSheet} {styles : ComputedStyles}
    (h : doc.Covered root sheet styles) (hid : doc.contains id = false) :
    styles.styleOf id = .unset := by
  have hnone : styles.contains id = false := by
    rw [Bool.eq_false_iff]
    intro hcontains
    simp [contains_of_isElement ((h.contains id).mp hcontains).1] at hid
  rw [ComputedStyles.contains, Option.isSome_eq_false_iff, Option.isNone_iff_eq_none] at hnone
  rw [ComputedStyles.styleOf, hnone, Option.getD_none]

end Document

namespace Renderer

/-- Both sets of styles lead to the same canvas, whatever becomes of a sum that does not fit.
A build that checks its sums stops with both or with neither. -/
structure RendersAlike (renderer : Renderer) (doc : Document) (root : NodeId) (width : Nat)
    (styles styles' : ComputedStyles) : Prop where
  held : ∀ hold : Int → Int, ∃ output output',
    renderer.renderWith hold doc root styles width = .ok output ∧
      renderer.renderWith hold doc root styles' width = .ok output' ∧ output.value = output'.value
  checked : (renderer.renderChecked doc root styles width).map (Except.map Log.Logged.value) =
    (renderer.renderChecked doc root styles' width).map (Except.map Log.Logged.value)

theorem map_value_renderHeld {m : Type → Type} [Monad m] [LawfulMonad m] (hold : Int → m Int)
    (renderer : Renderer) {doc : Document} {root : NodeId} {element : Element}
    (helement : doc.element root = .ok element) (styles : ComputedStyles) (width : Nat) :
    Except.map Log.Logged.value <$> renderer.renderHeld hold doc root styles width = do
      let needed ← (doc.subtree root).heldHeight hold (renderer.look styles).spacing
      let (strokes, _) ← (doc.subtree root).heldStrokes hold (renderer.look styles) 0 0 width
        (some renderer.theme.background) renderer.theme.foreground
      return .ok ((Canvas.blank width (rowsFor needed)).drawAll strokes) := by
  simp only [renderHeld, helement, map_bind, map_pure]
  rfl

theorem map_value_renderHeld_congr {m : Type → Type} [Monad m] [LawfulMonad m]
    (hold : Int → m Int) (renderer : Renderer) {doc : Document} {root : NodeId} {element : Element}
    (helement : doc.element root = .ok element) {styles styles' : ComputedStyles}
    (hlook : Look.AgreeOn (doc.subtree root).elements (renderer.look styles)
      (renderer.look styles')) (width : Nat) :
    Except.map Log.Logged.value <$> renderer.renderHeld hold doc root styles width =
      Except.map Log.Logged.value <$> renderer.renderHeld hold doc root styles' width := by
  rw [map_value_renderHeld hold renderer helement, map_value_renderHeld hold renderer helement,
    Tree.heldHeight_congr hold hlook.spacing, Tree.heldStrokes_congr hold hlook]

theorem rendersAlike_of_styleOf_eq {doc : Document} (h : doc.Forest) {root : NodeId}
    (hroot : doc.isElement root = true) (renderer : Renderer) (width : Nat)
    {styles styles' : ComputedStyles}
    (hsame : ∀ id, doc.isElement id = true → root ∈ doc.inclusiveAncestors id →
      styles.styleOf id = styles'.styleOf id) :
    renderer.RendersAlike doc root width styles styles' := by
  have hbelow : ∀ id ∈ (doc.subtree root).elements, styles.styleOf id = styles'.styleOf id := by
    intro id hmem
    obtain ⟨hmem, hid⟩ := h.mem_elements_subtree hmem
    exact hsame id hid ((h.mem_preorder_iff (Document.contains_of_isElement hid) root).mp hmem)
  have hlook : Look.AgreeOn (doc.subtree root).elements (renderer.look styles)
      (renderer.look styles') :=
    ⟨fun id hmem => congrArg Style.metrics (hbelow id hmem),
      fun id hmem => congrArg (renderer.mode.colors · renderer.theme) (hbelow id hmem), rfl⟩
  obtain ⟨element, hfound⟩ := (Document.isElement_iff doc root).mp hroot
  have helement := (Document.element_eq_ok_iff doc root element).mpr hfound
  constructor
  case checked => exact map_value_renderHeld_congr Coordinate.check renderer helement hlook width
  case held =>
    intro hold
    obtain ⟨records, hrender⟩ := exists_renderWith hold hroot renderer styles width
    obtain ⟨records', hrender'⟩ := exists_renderWith hold hroot renderer styles' width
    refine ⟨_, _, hrender, hrender', ?_⟩
    have hvalue : Except.map Log.Logged.value (renderer.renderWith hold doc root styles width) =
        Except.map Log.Logged.value (renderer.renderWith hold doc root styles' width) :=
      map_value_renderHeld_congr (m := Id) (fun n => pure (hold n)) renderer helement hlook width
    rw [hrender, hrender'] at hvalue
    exact Except.ok.inj hvalue

/-- Of the computed styles, rendering an element uses those of the elements at and below it
only. So it makes no difference from how far up they were computed, and styles computed
from another document do as much as none. -/
theorem render_reads_below (number : Nat) (calls : List Document.Call) (root : NodeId)
    (renderer : Renderer) (width : Nat)
    (hroot : ((Document.empty number).run calls).isElement root = true) :
    let doc := (Document.empty number).run calls
    (∀ styles styles' : ComputedStyles,
      (∀ id, doc.isElement id = true → root ∈ doc.inclusiveAncestors id →
        styles.styleOf id = styles'.styleOf id) →
      renderer.RendersAlike doc root width styles styles') ∧
    (∀ (sheet : StyleSheet) (top : NodeId), top ∈ doc.inclusiveAncestors root →
      ∃ wide narrow, doc.computeStyles top sheet = .ok wide ∧
        doc.computeStyles root sheet = .ok narrow ∧
        renderer.RendersAlike doc root width wide.value narrow.value) ∧
    ∀ (number' : Nat) (calls' : List Document.Call) (root' : NodeId) (sheet : StyleSheet)
      (foreign : Log.Logged ComputedStyles), number' ≠ number →
      ((Document.empty number').run calls').computeStyles root' sheet = .ok foreign →
        renderer.RendersAlike doc root width foreign.value .empty := by
  intro doc
  have hforest : doc.Forest := (Document.Forest.empty number).run calls
  refine ⟨?_, ?_, ?_⟩
  · intro styles styles' hsame
    exact rendersAlike_of_styleOf_eq hforest hroot renderer width hsame
  · intro sheet top htop
    have howned := Document.contains_of_isElement hroot
    have htopElement := hforest.isElement_of_mem_inclusiveAncestors hroot htop
    obtain ⟨records, hwide⟩ := Document.computeStyles_eq_ok htopElement sheet
    obtain ⟨records', hnarrow⟩ := Document.computeStyles_eq_ok hroot sheet
    refine ⟨_, _, hwide, hnarrow, rendersAlike_of_styleOf_eq hforest hroot renderer width ?_⟩
    intro id hid hbelow
    obtain ⟨element, helement⟩ := (Document.isElement_iff doc id).mp hid
    have habove : top ∈ doc.inclusiveAncestors id :=
      (hforest.suffix_of_mem (Document.contains_of_isElement hid) hbelow).subset htop
    rw [(hforest.covered htopElement sheet).styleOf_eq helement habove,
      (hforest.covered hroot sheet).styleOf_eq helement hbelow]
  · intro number' calls' root' sheet foreign hnumber hcompute
    have hforest' := (Document.Forest.empty number').run calls'
    refine rendersAlike_of_styleOf_eq hforest hroot renderer width fun id hid _ => ?_
    have hhere : id.document = number := by
      rw [((Document.contains_iff doc id).mp (Document.contains_of_isElement hid)).1]
      exact Document.number_run (Document.empty number) calls
    refine (hforest'.covered_of_computeStyles hcompute).styleOf_eq_unset ?_
    rw [Bool.eq_false_iff, ne_eq, Document.contains_iff, Document.number_run]
    rintro ⟨hthere, -⟩
    exact hnumber (hthere.symm.trans hhere)

/-- A button in a menu, and one with a handle of the same index in another document. -/
theorem render_reads_below_button :
    let doc := (Document.empty 0).run
      [.createDiv none none, .createButton "ok" none none, .add ⟨0, 0⟩ [⟨0, 1⟩]]
    let other := (Document.empty 1).run [.createDiv none none, .createButton "ok" none none]
    let menu : NodeId := ⟨0, 0⟩
    let button : NodeId := ⟨0, 1⟩
    let sheet := StyleSheet.empty.push { typeName := some "button" } { padding := 1 }
    let renderer : Renderer := ⟨.dark, .palette, true, false⟩
    doc.isElement button = true ∧
      renderer.RendersAlike doc button 9 (ComputedStyles.empty.insert menu { padding := 2 }) .empty ∧
      (∃ wide narrow, doc.computeStyles menu sheet = .ok wide ∧
        doc.computeStyles button sheet = .ok narrow ∧
        renderer.RendersAlike doc button 9 wide.value narrow.value) ∧
      ∃ foreign, other.computeStyles ⟨1, 1⟩ sheet = .ok foreign ∧
        renderer.RendersAlike doc button 9 foreign.value .empty := by
  intro doc other menu button sheet renderer
  have hbutton : doc.isElement button = true := by decide
  obtain ⟨hsame, hcomputed, hforeign⟩ := render_reads_below 0
    [.createDiv none none, .createButton "ok" none none, .add ⟨0, 0⟩ [⟨0, 1⟩]] button renderer 9
    hbutton
  refine ⟨hbutton, hsame _ _ ?_, hcomputed sheet menu (by decide), ?_⟩
  · intro id _ hbelow
    have hother : id ≠ menu := by
      rintro rfl
      exact absurd hbelow (by decide)
    rw [ComputedStyles.styleOf, ComputedStyles.get?_insert, if_neg hother]
    rfl
  · obtain ⟨records, hcompute⟩ :=
      Document.computeStyles_eq_ok (show other.isElement ⟨1, 1⟩ = true by decide) sheet
    exact ⟨_, hcompute, hforeign 1 _ ⟨1, 1⟩ sheet _ (by decide) hcompute⟩

end Renderer

end StyledTree
