import Mathlib.Algebra.GroupWithZero.Nat
import StyledTree.Renderer

/-!
# Layout in numbers of limited size

As long as the rows and columns of a layout can be held, holding each sum of them changes
nothing: every build measures and paints what the exact counts say. A build that checks
its sums has no other result than that.
-/

namespace StyledTree

/-- A relation between computations and the values that they should give. It goes on from
one step to the next, and it has every held number up to a limit give that number. -/
structure Reckons {m : Type → Type} [Monad m] (hold : Int → m Int) (limit : Int)
    (Gives : ∀ α : Type, m α → α → Prop) : Prop where
  pure : ∀ {α : Type} (value : α), Gives α (Pure.pure value) value
  bind : ∀ {α β : Type} {computation : m α} {value : α} {next : α → m β} {result : β},
    Gives α computation value → Gives β (next value) result →
      Gives β (computation >>= next) result
  hold : ∀ n, -limit ≤ n → n ≤ limit → Gives Int (hold n) n

/-- The columns and rows of a region and those right beyond it can be held. -/
structure Region.Within (region : Region) (limit : Int) : Prop where
  left : 0 ≤ region.x
  right : region.x + region.width ≤ limit
  top : 0 ≤ region.y
  bottom : region.y + region.height ≤ limit

theorem Tree.stackedHeight_le_blockHeight (spacing : Spacing) (id : NodeId)
    (children : List Tree) :
    stackedHeight spacing children + 2 * (spacing id).padding ≤
      blockHeight spacing id children := by
  cases children with
  | nil => simp [blockHeight, stackedHeight]
  | cons child later => simp [blockHeight, contentHeight]

theorem Tree.paintedHeight_le_outerHeight (look : Look) (tree : Tree) :
    tree.paintedHeight look ≤ tree.outerHeight look.spacing := by
  cases tree with
  | element id children => exact Nat.le_refl _
  | text id words => exact Nat.le_refl 1
  | missing id => exact Nat.zero_le 1

theorem Tree.inRange_of_heldHeight {spacing : Spacing} {tree : Tree} {rows : Int}
    (hrows : tree.heldHeight Coordinate.check spacing = some rows) : Coordinate.InRange rows := by
  cases tree with
  | element id children =>
      rw [heldHeight_element] at hrows
      obtain ⟨block, -, hsum⟩ := Option.bind_eq_some_iff.mp hrows
      obtain ⟨rfl, hrange⟩ := Coordinate.check_eq_some_iff.mp hsum
      exact hrange
  | text id words =>
      cases hrows
      decide
  | missing id =>
      cases hrows
      decide

namespace Reckons

theorem of_hold_eq {m : Type → Type} [Monad m] [LawfulMonad m] {hold : Int → m Int} {limit : Int}
    (hhold : ∀ n, -limit ≤ n → n ≤ limit → hold n = Pure.pure n) :
    Reckons hold limit fun _ computation value => computation = Pure.pure value where
  pure _ := rfl
  bind hfirst hnext := by rw [hfirst, pure_bind, hnext]
  hold := hhold

/-- A checked computation that gives a result gives the exact value, however large. -/
theorem of_check (limit : Int) :
    Reckons Coordinate.check limit fun _ computation value =>
      ∀ result, computation = some result → result = value where
  pure _ _ hresult := (Option.some.inj hresult).symm
  bind hfirst hnext := by
    intro result hresult
    obtain ⟨middle, hmiddle, hresult⟩ := Option.bind_eq_some_iff.mp hresult
    rw [hfirst middle hmiddle] at hresult
    exact hnext result hresult
  hold _ _ _ _ hresult := (Coordinate.check_eq_some_iff.mp hresult).1

variable {m : Type → Type} [Monad m] {hold : Int → m Int} {limit : Int}
  {Gives : ∀ α : Type, m α → α → Prop}

/-! ## Bounds -/

theorem visited (h : Reckons hold limit Gives) {region : Region} (hregion : region.Within limit) :
    Gives Region ((Bounds.ofRegion region).visited hold) region := by
  obtain ⟨x, y, width, height⟩ := region
  obtain ⟨hleft : 0 ≤ x, hright : x + width ≤ limit, htop : 0 ≤ y,
    hbottom : y + height ≤ limit⟩ := hregion
  refine h.bind (h.hold (y + height) (by omega) hbottom) ?_
  split
  case isTrue hrows =>
    have hrows : y < y + height := hrows
    have hwidth : (x + width - x).toNat = width := by omega
    have hheight : (y + height - y).toNat = height := by omega
    refine h.bind (h.hold (x + width) (by omega) hright) ?_
    simp only [Bounds.ofRegion, hwidth, hheight]
    exact h.pure _
  case isFalse hrows =>
    have hrows : ¬y < y + height := hrows
    obtain rfl : height = 0 := by omega
    exact h.pure _

theorem inset (h : Reckons hold limit Gives) {region : Region} (hregion : region.Within limit)
    {amount : Nat} (hamount : 2 * amount ≤ region.height) (hx : region.x + amount ≤ limit) :
    Gives Bounds ((Bounds.ofRegion region).inset hold amount)
      (.ofRegion (region.inset amount)) := by
  obtain ⟨hleft, hright, htop, hbottom⟩ := hregion
  have hdouble := h.hold (2 * amount) (by omega) (by omega)
  rw [Region.inset, ← Bounds.clamp_eq]
  refine h.bind (h.hold _ ?_ ?_) (h.bind (h.hold _ ?_ ?_) (h.bind hdouble
    (h.bind (h.hold _ ?_ ?_) (h.bind hdouble (h.bind (h.hold _ ?_ ?_) (h.pure _)))))) <;>
    simp only [Bounds.ofRegion] <;> omega

/-! ## Heights -/

theorem heldBlock_of_heldStack (h : Reckons hold limit Gives) {spacing : Spacing} {id : NodeId}
    {children : List Tree} (hrows : Tree.blockHeight spacing id children ≤ limit)
    (hstack : Gives Int (Tree.heldStack hold spacing 0 children)
      (0 + Tree.stackedHeight spacing children)) :
    Gives Int (Tree.heldBlock hold spacing id children)
      (Tree.blockHeight spacing id children) := by
  have hcontent : Gives Int
      (if children.isEmpty then Pure.pure 1 else Tree.heldStack hold spacing 0 children)
      (Tree.contentHeight spacing children) := by
    rw [Tree.contentHeight]
    split
    · exact h.pure 1
    · rwa [Int.zero_add] at hstack
  rw [Tree.blockHeight, Int.natCast_add] at hrows ⊢
  exact h.bind hcontent (h.bind (h.hold _ (by omega) (by omega)) (h.hold _ (by omega) hrows))

mutual

theorem heldHeight (h : Reckons hold limit Gives) (spacing : Spacing) {tree : Tree}
    (hrows : tree.outerHeight spacing ≤ limit) :
    Gives Int (tree.heldHeight hold spacing) (tree.outerHeight spacing) := by
  cases tree with
  | element id children =>
      rw [Tree.outerHeight_element, Int.natCast_add] at hrows ⊢
      have hstacked := Tree.stackedHeight_le_blockHeight spacing id children
      refine h.bind (h.heldBlock_of_heldStack (by omega) ?_) (h.hold _ (by omega) hrows)
      exact h.heldStack spacing (Int.le_refl 0) (by omega)
  | text id words => exact h.pure 1
  | missing id => exact h.pure 1

theorem heldStack (h : Reckons hold limit Gives) (spacing : Spacing) {counted : Int}
    {trees : List Tree} (hcounted : 0 ≤ counted)
    (hrows : counted + Tree.stackedHeight spacing trees ≤ limit) :
    Gives Int (Tree.heldStack hold spacing counted trees)
      (counted + Tree.stackedHeight spacing trees) := by
  cases trees with
  | nil =>
      rw [Tree.stackedHeight, Int.natCast_zero, Int.add_zero]
      exact h.pure counted
  | cons tree later =>
      rw [Tree.stackedHeight, Int.natCast_add, ← Int.add_assoc] at hrows ⊢
      exact h.bind (h.heldHeight spacing (by omega))
        (h.bind (h.hold _ (by omega) (by omega)) (h.heldStack spacing (by omega) hrows))

end

theorem heldBlock (h : Reckons hold limit Gives) {spacing : Spacing} {id : NodeId}
    {children : List Tree} (hrows : Tree.blockHeight spacing id children ≤ limit) :
    Gives Int (Tree.heldBlock hold spacing id children)
      (Tree.blockHeight spacing id children) := by
  have hstacked := Tree.stackedHeight_le_blockHeight spacing id children
  exact h.heldBlock_of_heldStack hrows (h.heldStack spacing (Int.le_refl 0) (by omega))

/-! ## Strokes -/

theorem fillings (h : Reckons hold limit Gives) {region : Region} (hregion : region.Within limit)
    (color : Option Terminal.Color) :
    Gives (List Stroke) ((Bounds.ofRegion region).fillings hold color)
      (color.map (Stroke.fill region)).toList := by
  cases color with
  | none => exact h.pure []
  | some color => exact h.bind (h.visited hregion) (h.pure _)

theorem markings (h : Reckons hold limit Gives) {region : Region} (hregion : region.Within limit)
    (content : Region) (marked : Bool) :
    Gives (List Stroke) ((Bounds.ofRegion region).markings hold (.ofRegion content) marked)
      (if marked then [Stroke.mark region content] else []) := by
  unfold Bounds.markings
  split
  · exact h.bind (h.visited hregion) (h.pure _)
  · exact h.pure []

/-- What is inside an element can be held as the element can, and its rows begin no further
up than its columns do to the left. -/
theorem within_content {spacing : Spacing} {x y : Int} {width : Nat} {id : NodeId}
    {children : List Tree} (hx : 0 ≤ x) (hxy : x ≤ y) (hright : x + width ≤ limit)
    (hbottom : y + Tree.outerHeight spacing (.element id children) ≤ limit) :
    let content := (Tree.block spacing x y width id children).inset (spacing id).padding
    (0 ≤ content.x ∧ content.x ≤ content.y) ∧ content.x + content.width ≤ limit ∧
      content.y + Tree.stackedHeight spacing children ≤ limit := by
  have hstacked := Tree.stackedHeight_le_blockHeight spacing id children
  rw [Tree.outerHeight_element, Int.natCast_add] at hbottom
  simp only [Tree.block, Region.inset, Region.ofBounds]
  omega

mutual

theorem heldStrokes (h : Reckons hold limit Gives) (look : Look) {x y : Int} {width : Nat}
    (hx : 0 ≤ x) (hxy : x ≤ y) (hright : x + width ≤ limit) (ground : Option Terminal.Color)
    (ink : Terminal.Color) {tree : Tree} (hbottom : y + tree.outerHeight look.spacing ≤ limit) :
    Gives (List Stroke × Int) (tree.heldStrokes hold look x y width ground ink)
      (tree.strokes look x y width ground ink, tree.paintedHeight look) := by
  cases tree with
  | element id children =>
      let block := Tree.block look.spacing x y width id children
      let content := block.inset (look.spacing id).padding
      obtain ⟨⟨hleft, hdiagonal⟩, hend, hlast⟩ : _ ∧ content.x + content.width ≤ limit ∧ _ :=
        within_content hx hxy hright hbottom
      have hstacked := Tree.stackedHeight_le_blockHeight look.spacing id children
      rw [Tree.outerHeight_element, Int.natCast_add] at hbottom
      have hblock : block.Within limit := ⟨hx, hright, by simp only [block, Tree.block]; omega,
        by simp only [block, Tree.block]; omega⟩
      have hclamp : Bounds.clamp x (y + (look.spacing id).marginTop) width
          (Tree.blockHeight look.spacing id children) = .ofRegion block := Bounds.clamp_eq ..
      have hstrokes : Tree.strokes look x y width ground ink (.element id children) =
          (((look.colors id).bg.or ground).map (Stroke.fill block)).toList ++
            (if look.marksPadding && decide (0 < (look.spacing id).padding) then
              [Stroke.mark block content] else []) ++
            Tree.strokesAll look content.x content.y content.width (look.colors id).fg
              children := by
        simp only [Bool.and_eq_true, decide_eq_true_eq]
        rfl
      refine h.bind (h.hold _ (by omega) (by omega)) (h.bind (h.heldBlock (by omega)) ?_)
      simp only [hclamp]
      refine h.bind (h.fillings hblock _) (h.bind (h.inset hblock ?_ ?_)
        (h.bind (h.markings hblock content _)
          (h.bind (h.heldStrokesAll look hleft hdiagonal hend (look.colors id).fg hlast)
            (h.bind (h.hold ((look.spacing id).marginTop + block.height) ?_ ?_) ?_))))
      case refine_5 =>
        rw [hstrokes, Tree.paintedHeight, Tree.outerHeight_element, Int.natCast_add]
        exact h.pure _
      all_goals
        simp only [block, Tree.block]
        omega
  | text id words => exact h.pure _
  | missing id => exact h.pure _

theorem heldStrokesAll (h : Reckons hold limit Gives) (look : Look) {x row : Int} {width : Nat}
    (hx : 0 ≤ x) (hxrow : x ≤ row) (hright : x + width ≤ limit) (ink : Terminal.Color)
    {trees : List Tree} (hbottom : row + Tree.stackedHeight look.spacing trees ≤ limit) :
    Gives (List Stroke × Int) (Tree.heldStrokesAll hold look x row width ink trees)
      (Tree.strokesAll look x row width ink trees,
        row + (trees.map (Tree.paintedHeight look)).sum) := by
  cases trees with
  | nil =>
      rw [List.map_nil, List.sum_nil, Int.natCast_zero, Int.add_zero]
      exact h.pure _
  | cons tree later =>
      have hpainted := Tree.paintedHeight_le_outerHeight look tree
      rw [Tree.stackedHeight, Int.natCast_add] at hbottom
      refine h.bind (h.heldStrokes look hx hxrow hright none ink (by omega))
        (h.bind (h.hold _ (by omega) (by omega))
          (h.bind (h.heldStrokesAll look hx (by omega) hright ink (by omega)) ?_))
      rw [List.map_cons, List.sum_cons, Int.natCast_add, ← Int.add_assoc]
      exact h.pure _

end

/-! ## Rendering -/

theorem renderHeld (h : Reckons hold limit Gives) (renderer : Renderer) {doc : Document}
    {root : NodeId} {element : Element} (helement : doc.element root = .ok element)
    (styles : ComputedStyles) {width : Nat} (hwidth : width ≤ limit)
    (hrows : (doc.subtree root).outerHeight (renderer.look styles).spacing ≤ limit) :
    let needed : Int := (doc.subtree root).outerHeight (renderer.look styles).spacing
    Gives (Except RenderError (Log.Logged Canvas))
      (renderer.renderHeld hold doc root styles width)
      (.ok ⟨renderer.paint styles (doc.subtree root) width (Renderer.rowsFor needed),
        renderer.records doc element styles needed⟩) := by
  unfold Renderer.renderHeld
  rw [helement]
  refine h.bind (h.heldHeight _ hrows) (h.bind (h.heldStrokes (renderer.look styles)
    (Int.le_refl 0) (Int.le_refl 0) ?_ _ _ ?_) (h.pure _))
  · rwa [Int.zero_add]
  · rwa [Int.zero_add]

end Reckons

end StyledTree
