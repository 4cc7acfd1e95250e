import StyledTree.Proofs.Canvas.Harmless
import StyledTree.Proofs.Document.Growth
import StyledTree.Proofs.Rendering.Display
import StyledTree.Proofs.Text.Clusters

/-!
# Rendered rows as text

Read as text, a row of a rendered canvas is its symbols one after the other, each in the
column that the widths of the ones before it add up to. Cut into clusters again, it gives
these symbols, except where a symbol that begins with a mark stands next to a blank before
it, or one that ends in a prepended sign next to a blank behind it: there the two are read
as one.
-/

namespace StyledTree

open Text (IsCluster Apart clusters)

/-! ## Symbols with nothing between them -/

def glyphsOf (symbols : List String) : List (List Char) :=
  (symbols.filter (· ≠ "")).map String.toList

theorem glyphsOf_append (before after : List String) :
    glyphsOf (before ++ after) = glyphsOf before ++ glyphsOf after := by
  simp [glyphsOf]

theorem glyphsOf_cons_of_ne {symbol : String} (hsymbol : symbol ≠ "") (later : List String) :
    glyphsOf (symbol :: later) = symbol.toList :: glyphsOf later := by
  simp [glyphsOf, hsymbol]

theorem glyphsOf_cons_empty (later : List String) : glyphsOf ("" :: later) = glyphsOf later := rfl

theorem exists_symbol_of_mem_glyphsOf {symbols : List String} {glyph : List Char}
    (h : glyph ∈ glyphsOf symbols) :
    ∃ symbol ∈ symbols, symbol ≠ "" ∧ symbol.toList = glyph := by
  obtain ⟨symbol, hmem, rfl⟩ := List.mem_map.mp h
  obtain ⟨hmem, hne⟩ := List.mem_filter.mp hmem
  exact ⟨symbol, hmem, of_decide_eq_true hne, rfl⟩

theorem flatten_glyphsOf (symbols : List String) :
    (glyphsOf symbols).flatten = (String.join symbols).toList := by
  rw [String.toList_join]
  induction symbols with
  | nil => rfl
  | cons symbol later ih =>
      rw [List.flatMap_cons, ← ih]
      by_cases hempty : symbol = ""
      · rw [hempty, glyphsOf_cons_empty]
        rfl
      · rw [glyphsOf_cons_of_ne hempty, List.flatten_cons]

theorem glyphsOf_flatMap_cellSymbols {glyphs : List (List Char)}
    (hglyphs : ∀ glyph ∈ glyphs, glyph ≠ []) : glyphsOf (glyphs.flatMap cellSymbols) = glyphs := by
  induction glyphs with
  | nil => rfl
  | cons glyph later ih =>
      have hcells : glyphsOf (cellSymbols glyph) = [glyph] := by
        rw [cellSymbols_eq, glyphsOf_cons_of_ne (ofList_ne_empty (hglyphs glyph List.mem_cons_self)),
          String.toList_ofList]
        simp [glyphsOf]
      rw [List.flatMap_cons, glyphsOf_append, hcells,
        ih fun other hmem => hglyphs other (List.mem_cons_of_mem _ hmem)]
      rfl

namespace Tiled

variable {symbols : List String}

theorem lineWidth_glyphsOf (h : Tiled symbols) : lineWidth (glyphsOf symbols) = symbols.length := by
  induction h with
  | nil => rfl
  | @narrow symbol later one rest ih =>
      have hsymbol : symbol ≠ "" := symbolWidth_pos_iff.mp (by omega)
      rw [glyphsOf_cons_of_ne hsymbol, lineWidth_cons, displayWidth_toList hsymbol, one, ih,
        List.length_cons, Nat.add_comm]
  | @wide symbol later two rest ih =>
      have hsymbol : symbol ≠ "" := symbolWidth_pos_iff.mp (by omega)
      rw [glyphsOf_cons_of_ne hsymbol, glyphsOf_cons_empty, lineWidth_cons,
        displayWidth_toList hsymbol, two, ih, List.length_cons, List.length_cons, Nat.add_comm]

theorem getElem?_of_glyphsOf (h : Tiled symbols) {before after : List (List Char)}
    {glyph : List Char} (hsplit : glyphsOf symbols = before ++ glyph :: after) :
    symbols[lineWidth before]? = some (String.ofList glyph) := by
  induction h generalizing before with
  | nil => cases before <;> cases hsplit
  | @narrow symbol later one rest ih =>
      have hsymbol : symbol ≠ "" := symbolWidth_pos_iff.mp (by omega)
      rw [glyphsOf_cons_of_ne hsymbol] at hsplit
      cases before with
      | nil =>
          obtain ⟨rfl, -⟩ := List.cons.inj hsplit
          rw [String.ofList_toList]
          rfl
      | cons first before =>
          obtain ⟨rfl, hlater⟩ := List.cons.inj hsplit
          rw [lineWidth_cons, displayWidth_toList hsymbol, one, Nat.add_comm,
            List.getElem?_cons_succ]
          exact ih hlater
  | @wide symbol later two rest ih =>
      have hsymbol : symbol ≠ "" := symbolWidth_pos_iff.mp (by omega)
      rw [glyphsOf_cons_of_ne hsymbol, glyphsOf_cons_empty] at hsplit
      cases before with
      | nil =>
          obtain ⟨rfl, -⟩ := List.cons.inj hsplit
          rw [String.ofList_toList]
          rfl
      | cons first before =>
          obtain ⟨rfl, hlater⟩ := List.cons.inj hsplit
          rw [lineWidth_cons, displayWidth_toList hsymbol, two, Nat.add_comm,
            List.getElem?_cons_succ, List.getElem?_cons_succ]
          exact ih hlater

end Tiled

/-! ## Blanks between glyphs -/

/-- A blank or a mark, as shown where no text is; a blank may also belong to a text, or be
written in place of a control character. -/
def IsSpacer (glyph : List Char) : Prop := glyph = [' '] ∨ glyph = [paddingMark]

instance (glyph : List Char) : Decidable (IsSpacer glyph) :=
  inferInstanceAs (Decidable (_ ∨ _))

/-- Of two glyphs side by side, one is a spacer and the other a glyph that a reader takes
together with it. -/
def Merges (glyph next : List Char) : Prop :=
  (IsSpacer glyph ∧ next.head?.any Text.Grapheme.attaches = true) ∨
    IsSpacer next ∧ glyph.getLast?.any Text.Grapheme.prepends = true

instance (glyph next : List Char) : Decidable (Merges glyph next) :=
  inferInstanceAs (Decidable (_ ∨ _))

theorem IsSpacer.exists_ordinary {glyph : List Char} (h : IsSpacer glyph) :
    ∃ c, glyph = [c] ∧ Text.Grapheme.Ordinary c := by
  rcases h with rfl | rfl
  · exact ⟨' ', rfl, Text.Grapheme.ordinary_space⟩
  · exact ⟨paddingMark, rfl, by decide, by decide, by decide, by decide⟩

theorem Cell.Vacant.isSpacer {marks : Bool} {cell : Cell} (h : cell.Vacant marks) :
    IsSpacer cell.symbol.toList := by
  rcases h.symbol with hblank | ⟨-, hmark⟩
  · exact .inl (by rw [hblank]; rfl)
  · exact .inr (by rw [hmark, String.toList_singleton])

theorem IsSpacer.isCluster {glyph : List Char} (h : IsSpacer glyph) : IsCluster glyph := by
  obtain ⟨c, rfl, -⟩ := h.exists_ordinary
  exact Text.isCluster_singleton c

/-- A glyph takes in nothing of the next one, or one of the two is a spacer. -/
def Neighbors (glyph next : List Char) : Prop :=
  IsSpacer glyph ∨ IsSpacer next ∨ Apart glyph next

theorem Neighbors.apart_iff {glyph next : List Char} (h : Neighbors glyph next)
    (hglyph : glyph ≠ []) : Apart glyph next ↔ ¬Merges glyph next := by
  by_cases hspacer : IsSpacer glyph
  · obtain ⟨c, rfl, hordinary⟩ := hspacer.exists_ordinary
    simp [Merges, hordinary.apart_after_iff, hspacer, hordinary.prepends_eq_false]
  · by_cases hspacer' : IsSpacer next
    · obtain ⟨c, rfl, hordinary⟩ := hspacer'.exists_ordinary
      simp [Merges, hordinary.apart_before_iff hglyph, hspacer, hspacer']
    · have hapart := (h.resolve_left hspacer).resolve_left hspacer'
      simp [Merges, hspacer, hspacer', hapart]

theorem isCluster_of_mem_glyphs {text : String} {glyph : List Char} (h : glyph ∈ glyphs text) :
    IsCluster glyph := by
  obtain ⟨cluster, hcluster, rfl⟩ := List.mem_map.mp h
  split
  · exact Text.isCluster_singleton ' '
  · exact (Text.clusters_spec text.toList).1 cluster hcluster

theorem isChain_neighbors_glyphs (text : String) : (glyphs text).IsChain Neighbors := by
  refine List.isChain_map_of_isChain _ (fun cluster next hapart => ?_)
    (Text.clusters_spec text.toList).2
  by_cases hcontrol : Text.hasControl cluster = true
  · exact .inl (.inl (if_pos hcontrol))
  · by_cases hcontrol' : Text.hasControl next = true
    · exact .inr (.inl (.inl (if_pos hcontrol')))
    · rw [if_neg hcontrol, if_neg hcontrol']
      exact .inr (.inr hapart)

theorem isChain_neighbors_of_isSpacer {spacers : List (List Char)}
    (hspacers : ∀ glyph ∈ spacers, IsSpacer glyph) : spacers.IsChain Neighbors := by
  refine List.isChain_iff_forall_rel_of_append_cons_cons.mpr fun glyph next before after hsplit => ?_
  exact .inl (hspacers glyph (by rw [hsplit]; simp))

theorem isChain_neighbors_between {before glyphs after : List (List Char)}
    (hglyphs : glyphs.IsChain Neighbors) (hbefore : ∀ glyph ∈ before, IsSpacer glyph)
    (hafter : ∀ glyph ∈ after, IsSpacer glyph) :
    (before ++ glyphs ++ after).IsChain Neighbors := by
  refine ((isChain_neighbors_of_isSpacer hbefore).append hglyphs ?_).append
    (isChain_neighbors_of_isSpacer hafter) ?_
  · exact fun glyph hlast _ _ => .inl (hbefore glyph (List.mem_of_mem_getLast? hlast))
  · exact fun _ _ next hhead => .inr (.inl (hafter next (List.mem_of_mem_head? hhead)))

theorem clusters_flatten_iff {glyphs : List (List Char)}
    (hglyphs : ∀ glyph ∈ glyphs, IsCluster glyph) (hchain : glyphs.IsChain Neighbors) :
    clusters glyphs.flatten = glyphs ↔ glyphs.IsChain fun glyph next => ¬Merges glyph next := by
  have hapart : glyphs.IsChain Apart ↔ glyphs.IsChain fun glyph next => ¬Merges glyph next := by
    rw [List.isChain_iff_forall_rel_of_append_cons_cons] at hchain
    rw [List.isChain_iff_forall_rel_of_append_cons_cons,
      List.isChain_iff_forall_rel_of_append_cons_cons]
    have hpair {glyph next : List Char} {before after : List (List Char)}
        (hsplit : glyphs = before ++ glyph :: next :: after) :
        Apart glyph next ↔ ¬Merges glyph next :=
      (hchain hsplit).apart_iff (hglyphs glyph (by rw [hsplit]; simp)).ne_nil
    exact ⟨fun h _ _ _ _ hsplit => (hpair hsplit).mp (h hsplit),
      fun h _ _ _ _ hsplit => (hpair hsplit).mpr (h hsplit)⟩
  rw [Text.clusters_eq_iff, hapart]
  exact ⟨fun h => h.2.2, fun h => ⟨rfl, hglyphs, h⟩⟩

/-! ## Rows -/

theorem exists_append_append {α : Type} {all part : List α} {beside : α → Prop} (start : Nat)
    (hinside : ∀ i item, part[i]? = some item → all[start + i]? = some item)
    (houtside : ∀ i item, all[i]? = some item → i < start ∨ start + part.length ≤ i →
      beside item) :
    ∃ before after, all = before ++ part ++ after ∧
      (∀ item ∈ before, beside item) ∧ ∀ item ∈ after, beside item := by
  have hpart : (all.drop start).take part.length = part := by
    refine List.ext_getElem? fun i => ?_
    rw [List.getElem?_take, List.getElem?_drop]
    split
    case isTrue hi =>
      have hat := List.getElem?_eq_getElem hi
      rw [hinside i _ hat, hat]
    case isFalse hi => rw [List.getElem?_eq_none (Nat.le_of_not_lt hi)]
  refine ⟨all.take start, all.drop (start + part.length), ?_, fun item hmem => ?_,
    fun item hmem => ?_⟩
  · calc all
        = all.take start ++ ((all.drop start).take part.length ++
            (all.drop start).drop part.length) := by
          rw [List.take_append_drop, List.take_append_drop]
      _ = all.take start ++ part ++ all.drop (start + part.length) := by
          rw [hpart, List.drop_drop, List.append_assoc]
  · obtain ⟨i, hi⟩ := List.mem_iff_getElem?.mp hmem
    rw [List.getElem?_take] at hi
    split at hi
    case isTrue hlt => exact houtside i item hi (.inl hlt)
    case isFalse => cases hi
  · obtain ⟨i, hi⟩ := List.mem_iff_getElem?.mp hmem
    rw [List.getElem?_drop] at hi
    exact houtside _ item hi (.inr (Nat.le_add_right _ i))

namespace Canvas

def glyphsAt (canvas : Canvas) (y : Nat) : List (List Char) :=
  glyphsOf ((canvas.row y).map Cell.symbol)

/-- How a row reads as text. -/
structure ReadsBack (canvas : Canvas) (y : Nat) : Prop where
  text : (canvas.rowText y).toList = (canvas.glyphsAt y).flatten
  width : lineWidth (canvas.glyphsAt y) = canvas.width
  columns : ∀ before glyph after, canvas.glyphsAt y = before ++ glyph :: after →
    canvas.symbol? (lineWidth before) y = some (String.ofList glyph)
  clusters : clusters (canvas.rowText y).toList = canvas.glyphsAt y ↔
    (canvas.glyphsAt y).IsChain fun glyph next => ¬Merges glyph next

variable {canvas : Canvas} {marks : Bool} {left : Int} {symbols : List String}
  {ink : Terminal.Color} {y : Nat}

theorem Inscribed.exists_row (h : canvas.Inscribed marks y left symbols ink)
    (hy : y < canvas.height) :
    ∃ before after, (canvas.row y).map Cell.symbol = before ++ symbols ++ after ∧
      (∀ symbol ∈ before, IsSpacer symbol.toList) ∧ ∀ symbol ∈ after, IsSpacer symbol.toList := by
  obtain ⟨start, hleft⟩ : ∃ start : Nat, symbols ≠ [] → left = start := by
    by_cases hnone : symbols = []
    · exact ⟨0, fun hne => absurd hnone hne⟩
    · have hwithin := h.within hnone
      exact ⟨left.toNat, fun _ => by omega⟩
  refine exists_append_append start (fun i symbol hsymbol => ?_) fun x symbol hsymbol hx => ?_
  · obtain ⟨cell, hcell, rfl, -⟩ := h.exists_cell ⟨Int.natCast_nonneg y, by omega⟩ hsymbol
    rw [hleft (List.ne_nil_of_mem (List.mem_of_getElem? hsymbol))] at hcell
    rw [getElem?_symbols_row, symbol?, Int.natCast_add, hcell, Option.map_some]
  · rw [getElem?_symbols_row] at hsymbol
    obtain ⟨cell, hcell, rfl⟩ := Option.map_eq_some_iff.mp hsymbol
    refine (h.vacant x cell hcell ?_).isSpacer
    by_cases hnone : symbols = []
    · rw [hnone, List.length_nil]
      omega
    · rw [hleft hnone]
      omega

variable {shown : List (List Char)}

theorem Inscribed.exists_glyphsAt
    (h : canvas.Inscribed marks y left (shown.flatMap cellSymbols) ink)
    (hshown : ∀ glyph ∈ shown, glyph ≠ []) (hy : y < canvas.height) :
    ∃ before after, canvas.glyphsAt y = before ++ shown ++ after ∧
      (∀ glyph ∈ before, IsSpacer glyph) ∧ ∀ glyph ∈ after, IsSpacer glyph := by
  obtain ⟨before, after, hrow, hbefore, hafter⟩ := h.exists_row hy
  refine ⟨glyphsOf before, glyphsOf after, ?_, fun glyph hmem => ?_, fun glyph hmem => ?_⟩
  · rw [glyphsAt, hrow, glyphsOf_append, glyphsOf_append, glyphsOf_flatMap_cellSymbols hshown]
  · obtain ⟨symbol, hsymbol, -, rfl⟩ := exists_symbol_of_mem_glyphsOf hmem
    exact hbefore symbol hsymbol
  · obtain ⟨symbol, hsymbol, -, rfl⟩ := exists_symbol_of_mem_glyphsOf hmem
    exact hafter symbol hsymbol

theorem Inscribed.readsBack (h : canvas.Inscribed marks y left (shown.flatMap cellSymbols) ink)
    {text : String} (hshown : shown <+: glyphs text) (hwhole : canvas.Untorn)
    (hy : y < canvas.height) : canvas.ReadsBack y := by
  have htext : (canvas.rowText y).toList = (canvas.glyphsAt y).flatten := by
    rw [rowText_eq hy, symbolsOf, glyphsAt, flatten_glyphsOf]
  have htiled := hwhole.tiled_row y
  have hclusters : ∀ glyph ∈ shown, IsCluster glyph :=
    fun glyph hmem => isCluster_of_mem_glyphs (hshown.subset hmem)
  obtain ⟨before, after, hsplit, hbefore, hafter⟩ :=
    h.exists_glyphsAt (fun glyph hmem => (hclusters glyph hmem).ne_nil) hy
  constructor
  case text => exact htext
  case width => rw [glyphsAt, htiled.lineWidth_glyphsOf, List.length_map, length_row hy]
  case columns =>
    intro before glyph after hsplit
    rw [← getElem?_symbols_row]
    exact htiled.getElem?_of_glyphsOf hsplit
  case clusters =>
    rw [htext]
    refine clusters_flatten_iff (fun glyph hmem => ?_) ?_
    · rw [hsplit, List.mem_append, List.mem_append] at hmem
      rcases hmem with (hmem | hmem) | hmem
      · exact (hbefore glyph hmem).isCluster
      · exact hclusters glyph hmem
      · exact (hafter glyph hmem).isCluster
    · obtain ⟨cut, hcut⟩ := hshown
      have hneighbors : shown.IsChain Neighbors :=
        List.IsChain.left_of_append (hcut ▸ isChain_neighbors_glyphs text)
      rw [hsplit]
      exact isChain_neighbors_between hneighbors hbefore hafter

end Canvas

theorem Document.Forest.readsBack {doc : Document} (h : doc.Forest) (look : Look) {root : NodeId}
    (hroot : doc.isElement root = true) (width height : Nat) (ground : Option Terminal.Color)
    (ink : Terminal.Color) {y : Nat} :
    let canvas := (Canvas.blank width height).drawAll
      ((doc.subtree root).strokes look 0 0 width ground ink)
    y < canvas.height → canvas.ReadsBack y := by
  intro canvas hy
  have hwhole : canvas.Untorn := (h.lined look hroot width height ground ink).untorn
  by_cases hsome : ∃ owner id words,
      doc.Prints look.spacing (root, ⟨0, 0, width⟩) owner id words y
  · obtain ⟨owner, id, words, hprints⟩ := hsome
    exact (h.inscribed_of_prints look hroot width height ground ink hprints).readsBack
      (fitting_initial _ _) hwhole hy
  · have hinscribed : canvas.Inscribed look.marksPadding y 0
        (([] : List (List Char)).flatMap cellSymbols) ink :=
      h.inscribed_of_not_prints look hroot width height ground ink
        fun owner id words hprints => hsome ⟨owner, id, words, hprints⟩
    have hnothing : [] <+: glyphs "" := List.nil_prefix
    exact hinscribed.readsBack hnothing hwhole hy

namespace Renderer

/-- How the rows of a rendered canvas read as text, for every document that calls can lead
to. A build that checks its sums returns no other canvas; one that does not returns this
one as long as all sums fit. -/
theorem render_reads_back (number : Nat) (calls : List Document.Call) (root : NodeId)
    (styles : ComputedStyles) (renderer : Renderer) (width : Nat)
    (hroot : ((Document.empty number).run calls).isElement root = true) :
    ∃ output, renderer.Renders ((Document.empty number).run calls) root styles width output ∧
      output.value.width = width ∧ ∀ y < output.value.height, output.value.ReadsBack y := by
  have hforest : ((Document.empty number).run calls).Forest :=
    (Document.Forest.empty number).run calls
  obtain ⟨records, hrenders⟩ := exists_renders hroot renderer styles width
  exact ⟨_, hrenders, (renderer.sameSize_paint styles _ width _).1,
    fun y hy => hforest.readsBack (renderer.look styles) hroot width _ _ _ hy⟩

/-- A combining mark that stays with its letter, and a line break that is shown as a blank
before a wide glyph. -/
theorem render_reads_back_button :
    let doc := (Document.empty 0).run [.createButton "e\u0301\n\u65e5" none none]
    let root : NodeId := ⟨0, 0⟩
    let renderer : Renderer := ⟨.plain, .palette, false, false⟩
    doc.isElement root = true ∧ ∃ output, renderer.render doc root .empty 5 = .ok output ∧
      clusters (output.value.rowText 0).toList =
        [['e', '\u0301'], [' '], ['\u65e5'], [' ']] := by
  intro doc root renderer
  have hroot : doc.isElement root = true := by decide
  obtain ⟨output, hrenders, -, hback⟩ :=
    render_reads_back 0 [.createButton "e\u0301\n\u65e5" none none] root .empty renderer 5 hroot
  have hrender := (hrenders.fits (by decide +kernel)).1
  have hheight : output.value.height = 1 := read_of_render hrender Canvas.height (by decide +kernel)
  have hglyphs : output.value.glyphsAt 0 = [['e', '\u0301'], [' '], ['\u65e5'], [' ']] :=
    read_of_render hrender (Canvas.glyphsAt · 0) (by decide +kernel)
  refine ⟨hroot, output, hrender, ?_⟩
  rw [← hglyphs]
  refine (hback 0 (by rw [hheight]; exact Nat.one_pos)).clusters.mpr ?_
  rw [hglyphs]
  decide +kernel

/-- A mark without a letter joins the padding before it, so that a column is lost. -/
theorem clusters_rowText_ne_glyphsAt_mark :
    let doc := (Document.empty 0).run [.createButton "\u0301" none none]
    let root : NodeId := ⟨0, 0⟩
    let styles := ComputedStyles.empty.insert root { padding := 1 }
    let renderer : Renderer := ⟨.plain, .palette, false, false⟩
    ∃ output, renderer.render doc root styles 3 = .ok output ∧
      clusters (output.value.rowText 1).toList ≠ output.value.glyphsAt 1 ∧
      lineWidth (clusters (output.value.rowText 1).toList) ≠ output.value.width := by
  intro doc root styles renderer
  have hroot : doc.isElement root = true := by decide
  obtain ⟨output, hrender⟩ : ∃ output, renderer.render doc root styles 3 = .ok output := by
    obtain ⟨records, hrender⟩ := exists_renderWith Coordinate.wrap hroot renderer styles 3
    exact ⟨_, hrender⟩
  have hclusters : clusters (output.value.rowText 1).toList = [[' ', '\u0301'], [' ']] :=
    read_of_render hrender (fun canvas => clusters (canvas.rowText 1).toList) (by decide +kernel)
  have hglyphs : output.value.glyphsAt 1 = [[' '], ['\u0301'], [' ']] :=
    read_of_render hrender (Canvas.glyphsAt · 1) (by decide +kernel)
  have hwidth : output.value.width = 3 := read_of_render hrender Canvas.width (by decide +kernel)
  refine ⟨output, hrender, ?_⟩
  rw [hclusters, hglyphs, hwidth]
  decide

end Renderer

end StyledTree
