import Mathlib.Data.List.Chain
import StyledTree.Text.Grapheme

/-!
# Clusters put side by side

Pieces of text that are put together and cut again come out as they were exactly if each of
them is one cluster and none takes in the character with which the next one begins. Next to
a character that takes no part in larger clusters, this depends on one character only.
-/

namespace StyledTree.Text

/-- The characters of the piece stay together. -/
def IsCluster (piece : List Char) : Prop := clusters piece = [piece]

/-- The second piece does not begin with a character that stays with the first one. -/
def Apart (piece next : List Char) : Prop :=
  ∀ c ∈ next.head?, Grapheme.joins piece.reverse c = false

theorem isCluster_singleton (c : Char) : IsCluster [c] := rfl

theorem isCluster_reverse_singleton (c : Char) : IsCluster [c].reverse := rfl

theorem IsCluster.ne_nil {piece : List Char} (h : IsCluster piece) : piece ≠ [] :=
  ne_nil_of_mem_clusters (by rw [h]; exact List.mem_singleton_self piece)

namespace Grapheme

theorem clustersFrom_append {cluster rest : List Char}
    (hone : clustersFrom cluster rest = [cluster.reverse ++ rest]) (text : List Char) :
    clustersFrom cluster (rest ++ text) = clustersFrom (rest.reverse ++ cluster) text := by
  induction rest generalizing cluster with
  | nil => rfl
  | cons c rest ih =>
      rw [clustersFrom] at hone
      split at hone
      case isTrue hjoins =>
        rw [List.cons_append, clustersFrom, if_pos hjoins, ih (by simpa using hone),
          List.reverse_cons, List.append_assoc]
        rfl
      case isFalse =>
        have hlength := congrArg List.length (List.cons.inj hone).1
        simp at hlength

theorem reverse_prefix_of_clustersFrom {cluster text piece : List Char}
    (h : piece ∈ (clustersFrom cluster text).head?) : cluster.reverse <+: piece := by
  fun_induction clustersFrom cluster text with
  | case1 => cases h
  | case2 cluster hne => exact Option.some.inj h ▸ List.prefix_rfl
  | case3 cluster next text hjoins ih =>
      rw [List.reverse_cons] at ih
      exact (List.prefix_append _ _).trans (ih h)
  | case4 cluster next text hjoins ih => exact Option.some.inj h ▸ List.prefix_rfl

end Grapheme

theorem IsCluster.clusters_append {piece : List Char} (h : IsCluster piece) (text : List Char) :
    clusters (piece ++ text) = Grapheme.clustersFrom piece.reverse text := by
  cases piece with
  | nil => exact absurd rfl h.ne_nil
  | cons c rest =>
      have hone : Grapheme.clustersFrom [c] rest = [[c].reverse ++ rest] := h
      rw [List.reverse_cons]
      exact Grapheme.clustersFrom_append hone text

theorem IsCluster.append_singleton {piece : List Char} (h : IsCluster piece) {c : Char}
    (hjoins : Grapheme.joins piece.reverse c = true) : IsCluster (piece ++ [c]) := by
  rw [IsCluster, h.clusters_append, Grapheme.clustersFrom, if_pos hjoins, Grapheme.clustersFrom,
    if_neg (by simp), List.reverse_cons, List.reverse_reverse]

theorem IsCluster.clusters_append_of_apart {piece text : List Char} (h : IsCluster piece)
    (hapart : Apart piece text) : clusters (piece ++ text) = piece :: clusters text := by
  rw [h.clusters_append]
  cases text with
  | nil => rw [Grapheme.clustersFrom, if_neg (by simpa using h.ne_nil), List.reverse_reverse]; rfl
  | cons c text =>
      rw [Grapheme.clustersFrom, if_neg (by rw [hapart c rfl]; decide), List.reverse_reverse]
      rfl

namespace Grapheme

/-- Each of the clusters that are found is one, and no two neighbors join. -/
theorem clustersFrom_spec {cluster : List Char} (hone : IsCluster cluster.reverse)
    (text : List Char) :
    (∀ piece ∈ clustersFrom cluster text, IsCluster piece) ∧
      (clustersFrom cluster text).IsChain Apart := by
  induction text generalizing cluster with
  | nil =>
      rw [clustersFrom, if_neg (by simpa using hone.ne_nil)]
      refine ⟨fun piece hmem => ?_, List.isChain_singleton _⟩
      rwa [List.mem_singleton.mp hmem]
  | cons c text ih =>
      rw [clustersFrom]
      split
      case isTrue hjoins =>
        apply ih
        rw [List.reverse_cons]
        exact hone.append_singleton (by rwa [List.reverse_reverse])
      case isFalse hjoins =>
        obtain ⟨hlater, hchain⟩ := ih (isCluster_reverse_singleton c)
        refine ⟨fun piece hmem => ?_, hchain.cons fun next hnext first hfirst => ?_⟩
        · rcases List.mem_cons.mp hmem with rfl | hmem
          · exact hone
          · exact hlater piece hmem
        · obtain ⟨rest, rfl⟩ := reverse_prefix_of_clustersFrom hnext
          obtain rfl : c = first := Option.some.inj hfirst
          rw [List.reverse_reverse]
          exact Bool.eq_false_iff.mpr hjoins

end Grapheme

theorem clusters_spec (text : List Char) :
    (∀ piece ∈ clusters text, IsCluster piece) ∧ (clusters text).IsChain Apart := by
  cases text with
  | nil => exact ⟨fun piece hmem => (by cases hmem), List.isChain_nil⟩
  | cons c text => exact Grapheme.clustersFrom_spec (isCluster_reverse_singleton c) text

/-- The clusters of a text are the pieces into which it can be cut such that each is a
cluster and no two neighbors join. -/
theorem clusters_eq_iff {text : List Char} {pieces : List (List Char)} :
    clusters text = pieces ↔
      pieces.flatten = text ∧ (∀ piece ∈ pieces, IsCluster piece) ∧ pieces.IsChain Apart := by
  constructor
  · rintro rfl
    exact ⟨flatten_clusters text, clusters_spec text⟩
  · rintro ⟨rfl, hpieces, hchain⟩
    induction pieces with
    | nil => rfl
    | cons piece later ih =>
        have hlater := fun other hmem => hpieces other (List.mem_cons_of_mem _ hmem)
        rw [List.flatten_cons, (hpieces piece List.mem_cons_self).clusters_append_of_apart,
          ih hlater (List.isChain_cons.mp hchain).2]
        intro c hc
        cases later with
        | nil => cases hc
        | cons next rest =>
            obtain ⟨first, others, rfl⟩ :=
              List.exists_cons_of_ne_nil (hlater next List.mem_cons_self).ne_nil
            exact (List.isChain_cons.mp hchain).1 (first :: others) rfl c hc

/-! ## Characters that stand alone -/

namespace Grapheme

/-- Whether a character stays with the one before it, whichever that is unless a control
character. -/
def attaches (c : Char) : Bool :=
  Break.ofChar c == .extend || Break.ofChar c == .joiner || Break.ofChar c == .spacing

/-- Whether the character after this one stays with it, unless it is a control character. -/
def prepends (c : Char) : Bool := Break.ofChar c == .prepend

/-- No rule about clusters speaks of the character. -/
structure Ordinary (c : Char) : Prop where
  kind : Break.ofChar c = .other
  pictograph : isPictograph c = false
  linker : isLinker c = false
  consonant : isConjunctConsonant c = false

theorem Break.attracts_other (kind : Break) : kind.attracts .other = (kind == .prepend) := by
  cases kind <;> rfl

theorem Break.other_attracts (kind : Break) :
    Break.other.attracts kind = (kind == .extend || kind == .joiner || kind == .spacing) := by
  cases kind <;> rfl

namespace Ordinary

variable {c : Char}

theorem joins_after (h : Ordinary c) (next : Char) : joins [c] next = attaches next := by
  have hmark : isConjunctMark c = false := by
    simp [isConjunctMark, isExtender, h.kind, h.linker]
  have hlinked : endsInLinkedConsonant [c] = false := by
    simp [endsInLinkedConsonant, hmark]
  have hjoined : endsInJoinedPictograph [c] = false := by
    simp [endsInJoinedPictograph, h.kind]
  have hflag : endsInHalfFlag [c] = false := by
    simp [endsInHalfFlag, h.kind]
  simp [joins, h.kind, Break.other_attracts, attaches, hlinked, hjoined, hflag]

theorem joins_before (h : Ordinary c) (last : Char) (before : List Char) :
    joins (last :: before) c = prepends last := by
  simp [joins, h.kind, h.consonant, h.pictograph, Break.attracts_other, prepends]

theorem prepends_eq_false (h : Ordinary c) : prepends c = false := by
  simp [prepends, h.kind]

theorem apart_after_iff (h : Ordinary c) (next : List Char) :
    Apart [c] next ↔ next.head?.any attaches = false := by
  cases next with
  | nil => simp [Apart]
  | cons first rest => simp [Apart, h.joins_after]

theorem apart_before_iff (h : Ordinary c) {piece : List Char} (hpiece : piece ≠ []) :
    Apart piece [c] ↔ piece.getLast?.any prepends = false := by
  rw [List.getLast?_eq_head?_reverse]
  obtain ⟨last, before, hreverse⟩ :=
    List.exists_cons_of_ne_nil (mt List.reverse_eq_nil_iff.mp hpiece)
  simp [Apart, hreverse, h.joins_before]

end Ordinary

theorem ordinary_space : Ordinary ' ' := ⟨by decide, by decide, by decide, by decide⟩

end Grapheme

end StyledTree.Text
