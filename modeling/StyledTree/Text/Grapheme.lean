import StyledTree.Text.Grapheme.Table

/-!
# Grapheme clusters

Text is shown in clusters, each of which a reader takes for one character: a
letter with its accents, a flag, a family of emoji. `clusters` cuts a text into
its extended grapheme clusters. Nothing is lost (`flatten_clusters`) and no
cluster is empty (`ne_nil_of_mem_clusters`).
-/

namespace StyledTree.Text

namespace Grapheme

/-- The part that a character plays at the boundaries of clusters. -/
inductive Break where
  | carriageReturn
  | lineFeed
  | control
  | extend
  | joiner
  | regional
  | prepend
  | spacing
  | leading
  | vowel
  | trailing
  | openSyllable
  | closedSyllable
  | other
deriving Repr, DecidableEq

/-- The first Hangul syllable; they are ordered by their leading letter and
vowel, and each such pair takes `syllableBlock` code points. -/
def firstSyllable : Nat := 0xAC00

def lastSyllable : Nat := 0xD7A3

/-- Syllables with one leading letter and vowel: one without a trailing letter
and one for each of those letters. -/
def syllableBlock : Nat := 28

/-- The part of a Hangul syllable, by whether a trailing letter closes it. -/
def Break.ofSyllable (code : Nat) : Break :=
  if (code - firstSyllable) % syllableBlock = 0 then .openSyllable else .closedSyllable

def Break.ofChar (c : Char) : Break :=
  let code := c.toNat
  if code = 0xD then .carriageReturn
  else if code = 0xA then .lineFeed
  else if controls.holds code then .control
  else if code < 0x80 then .other
  else if code = 0x200D then .joiner
  else if 0x1F1E6 ≤ code ∧ code ≤ 0x1F1FF then .regional
  else if firstSyllable ≤ code ∧ code ≤ lastSyllable then .ofSyllable code
  else if leadingJamo.holds code then .leading
  else if vowelJamo.holds code then .vowel
  else if trailingJamo.holds code then .trailing
  else if extenders.holds code then .extend
  else if spacingMarks.holds code then .spacing
  else if prepended.holds code then .prepend
  else .other

def isExtender (c : Char) : Bool := Break.ofChar c == .extend

def isPictograph (c : Char) : Bool := pictographs.holds c.toNat

def isLinker (c : Char) : Bool := conjunctLinkers.holds c.toNat

def isConjunctConsonant (c : Char) : Bool := conjunctConsonants.holds c.toNat

/-- The non-joiner, which keeps consonants from forming a conjunct. -/
def nonJoiner : Char := Char.ofNat 0x200C

/-- Whether a character may stand between the consonants of a conjunct. -/
def isConjunctMark (c : Char) : Bool :=
  isLinker c || ((isExtender c || Break.ofChar c == .joiner) && c != nonJoiner)

/-- Whether a cluster, last character first, ends in a consonant and marks with
a linker among them, so that a consonant may still join. -/
def endsInLinkedConsonant (cluster : List Char) : Bool :=
  (cluster.takeWhile isConjunctMark).any isLinker &&
    (cluster.dropWhile isConjunctMark).head?.any isConjunctConsonant

/-- Whether a cluster, last character first, ends in a pictograph, marks and a
joiner, so that a pictograph may still join. -/
def endsInJoinedPictograph : List Char → Bool
  | [] => false
  | last :: before =>
      Break.ofChar last == .joiner &&
        (before.dropWhile isExtender).head?.any isPictograph

/-- Whether a cluster, last character first, ends in half a flag: an odd number
of regional indicators. -/
def endsInHalfFlag (cluster : List Char) : Bool :=
  (cluster.takeWhile fun c => Break.ofChar c == .regional).length % 2 == 1

/-- Whether a character played by `next` stays with one played by `last`,
judged by these two parts alone. -/
def Break.attracts : Break → Break → Bool
  | .carriageReturn, next => next == .lineFeed
  | .lineFeed, _ => false
  | .control, _ => false
  | _, .carriageReturn => false
  | _, .lineFeed => false
  | _, .control => false
  | _, .extend => true
  | _, .joiner => true
  | _, .spacing => true
  | .prepend, _ => true
  | .leading, next =>
      next == .leading || next == .vowel || next == .openSyllable ||
        next == .closedSyllable
  | .openSyllable, next => next == .vowel || next == .trailing
  | .vowel, next => next == .vowel || next == .trailing
  | .closedSyllable, next => next == .trailing
  | .trailing, next => next == .trailing
  | _, _ => false

/-- Whether the character `next` still belongs to a cluster, which is given last
character first. -/
def joins (cluster : List Char) (next : Char) : Bool :=
  match cluster with
  | [] => true
  | last :: _ =>
      (Break.ofChar last).attracts (Break.ofChar next) ||
        (isConjunctConsonant next && endsInLinkedConsonant cluster) ||
        (isPictograph next && endsInJoinedPictograph cluster) ||
        (Break.ofChar next == .regional && endsInHalfFlag cluster)

/-- The clusters of a text, when the characters of `cluster`, last one first,
have been read of the first of them. -/
def clustersFrom (cluster : List Char) : List Char → List (List Char)
  | [] => if cluster.isEmpty then [] else [cluster.reverse]
  | next :: text =>
      if joins cluster next then clustersFrom (next :: cluster) text
      else cluster.reverse :: clustersFrom [next] text

theorem flatten_clustersFrom (cluster text : List Char) :
    (clustersFrom cluster text).flatten = cluster.reverse ++ text := by
  fun_induction clustersFrom cluster text with
  | case1 cluster h => simp_all
  | case2 cluster h => simp
  | case3 cluster next text h ih => simp [ih]
  | case4 cluster next text h ih => simp [ih]

theorem ne_nil_of_mem_clustersFrom {cluster text piece : List Char}
    (h : piece ∈ clustersFrom cluster text) : piece ≠ [] := by
  fun_induction clustersFrom cluster text with
  | case1 => simp at h
  | case2 cluster hne => simp_all
  | case3 cluster next text hjoin ih => exact ih h
  | case4 cluster next text hjoin ih =>
      rcases List.mem_cons.mp h with rfl | h
      · rintro hnil
        simp [List.reverse_eq_nil_iff.mp hnil, joins] at hjoin
      · exact ih h

end Grapheme

/-- The extended grapheme clusters of a text. -/
def clusters (text : List Char) : List (List Char) := Grapheme.clustersFrom [] text

theorem flatten_clusters (text : List Char) : (clusters text).flatten = text := by
  simp [clusters, Grapheme.flatten_clustersFrom]

theorem ne_nil_of_mem_clusters {text piece : List Char} (h : piece ∈ clusters text) :
    piece ≠ [] :=
  Grapheme.ne_nil_of_mem_clustersFrom h

end StyledTree.Text
