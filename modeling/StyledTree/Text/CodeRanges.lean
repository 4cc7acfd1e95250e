/-!
# Sets of code points as ranges

A property of characters is kept as closed ranges of code points in ascending
order. `holds_iff` says that the search, which stops early, misses nothing.
-/

namespace StyledTree.Text

/-- Closed ranges of code points, each a first and a last one. -/
abbrev CodeRanges := List (Nat × Nat)

namespace CodeRanges

/-- Each range begins beyond the beginning of every range before it. -/
def Ascending (ranges : CodeRanges) : Prop :=
  ranges.Pairwise fun lower upper => lower.1 ≤ upper.1

instance (ranges : CodeRanges) : Decidable ranges.Ascending :=
  inferInstanceAs (Decidable (ranges.Pairwise _))

/-- Whether some range holds `code`. The search ends at the first range that
begins beyond it. -/
def holds : CodeRanges → Nat → Bool
  | [], _ => false
  | (first, last) :: later, code =>
      if code < first then false
      else if code ≤ last then true
      else holds later code

theorem exists_of_holds {ranges : CodeRanges} {code : Nat}
    (h : holds ranges code = true) :
    ∃ range ∈ ranges, range.1 ≤ code ∧ code ≤ range.2 := by
  fun_induction holds ranges code with
  | case1 => simp at h
  | case2 => simp at h
  | case3 first last later code hfirst hlast =>
      exact ⟨(first, last), by simp, by omega, hlast⟩
  | case4 first last later code hfirst hlast ih =>
      obtain ⟨range, hmem, hbounds⟩ := ih h
      exact ⟨range, List.mem_cons_of_mem _ hmem, hbounds⟩

/-- On ascending ranges the search finds every code point that some range
holds. -/
theorem holds_iff {ranges : CodeRanges} (ascending : ranges.Ascending)
    (code : Nat) :
    holds ranges code = true ↔
      ∃ range ∈ ranges, range.1 ≤ code ∧ code ≤ range.2 := by
  refine ⟨exists_of_holds, ?_⟩
  fun_induction holds ranges code with
  | case1 => simp
  | case2 first last later code hfirst =>
      rintro ⟨range, hmem, hlow, -⟩
      rcases List.mem_cons.mp hmem with rfl | hmem
      · simp only at hlow
        omega
      · have := (List.pairwise_cons.mp ascending).1 range hmem
        simp only at this
        omega
  | case3 => simp
  | case4 first last later code hfirst hlast ih =>
      rintro ⟨range, hmem, hlow, hhigh⟩
      rcases List.mem_cons.mp hmem with rfl | hmem
      · exact absurd hhigh hlast
      · exact ih (List.pairwise_cons.mp ascending).2 ⟨range, hmem, hlow, hhigh⟩

end CodeRanges

end StyledTree.Text
