/-!
# Ranges of scalar values

Character properties are tables of inclusive ranges in ascending order.
-/

namespace Scenery.Text

/--
Whether the number lies in one of the ranges.  They are in ascending order, so
the search ends at the first range that starts behind the number.
-/
def inRanges : List (Nat × Nat) → Nat → Bool
  | [], _ => false
  | (first, last) :: rest, n => first ≤ n && (n ≤ last || inRanges rest n)

theorem exists_range_of_inRanges
    {ranges : List (Nat × Nat)} {n : Nat} (h : inRanges ranges n = true) :
    ∃ range ∈ ranges, range.1 ≤ n ∧ n ≤ range.2 := by
  induction ranges with
  | nil => simp [inRanges] at h
  | cons range rest ih =>
      obtain ⟨first, last⟩ := range
      simp only [inRanges, Bool.and_eq_true, Bool.or_eq_true,
        decide_eq_true_eq] at h
      rcases h with ⟨hfirst, hlast | hrest⟩
      · exact ⟨(first, last), List.mem_cons_self, hfirst, hlast⟩
      · obtain ⟨found, hmem, hfound⟩ := ih hrest
        exact ⟨found, List.mem_cons_of_mem _ hmem, hfound⟩

end Scenery.Text
