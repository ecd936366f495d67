import StyleDocs.Text

/-!
# Tables of code points

A class of characters that no formula describes is a list of ranges in ascending order. Looking a
code point up stops at the first range that begins behind it.
-/

namespace StyleDocs.Text

/-- Whether the code point lies in one of the ranges, which are in ascending order. -/
def covered (n : Nat) : List (Nat × Nat) → Bool
  | [] => false
  | (first, last) :: ranges => first ≤ n && (n ≤ last || covered n ranges)

/-- A code point that is covered lies in a range of the table. -/
theorem exists_range_of_covered {n : Nat} {ranges : List (Nat × Nat)}
    (h : covered n ranges = true) : ∃ r ∈ ranges, r.1 ≤ n ∧ n ≤ r.2 := by
  induction ranges with
  | nil => simp [covered] at h
  | cons r ranges ih =>
    obtain ⟨first, last⟩ := r
    simp only [covered, Bool.and_eq_true, Bool.or_eq_true, decide_eq_true_eq] at h
    obtain ⟨hfirst, hlast | hrest⟩ := h
    · exact ⟨_, List.mem_cons_self, hfirst, hlast⟩
    · obtain ⟨r, hr, hn⟩ := ih hrest
      exact ⟨r, List.mem_cons_of_mem _ hr, hn⟩

end StyleDocs.Text
