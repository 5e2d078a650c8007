/-!
# Classes of characters as ranges of code points

A class is a list of ranges in ascending order, so that a search may stop at the first range past
the character.

Results:
* `inRanges_iff`: membership in ascending ranges says that some range holds the code point.
-/

namespace DataBinding.Text

/-- The code point of `c` lies in one of the ranges, ends included. -/
def inRanges : List (Nat × Nat) → Char → Bool
  | [], _ => false
  | r :: rest, c => !decide (c.toNat < r.1) && (c.toNat ≤ r.2 || inRanges rest c)

/-- The ranges are in ascending order of their first code points. -/
def ascending : List (Nat × Nat) → Bool
  | [] => true
  | [_] => true
  | r :: s :: rest => r.1 ≤ s.1 && ascending (s :: rest)

theorem first_le_of_ascending {r s : Nat × Nat} {rest : List (Nat × Nat)}
    (h : ascending (r :: rest) = true) (hs : s ∈ rest) : r.1 ≤ s.1 := by
  induction rest generalizing r with
  | nil => simp at hs
  | cons t rest ih =>
    simp only [ascending, Bool.and_eq_true, decide_eq_true_eq] at h
    rcases List.mem_cons.1 hs with rfl | hs
    · exact h.1
    · exact Nat.le_trans h.1 (ih h.2 hs)

theorem ascending_of_cons {r : Nat × Nat} {rest : List (Nat × Nat)}
    (h : ascending (r :: rest) = true) : ascending rest = true := by
  cases rest with
  | nil => rfl
  | cons s rest => exact (Bool.and_eq_true _ _ ▸ h).2

theorem inRanges_iff {ranges : List (Nat × Nat)} (h : ascending ranges = true) {c : Char} :
    inRanges ranges c = true ↔ ∃ r ∈ ranges, r.1 ≤ c.toNat ∧ c.toNat ≤ r.2 := by
  induction ranges with
  | nil => simp [inRanges]
  | cons r rest ih =>
    simp only [inRanges, Bool.and_eq_true, Bool.or_eq_true, ih (ascending_of_cons h)]
    constructor
    · rintro ⟨hr, hc | ⟨s, hs, hc⟩⟩
      · exact ⟨r, by simp, by simpa using hr, by simpa using hc⟩
      · exact ⟨s, by simp [hs], hc⟩
    · rintro ⟨s, hs, hc⟩
      rcases List.mem_cons.1 hs with rfl | hs
      · exact ⟨by simpa using hc.1, .inl (by simpa using hc.2)⟩
      · have := first_le_of_ascending h hs
        exact ⟨by simp; omega, .inr ⟨s, hs, hc⟩⟩

end DataBinding.Text
