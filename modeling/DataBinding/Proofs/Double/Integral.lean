import DataBinding.Double.Display
import DataBinding.Eval.Operation

/-!
# Integers as doubles

Integers of up to 53 bits, and `2 ^ 53` itself, are doubles: the double nearest to such an integer
has exactly its magnitude. So their decimal text is their text on a screen and as a key.

Results:
* `Double.nearest_of_dvd`: a whole number of units whose significand is not cut is exact.
* `Double.ofInt_natCast`: natural numbers up to `2 ^ 53` are exact.
* `displayText_ofNat`, `numberKey_ofNat`: such a number is displayed, and used as a key, by its
  digits.
-/

namespace DataBinding

open Text (digitsOf)

theorem unitsPerOne_pos : 0 < unitsPerOne := twoPow_pos 1074

theorem twoPow_dvd_twoPow {e f : Nat} (h : e ≤ f) : twoPow e ∣ twoPow f :=
  Nat.pow_dvd_pow 2 h

theorem log2_mul_twoPow {n : Nat} (hn : n ≠ 0) (e : Nat) :
    Nat.log2 (n * twoPow e) = Nat.log2 n + e := by
  have hp := twoPow_pos e
  have hl := (Nat.log2_eq_iff hn).1 rfl
  refine (Nat.log2_eq_iff (Nat.mul_ne_zero hn (by omega))).2 ⟨?_, ?_⟩
  · rw [Nat.pow_add]
    exact Nat.mul_le_mul_right _ hl.1
  · rw [show n.log2 + e + 1 = n.log2 + 1 + e by omega, Nat.pow_add]
    exact Nat.mul_lt_mul_of_pos_right hl.2 hp

namespace Double

/-! ## Exact whole numbers of units -/

theorem nearest_of_dvd (negative : Bool) {n : Nat} (hn : n ≠ 0) (he : n.log2 - 52 ≤ 2045)
    (hd : twoPow (n.log2 - 52) ∣ n) :
    ∃ x : FiniteDouble, nearest negative n 1 = .finite x ∧ x.negative = negative ∧
      x.magnitude = n := by
  obtain ⟨hlow, hhigh⟩ := (Nat.log2_eq_iff hn).1 rfl
  have hp := twoPow_pos (n.log2 - 52)
  obtain ⟨m, hm⟩ := hd
  have hq : n / twoPow (n.log2 - 52) = m := Nat.div_eq_of_eq_mul_right hp hm
  have hlt : m < significandBound := by
    rw [significandBound_eq]
    refine Nat.lt_of_mul_lt_mul_left (a := twoPow (n.log2 - 52)) ?_
    rw [← hm, ← twoPow_add]
    exact Nat.lt_of_lt_of_le hhigh (Nat.pow_le_pow_right (by decide) (by omega))
  have hlead : n.log2 - 52 = 0 ∨ leadingBit ≤ m := by
    rw [Classical.or_iff_not_imp_left]
    intro h0
    refine Nat.le_of_mul_le_mul_left ?_ hp
    rw [← hm, show leadingBit = twoPow 52 by decide, ← twoPow_add,
      show n.log2 - 52 + 52 = n.log2 by omega]
    exact hlow
  have hr : roundHalfEven n (1 * twoPow (n.log2 - 52)) = m := by
    rw [Nat.one_mul, roundHalfEven_of_dvd hp ⟨m, hm⟩, hq]
  refine ⟨⟨negative, m, n.log2 - 52, hlt, he, hlead⟩, ?_, rfl, ?_⟩
  · simp only [nearest, Nat.div_one, hr, assemble]
    rw [dif_pos ⟨hlt, he, hlead⟩]
  · rw [FiniteDouble.magnitude, Nat.mul_comm, ← hm]

theorem twoPow_dvd_mul_unitsPerOne {n : Nat} (hn : n ≠ 0) (h : n ≤ significandBound) :
    twoPow (n.log2 + 1022) ∣ n * unitsPerOne := by
  rcases Nat.lt_or_ge n.log2 53 with hl | hl
  · exact Nat.dvd_mul_left_of_dvd (twoPow_dvd_twoPow (by omega)) n
  · -- only the bound itself has so long a significand, and it is a power of two
    have hge := (Nat.le_log2 hn).1 hl
    have he : n = twoPow 53 := by
      rw [significandBound_eq] at h
      exact Nat.le_antisymm h hge
    have hlog : n.log2 = 53 := by rw [he]; exact Nat.log2_two_pow
    rw [hlog, he, unitsPerOne, ← twoPow_add]
    exact twoPow_dvd_twoPow (by decide)

theorem ofInt_natCast {n : Nat} (h : n ≤ significandBound) :
    ∃ x : FiniteDouble, ofInt n = .finite x ∧ x.negative = false ∧
      x.magnitude = n * unitsPerOne := by
  have hneg : decide ((n : Int) < 0) = false := by simp
  rw [ofInt, Int.natAbs_natCast, hneg]
  by_cases hn : n = 0
  · subst hn
    refine ⟨FiniteDouble.zero false, ?_, rfl, by simp [FiniteDouble.magnitude, FiniteDouble.zero]⟩
    rw [Nat.zero_mul]
    decide
  · have hlog : (n * unitsPerOne).log2 = n.log2 + 1074 := log2_mul_twoPow hn 1074
    have h53 : n.log2 < 54 := by
      rw [Nat.log2_lt hn]
      exact Nat.lt_of_le_of_lt h (by decide)
    have hsub : (n * unitsPerOne).log2 - 52 = n.log2 + 1022 := by omega
    refine nearest_of_dvd false (Nat.mul_ne_zero hn (Nat.ne_of_gt unitsPerOne_pos)) (by omega) ?_
    rw [hsub]
    exact twoPow_dvd_mul_unitsPerOne hn h

end Double

/-! ## Texts of integers -/

variable {n : Nat} {x : FiniteDouble}

theorem isIntegral_of_magnitude (h : x.magnitude = n * unitsPerOne) : x.isIntegral = true := by
  simp [FiniteDouble.isIntegral, h]

theorem isZero_of_magnitude (h : x.magnitude = n * unitsPerOne) :
    x.isZero = true ↔ n = 0 := by
  have hu := unitsPerOne_pos
  have hp := twoPow_pos x.exponent
  rw [FiniteDouble.isZero, beq_iff_eq]
  constructor
  · intro h0
    rw [FiniteDouble.magnitude, h0, Nat.zero_mul] at h
    rcases Nat.mul_eq_zero.1 h.symm with h | h <;> omega
  · rintro rfl
    rw [FiniteDouble.magnitude, Nat.zero_mul] at h
    rcases Nat.mul_eq_zero.1 h with h | h <;> omega

theorem displayText_ofNat (h : n ≤ significandBound) :
    (Number.integer n).toDouble.displayText = digitsOf n := by
  obtain ⟨x, hx, hneg, hmag⟩ := Double.ofInt_natCast h
  rw [Number.toDouble, hx, Double.displayText]
  by_cases hn : n = 0
  · subst hn
    rw [if_pos ((isZero_of_magnitude hmag).2 rfl)]
    decide
  · have hz : ¬x.isZero = true := fun hz => hn ((isZero_of_magnitude hmag).1 hz)
    have hle : n * unitsPerOne ≤ significandBound * unitsPerOne := Nat.mul_le_mul_right _ h
    rw [if_neg hz, hneg, FiniteDouble.displayMagnitude, isIntegral_of_magnitude hmag, hmag,
      Nat.mul_div_cancel _ unitsPerOne_pos]
    simp [hle]

theorem numberKey_eq {m : Number} (hx : m.toDouble = .finite x) (hn : x.negative = false)
    (hi : x.isIntegral = true) :
    numberKey m = digitsOf (min (x.magnitude / unitsPerOne) maxWord64) := by
  simp only [numberKey, hx, hi, hn, Bool.not_false, Bool.true_or, Bool.and_self, if_true]

theorem numberKey_ofNat (h : n ≤ significandBound) : numberKey (.integer n) = digitsOf n := by
  obtain ⟨x, hx, hneg, hmag⟩ := Double.ofInt_natCast h
  have hx : (Number.integer n).toDouble = .finite x := hx
  have hle : n ≤ maxWord64 := Nat.le_trans h (by decide)
  rw [numberKey_eq hx hneg (isIntegral_of_magnitude hmag), hmag,
    Nat.mul_div_cancel _ unitsPerOne_pos, Nat.min_eq_left hle]

end DataBinding
