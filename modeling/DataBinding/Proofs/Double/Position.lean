import DataBinding.Value.Number
import DataBinding.Double.Display

/-!
# Doubles on the number line

Doubles are compared by their places on the number line. Apart from the two zeros, each place
belongs to one double, because significands are as long as the format allows. So doubles that are
equal are displayed alike.

Results:
* `FiniteDouble.eq_of_magnitude`: a magnitude is written in one way.
* `FiniteDouble.eq_or_isZero_of_units`: only the zeros share a place.
* `Double.equal_iff`: equality of places.
* `Double.displayText_of_equal`: equal doubles are displayed alike.
* `Number.position?_toDouble`, `Number.equal_toDouble_iff`: every number of a document has a place.
-/

namespace DataBinding

theorem twoPow_le_twoPow {e f : Nat} (h : e ≤ f) : twoPow e ≤ twoPow f :=
  Nat.pow_le_pow_right (by decide) h

namespace FiniteDouble

variable {x y : FiniteDouble}

/-! ## Magnitudes -/

theorem magnitude_lt (x : FiniteDouble) : x.magnitude < twoPow 2098 := by
  have hle := twoPow_le_twoPow x.exponent_le
  calc x.magnitude
      ≤ x.significand * twoPow 2045 := Nat.mul_le_mul_left _ hle
    _ < significandBound * twoPow 2045 := Nat.mul_lt_mul_of_pos_right x.significand_lt (twoPow_pos _)
    _ = twoPow 2098 := by rw [significandBound_eq, ← twoPow_add]

/-- The longer exponent would leave the significand too short. -/
theorem exponent_le_of_magnitude (h : x.magnitude = y.magnitude) : y.exponent ≤ x.exponent := by
  rcases Nat.lt_or_ge x.exponent y.exponent with hlt | hge
  · have hlead : leadingBit ≤ y.significand := y.normalized.resolve_left (by omega)
    have hpow : twoPow (x.exponent + 1) ≤ twoPow y.exponent := twoPow_le_twoPow hlt
    have hless : x.magnitude < y.magnitude := by
      calc x.magnitude
          < significandBound * twoPow x.exponent :=
            Nat.mul_lt_mul_of_pos_right x.significand_lt (twoPow_pos _)
        _ = leadingBit * twoPow (x.exponent + 1) := by
            rw [significandBound_eq, show leadingBit = twoPow 52 by decide, ← twoPow_add,
              ← twoPow_add]
            congr 1
            omega
        _ ≤ y.magnitude := Nat.mul_le_mul hlead hpow
    omega
  · exact hge

theorem eq_of_magnitude (h : x.magnitude = y.magnitude) :
    x.significand = y.significand ∧ x.exponent = y.exponent := by
  have hexponent : x.exponent = y.exponent :=
    Nat.le_antisymm (exponent_le_of_magnitude h.symm) (exponent_le_of_magnitude h)
  rw [magnitude, magnitude, hexponent] at h
  exact ⟨Nat.eq_of_mul_eq_mul_right (twoPow_pos _) h, hexponent⟩

theorem isZero_of_magnitude_eq_zero (h : x.magnitude = 0) : x.isZero = true := by
  have hp := twoPow_pos x.exponent
  rw [isZero, beq_iff_eq]
  exact (Nat.mul_eq_zero.1 h).resolve_right (by omega)

theorem eq_or_isZero_of_units (h : x.units = y.units) :
    x = y ∨ x.isZero = true ∧ y.isZero = true := by
  have hmagnitude : x.magnitude = y.magnitude := by
    rw [units, units] at h
    split at h <;> split at h <;> omega
  by_cases hzero : x.magnitude = 0
  · exact .inr ⟨isZero_of_magnitude_eq_zero hzero,
      isZero_of_magnitude_eq_zero (hmagnitude ▸ hzero)⟩
  · have hsign : x.negative = y.negative := by
      rw [units, units, hmagnitude] at h
      split at h <;> split at h
      · rename_i hx hy
        rw [hx, hy]
      · omega
      · omega
      · rename_i hx hy
        rw [Bool.not_eq_true] at hx hy
        rw [hx, hy]
    obtain ⟨hsignificand, hexponent⟩ := eq_of_magnitude hmagnitude
    left
    cases x
    cases y
    simp_all

/-- The infinities lie past every finite double. -/
theorem units_ne_infinite (x : FiniteDouble) (negative : Bool) :
    (Double.finite x).position? ≠ (Double.infinite negative).position? := by
  intro h
  have hlt := x.magnitude_lt
  have hunits := Option.some.inj h
  rw [units] at hunits
  split at hunits <;> split at hunits <;> omega

end FiniteDouble

namespace Double

variable {x y : Double}

/-! ## Places -/

theorem equal_iff : equal x y = true ↔ ∃ p, x.position? = some p ∧ y.position? = some p := by
  constructor
  · intro h
    rw [equal] at h
    split at h
    · rename_i p q hx hy
      exact ⟨p, hx, by rw [hy, beq_iff_eq.1 h]⟩
    · cases h
  · rintro ⟨p, hx, hy⟩
    simp only [equal, hx, hy, beq_self_eq_true]

theorem displayText_of_equal (h : equal x y = true) : x.displayText = y.displayText := by
  obtain ⟨p, hx, hy⟩ := equal_iff.1 h
  have hbound := twoPow_pos 2098
  cases x with
  | nan => cases hx
  | infinite s =>
    cases y with
    | nan => cases hy
    | infinite t =>
      have hplace := Option.some.inj (hx.trans hy.symm)
      cases s <;> cases t
      · rfl
      · simp only [Bool.false_eq_true, if_false, if_true] at hplace
        omega
      · simp only [Bool.false_eq_true, if_false, if_true] at hplace
        omega
      · rfl
    | finite y => exact absurd (hy.trans hx.symm) (y.units_ne_infinite s)
  | finite x =>
    cases y with
    | nan => cases hy
    | infinite t => exact absurd (hx.trans hy.symm) (x.units_ne_infinite t)
    | finite y =>
      have hunits : x.units = y.units := Option.some.inj (hx.trans hy.symm)
      rcases FiniteDouble.eq_or_isZero_of_units hunits with rfl | ⟨hx, hy⟩
      · rfl
      · rw [displayText, displayText, if_pos hx, if_pos hy]

end Double

namespace Number

/-! ## Numbers of documents -/

/-- The place of a number on the number line, in units. -/
def position (n : Number) : Int := n.toDouble.position?.getD 0

theorem position?_toDouble (n : Number) : n.toDouble.position? = some n.position := by
  have hplace : ∃ p, n.toDouble.position? = some p := by
    cases n with
    | float x => exact ⟨x.units, rfl⟩
    | integer m =>
      rw [toDouble, Double.ofInt, Double.nearest, Double.assemble]
      split
      · exact ⟨_, rfl⟩
      · split
        · exact ⟨_, rfl⟩
        · exact ⟨_, rfl⟩
  obtain ⟨p, hp⟩ := hplace
  rw [position, hp, Option.getD_some]

theorem equal_toDouble_iff {m n : Number} :
    m.toDouble.equal n.toDouble = true ↔ m.position = n.position := by
  simp only [Double.equal, position?_toDouble, beq_iff_eq]

theorem position_of_same {m n : Number} (h : m.same n = true) : m.position = n.position := by
  cases m with
  | integer i =>
    cases n with
    | integer j => rw [beq_iff_eq.1 h]
    | float y => cases h
  | float x =>
    cases n with
    | integer j => cases h
    | float y => exact beq_iff_eq.1 h

end Number

end DataBinding
