import DataBinding.Double.Basic
import DataBinding.Text.Numeric

/-!
# A fixed number of decimal places

Results:
* `fixedDigits_eq`: as many digits as asked for come after the point, and all digits together stand
  for the number.
-/

namespace DataBinding

/-- The digits of `n` hundredths, thousandths and so on: at least one digit before the point and
    exactly `places` after it. -/
def fixedDigits (places n : Nat) : List Char :=
  let digits := Text.digitsOf n
  let padded := List.replicate (places + 1 - digits.length) '0' ++ digits
  let whole := padded.take (padded.length - places)
  if places = 0 then whole else whole ++ '.' :: padded.drop (padded.length - places)

theorem digitsValue_zeros (k : Nat) (cs : List Char) :
    Text.digitsValue (List.replicate k '0' ++ cs) = Text.digitsValue cs := by
  induction k with
  | zero => rfl
  | succ k ih =>
    rw [← ih]
    rfl

/-- There is a digit before the point, there are `places` digits after it, and no digit is lost. -/
theorem fixedDigits_eq (places n : Nat) :
    ∃ whole fraction, whole ≠ [] ∧ fraction.length = places ∧
      Text.digitsValue (whole ++ fraction) = n ∧
      fixedDigits places n = if places = 0 then whole else whole ++ '.' :: fraction := by
  let padded := List.replicate (places + 1 - (Text.digitsOf n).length) '0' ++ Text.digitsOf n
  have hlong : places < padded.length := by
    rw [List.length_append, List.length_replicate]
    omega
  refine ⟨padded.take (padded.length - places), padded.drop (padded.length - places), ?_, ?_, ?_,
    rfl⟩
  · rw [Ne, List.take_eq_nil_iff]
    rintro (hzero | hnil)
    · omega
    · rw [hnil] at hlong
      exact absurd hlong (Nat.not_lt_zero _)
  · rw [List.length_drop]
    omega
  · rw [List.take_append_drop, digitsValue_zeros, Text.digitsValue_digitsOf]

/-- The number with a fixed count of decimal places. The exact value is rounded, a half to the even
    neighbour, and the sign of a number that rounds to zero is kept. -/
def FiniteDouble.fixedText (places : Nat) (x : FiniteDouble) : List Char :=
  (if x.negative then ['-'] else []) ++
    fixedDigits places (roundHalfEven (x.magnitude * tenPow places) unitsPerOne)

end DataBinding
