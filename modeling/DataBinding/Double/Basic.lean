import DataBinding.Power

/-!
# Doubles: the 64-bit binary floating-point numbers

A finite double is `± significand · 2 ^ exponent` units, where one unit is `2 ^ -1074`, the
least positive double. Every operation works on that exact integer number of units and rounds
once, so no statement about doubles needs anything but integer arithmetic.

Results:
* `roundHalfEven_of_dvd`: rounding an exact quotient changes nothing.
* `Double.equal_comm`: numeric equality is symmetric.
* `Double.compare_swap`: comparing in the other order gives the opposite outcome.
-/

namespace DataBinding

/-- A finite double: `± significand · 2 ^ exponent` units of `2 ^ -1074`, with the significand
    as long as the format allows, so that each double is written in one way. -/
structure FiniteDouble where
  negative : Bool
  significand : Nat
  exponent : Nat
  significand_lt : significand < significandBound
  exponent_le : exponent ≤ 2045
  normalized : exponent = 0 ∨ leadingBit ≤ significand
deriving DecidableEq, Repr

/-- A double: not a number, one of two infinities, or finite. -/
inductive Double where
  | nan
  | infinite (negative : Bool)
  | finite (x : FiniteDouble)
deriving DecidableEq, Repr

/-- The number of units in the number one. -/
def unitsPerOne : Nat := twoPow 1074

namespace FiniteDouble

/-- The magnitude in units. -/
def magnitude (x : FiniteDouble) : Nat := x.significand * twoPow x.exponent

/-- The signed value in units. Both zeros have value `0`. -/
def units (x : FiniteDouble) : Int := if x.negative then -(x.magnitude : Int) else x.magnitude

/-- The zero of the given sign. -/
def zero (negative : Bool) : FiniteDouble where
  negative := negative
  significand := 0
  exponent := 0
  significand_lt := by decide
  exponent_le := by decide
  normalized := .inl rfl

/-- The same magnitude with the opposite sign. -/
def neg (x : FiniteDouble) : FiniteDouble := { x with negative := !x.negative }

def isZero (x : FiniteDouble) : Bool := x.significand == 0

/-- The value has no fractional part. -/
def isIntegral (x : FiniteDouble) : Bool := x.magnitude % unitsPerOne == 0

/-- The value without its fractional part, as an integer. -/
def truncate (x : FiniteDouble) : Int :=
  if x.negative then -((x.magnitude / unitsPerOne : Nat) : Int)
  else (x.magnitude / unitsPerOne : Nat)

end FiniteDouble

/-! ## Rounding -/

/-- The integer nearest to `num / den`, a half going to the even neighbour. -/
def roundHalfEven (num den : Nat) : Nat :=
  let quotient := num / den
  let remainder := num % den
  if 2 * remainder < den ∨ (2 * remainder = den ∧ quotient % 2 = 0) then quotient else quotient + 1

theorem roundHalfEven_of_dvd {num den : Nat} (hden : 0 < den) (h : den ∣ num) :
    roundHalfEven num den = num / den := by
  have hr : num % den = 0 := Nat.mod_eq_zero_of_dvd h
  simp [roundHalfEven, hr, hden]

namespace Double

/-- The double with the given significand and exponent. A significand of `2 ^ 53` carries into
    the exponent, and an exponent past the last one gives an infinity. -/
def assemble (negative : Bool) (significand exponent : Nat) : Double :=
  if h : significand < significandBound ∧ exponent ≤ 2045 ∧
      (exponent = 0 ∨ leadingBit ≤ significand) then
    .finite ⟨negative, significand, exponent, h.1, h.2.1, h.2.2⟩
  else if h : exponent + 1 ≤ 2045 then
    .finite ⟨negative, leadingBit, exponent + 1, by decide, h, .inr (Nat.le_refl _)⟩
  else .infinite negative

/-- The double nearest to `num / den` units, ties to the even significand. The significand keeps
    the 53 leading bits of the quotient, or all of them when there are fewer. -/
def nearest (negative : Bool) (num den : Nat) : Double :=
  let exponent := Nat.log2 (num / den) - 52
  assemble negative (roundHalfEven num (den * twoPow exponent)) exponent

/-- The double nearest to a signed whole number of units; a zero takes the sign asked for. -/
def ofUnits (zeroNegative : Bool) (n : Int) : Double :=
  if n = 0 then .finite (FiniteDouble.zero zeroNegative) else nearest (n < 0) n.natAbs 1

/-- The double nearest to an integer. -/
def ofInt (n : Int) : Double := nearest (n < 0) (n.natAbs * unitsPerOne) 1

def zero : Double := .finite (FiniteDouble.zero false)

def one : Double := ofInt 1

/-! ## Order -/

/-- The place on the number line in units, the infinities lying past every finite double;
    not a number has none. -/
def position? : Double → Option Int
  | nan => none
  | infinite negative => some (if negative then -(twoPow 2098 : Int) else twoPow 2098)
  | finite x => some x.units

/-- Numeric equality: the two zeros are equal, and not a number equals nothing. -/
def equal (x y : Double) : Bool :=
  match x.position?, y.position? with
  | some p, some q => p == q
  | _, _ => false

/-- Numeric order, with no outcome when either side is not a number. -/
def compare? (x y : Double) : Option Ordering :=
  match x.position?, y.position? with
  | some p, some q => some (compare p q)
  | _, _ => none

theorem equal_comm (x y : Double) : equal x y = equal y x := by
  unfold equal
  cases x.position? <;> cases y.position? <;> simp [Bool.beq_comm]

theorem compare_swap (x y : Double) : (compare? x y).map Ordering.swap = compare? y x := by
  unfold compare?
  cases x.position? <;> cases y.position? <;> simp [Int.compare_swap]

/-- A number, and not an infinity. -/
def isFinite : Double → Bool
  | finite _ => true
  | _ => false

/-! ## Bits of the interchange format -/

/-- The 64 bits: sign, eleven bits of exponent, 52 bits of fraction. -/
def toBits : Double → Nat
  | nan => 0x7ff8000000000000
  | infinite negative => (if negative then signBit else 0) + 0x7ff0000000000000
  | finite x =>
    (if x.negative then signBit else 0) +
      (if x.significand < leadingBit then x.significand
       else (x.exponent + 1) * leadingBit + (x.significand - leadingBit))

/-- The double of 64 bits; every bit pattern that is not a number gives `nan`. -/
def ofBits (bits : Nat) : Double :=
  let negative := bits / signBit % 2 == 1
  let field := bits / leadingBit % 2048
  let fraction := bits % leadingBit
  if field = 2047 then if fraction = 0 then .infinite negative else .nan
  else if field = 0 then assemble negative fraction 0
  else assemble negative (leadingBit + fraction) (field - 1)

end Double

end DataBinding
