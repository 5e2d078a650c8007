/-!
# Powers of two and ten

Binary numbers are scaled by powers of two, decimals by powers of ten. The powers of two that
bound the numbers of a machine have names.

Results:
* `significandBound_eq`: the bound is the power it is meant to be.
* `twoPow_pos`, `twoPow_add`: powers are positive, and exponents add up in products.
-/

namespace DataBinding

/-- The power of two with the given exponent. -/
def twoPow (exponent : Nat) : Nat := Nat.pow 2 exponent

/-- A significand has 53 bits: it is less than `2 ^ 53`. -/
abbrev significandBound : Nat := 0x20000000000000

/-- The first of the 53 bits of a significand, `2 ^ 52`. -/
abbrev leadingBit : Nat := 0x10000000000000

/-- A number of 64 bits is less than `2 ^ 64`. -/
abbrev wordBound : Nat := 0x10000000000000000

/-- The first of 64 bits, `2 ^ 63`, which is the sign where there is one. -/
abbrev signBit : Nat := 0x8000000000000000

/-- The power of ten with the given exponent. -/
def tenPow (exponent : Nat) : Nat := Nat.pow 10 exponent

theorem significandBound_eq : significandBound = twoPow 53 := by decide

theorem twoPow_pos (e : Nat) : 0 < twoPow e := Nat.pow_pos (by decide)

theorem twoPow_add (e f : Nat) : twoPow (e + f) = twoPow e * twoPow f := Nat.pow_add 2 e f

end DataBinding
