import DataBinding.Double.Basic
import DataBinding.Text.Numeric

/-!
# Decimal numbers

A decimal is a whole coefficient times a power of ten. Text is read into decimals and written
from them; `Decimal.toDouble` is where reading rounds.
-/

namespace DataBinding

/-- The number `coefficient · 10 ^ exponent`. -/
structure Decimal where
  coefficient : Nat
  exponent : Int
deriving DecidableEq, Repr

namespace Decimal

/-- The numerator of the number, written over `denominator`. -/
def numerator (d : Decimal) : Nat := d.coefficient * tenPow d.exponent.toNat

/-- The denominator of the number, a power of ten. -/
def denominator (d : Decimal) : Nat := tenPow (-d.exponent).toNat

/-- The exponent of the power of ten just past the number: `10 ^ (magnitude - 1) ≤ d` and
    `d < 10 ^ magnitude` for a nonzero `d`. -/
def magnitude (d : Decimal) : Int := (Text.digitsOf d.coefficient).length + d.exponent

/-- The double nearest to the decimal, ties to even. A decimal past `10 ^ 310` is beyond every
    finite double and one below `10 ^ -330` is nearest to zero; neither needs its exact value. -/
def toDouble (negative : Bool) (d : Decimal) : Double :=
  if d.coefficient = 0 ∨ d.magnitude < -330 then .finite (FiniteDouble.zero negative)
  else if 310 < d.magnitude then .infinite negative
  else Double.nearest negative (d.numerator * unitsPerOne) d.denominator

end Decimal

end DataBinding
