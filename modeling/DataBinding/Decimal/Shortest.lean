import DataBinding.Decimal.Basic

/-!
# Shortest decimals

Among the decimals that read back as a given double, the shortest has the fewest digits, and of
those it is the nearest to the double. The reals that read back as a double form an interval; its
ends belong to it if the significand is even.

All quantities are integers: a double is `4 · significand · 2 ^ exponent` quarter units, and the
interval reaches half a significand step up and down, or a quarter step down from a power of two,
where the doubles below lie twice as close.
-/

namespace DataBinding

/-- Which of two equally near decimals is taken. -/
inductive Tie where
  /-- The one of larger magnitude. -/
  | away
  /-- The one with an even last digit. -/
  | even
deriving DecidableEq, Repr

namespace FiniteDouble

/-- The lower end of the interval, in quarters of a significand step. -/
def lowerQuarters (x : FiniteDouble) : Nat :=
  4 * x.significand - (if x.significand = leadingBit ∧ 0 < x.exponent then 1 else 2)

/-- The upper end of the interval, in quarters of a significand step. -/
def upperQuarters (x : FiniteDouble) : Nat := 4 * x.significand + 2

/-- The number of quarter units in the number one. -/
def quartersPerOne : Nat := 4 * unitsPerOne

/-- The magnitude lies in `[10 ^ n, 10 ^ (n + 1))` for this `n`, if it is not zero. -/
def decimalExponent (x : FiniteDouble) : Int :=
  if unitsPerOne ≤ x.magnitude then
    ((Text.digitsOf (x.magnitude / unitsPerOne)).length : Int) - 1
  else
    -((Text.digitsOf ((unitsPerOne - 1) / x.magnitude)).length : Int)

/-- The decimal reads back as the magnitude: it lies in the interval of the double. -/
def readsBack (x : FiniteDouble) (d : Decimal) : Bool :=
  let value := d.numerator * quartersPerOne
  let lower := x.lowerQuarters * twoPow x.exponent * d.denominator
  let upper := x.upperQuarters * twoPow x.exponent * d.denominator
  if x.significand % 2 = 0 then lower ≤ value && value ≤ upper
  else lower < value && value < upper

/-- The distance of the decimal from the magnitude, in quarter units over the decimal's
    denominator. -/
def distance (x : FiniteDouble) (d : Decimal) : Nat :=
  ((d.numerator * quartersPerOne : Int) - 4 * x.magnitude * d.denominator).natAbs

/-- The largest multiple of `10 ^ exponent` that is at most the magnitude. -/
def floorAt (x : FiniteDouble) (exponent : Int) : Decimal where
  coefficient := x.magnitude * tenPow (-exponent).toNat / (unitsPerOne * tenPow exponent.toNat)
  exponent := exponent

/-- The multiple of `10 ^ exponent` nearest to the magnitude among those that read back. -/
def nearestAt? (tie : Tie) (x : FiniteDouble) (exponent : Int) : Option Decimal :=
  let low := x.floorAt exponent
  let high : Decimal := ⟨low.coefficient + 1, exponent⟩
  match x.readsBack low, x.readsBack high with
  | false, false => none
  | true, false => some low
  | false, true => some high
  | true, true =>
    let tieGoesUp := match tie with
      | .away => true
      | .even => low.coefficient % 2 == 1
    some <| match compare (x.distance low) (x.distance high) with
      | .lt => low
      | .gt => high
      | .eq => if tieGoesUp then high else low

/-- The shortest decimal for the magnitude of a nonzero double: the coarsest of the grids of one
    to seventeen digits that has a multiple reading back. Seventeen digits always suffice. -/
def shortest (tie : Tie) (x : FiniteDouble) : Decimal :=
  let grids := (List.range 17).map fun n : Nat => x.decimalExponent - n
  (grids.findSome? (x.nearestAt? tie)).getD (x.floorAt (x.decimalExponent - 16))

end FiniteDouble

end DataBinding
