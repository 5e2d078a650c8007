import DataBinding.Decimal.Shortest

/-!
# Writing decimals

A layout says when a number is written positionally and when with an exponent, and what the two
forms look like.
-/

namespace DataBinding

/-- How a number is written. The exponent of a number is that of its leading digit. -/
structure Layout where
  /-- The least exponent written positionally. -/
  least : Int
  /-- The greatest exponent written positionally. -/
  greatest : Int
  /-- Integral numbers in positional form end in `.0`. -/
  marksIntegral : Bool
  tie : Tie

namespace Layout

/-- The digits of the coefficient without trailing zeros. -/
def significantDigits (d : Decimal) : List Char :=
  ((Text.digitsOf d.coefficient).reverse.dropWhile (· == '0')).reverse

/-- Digits with the decimal point after the first `point` of them. -/
def positional (marksIntegral : Bool) (digits : List Char) (point : Int) : List Char :=
  if point ≤ 0 then '0' :: '.' :: List.replicate (-point).toNat '0' ++ digits
  else if digits.length ≤ point then
    digits ++ List.replicate (point.toNat - digits.length) '0' ++
      (if marksIntegral then ['.', '0'] else [])
  else digits.take point.toNat ++ '.' :: digits.drop point.toNat

/-- Digits with the point after the first one, and the exponent with its sign. -/
def scientific (digits : List Char) (exponent : Int) : List Char :=
  digits.take 1 ++ (if digits.length ≤ 1 then [] else '.' :: digits.drop 1) ++
    'e' :: (if exponent < 0 then [] else ['+']) ++ Text.integerText exponent

/-- A positive decimal in this layout. -/
def write (layout : Layout) (d : Decimal) : List Char :=
  let exponent := d.magnitude - 1
  if layout.least ≤ exponent ∧ exponent ≤ layout.greatest then
    positional layout.marksIntegral (significantDigits d) (exponent + 1)
  else scientific (significantDigits d) exponent

end Layout

end DataBinding
