import DataBinding.Decimal.Layout

/-!
# Displayed numbers

How a number reads on a screen: without a point if it is integral, with an exponent only if it is
very large or very small, and optionally with its thousands set apart.
-/

namespace DataBinding

/-- Screens write numbers positionally from `1e-6` up to `1e21`, and an exact half in the last
    digit goes away from zero. -/
def displayLayout : Layout where
  least := -6
  greatest := 20
  marksIntegral := false
  tie := .away

/-- A nonzero magnitude as displayed. Doubles up to `2 ^ 53` that are integral are exact, so their
    shortest text is the text of the integer. -/
def FiniteDouble.displayMagnitude (x : FiniteDouble) : List Char :=
  if x.isIntegral && x.magnitude ≤ significandBound * unitsPerOne then
    Text.digitsOf (x.magnitude / unitsPerOne)
  else displayLayout.write (x.shortest displayLayout.tie)

/-- A number as displayed. Both zeros are `0`. -/
def Double.displayText : Double → List Char
  | nan => "NaN".toList
  | infinite negative => (if negative then ['-'] else []) ++ "Infinity".toList
  | finite x =>
    if x.isZero then ['0'] else (if x.negative then ['-'] else []) ++ x.displayMagnitude

/-! ## Thousands -/

/-- Digits with a space before each group of three, counted from the end. -/
def groupDigits : List Char → List Char
  | [] => []
  | c :: cs =>
    if cs.length % 3 = 0 ∧ cs ≠ [] then c :: ' ' :: groupDigits cs else c :: groupDigits cs

/-- An unsigned text whose part before the first point is grouped if it is all digits. -/
def groupUnsigned (cs : List Char) : List Char :=
  let whole := cs.takeWhile (· != '.')
  let rest := cs.dropWhile (· != '.')
  if whole.isEmpty || !whole.all Text.isDigit then cs else groupDigits whole ++ rest

/-- A number as displayed, with its thousands set apart by spaces. -/
def Double.groupedText (x : Double) : List Char :=
  match x.displayText with
  | '-' :: cs => '-' :: groupUnsigned cs
  | cs => groupUnsigned cs

end DataBinding
