import DataBinding.Double.Basic
import DataBinding.Decimal.Layout

/-!
# Numbers of a document

A document tells integers and floating-point numbers apart: `1` and `1.0` are different numbers
that stand for the same double.

Results:
* `Number.same_comm`: being the same number is symmetric.
-/

namespace DataBinding

/-- A number of a document: an integer, or a finite double. -/
inductive Number where
  | integer (n : Int)
  | float (x : FiniteDouble)
deriving DecidableEq, Repr

namespace Number

/-- The double nearest to the number. -/
def toDouble : Number → Double
  | integer n => .ofInt n
  | float x => .finite x

/-- The same number: equal integers, or numerically equal doubles. An integer and a double
    differ. -/
def same : Number → Number → Bool
  | integer m, integer n => m == n
  | float x, float y => x.units == y.units
  | _, _ => false

theorem same_comm (a b : Number) : same a b = same b a := by
  cases a <;> cases b <;> simp [same, Bool.beq_comm]

/-- The bound below which a double without a fractional part becomes an integer. -/
def integerBound : Nat := significandBound

/-- The number that stands for a double: an integer if it has no fractional part and lies below
    the bound, nothing if it is not finite. -/
def ofDouble? : Double → Option Number
  | .finite x =>
    if x.isIntegral && x.magnitude < integerBound * unitsPerOne then some (integer x.truncate)
    else some (float x)
  | _ => none

/-- Documents write doubles positionally from `1e-5` up to `1e16`, always with a point there, and
    an exact half in the last digit goes to the even digit. -/
def layout : Layout where
  least := -5
  greatest := 15
  marksIntegral := true
  tie := .even

/-- The text of a number in a document. -/
def text : Number → List Char
  | integer n => Text.integerText n
  | float x =>
    (if x.negative then ['-'] else []) ++
      (if x.isZero then ['0', '.', '0'] else layout.write (x.shortest layout.tie))

end Number

end DataBinding
