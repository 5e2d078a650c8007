import DataBinding.Double.Basic

/-!
# Arithmetic on doubles

Each operation forms its exact result and rounds it once. An exact zero keeps the sign that the
operation's rule gives it.

Results:
* `Double.neg_neg`: negation undoes itself.
* `Double.add_comm`: addition is commutative.
-/

namespace DataBinding.Double

/-- The number with the opposite sign. -/
def neg : Double → Double
  | nan => nan
  | infinite negative => infinite (!negative)
  | finite x => finite x.neg

theorem neg_neg (x : Double) : neg (neg x) = x := by
  cases x <;> simp [neg, FiniteDouble.neg]

/-- The sum. Opposite infinities have none, and a zero sum is negative only if both summands are. -/
def add : Double → Double → Double
  | nan, _ | _, nan => nan
  | infinite s, infinite t => if s = t then infinite s else nan
  | infinite s, finite _ | finite _, infinite s => infinite s
  | finite x, finite y => ofUnits (x.negative && y.negative) (x.units + y.units)

theorem add_comm (x y : Double) : add x y = add y x := by
  cases x <;> cases y <;> simp only [add, Bool.and_comm, Int.add_comm]
  rename_i s t
  cases s <;> cases t <;> rfl

/-- The difference, which is the sum with the opposite. -/
def sub (x y : Double) : Double := add x (neg y)

/-- The product. Zero times an infinity has none. -/
def mul : Double → Double → Double
  | nan, _ | _, nan => nan
  | infinite s, infinite t => infinite (s != t)
  | infinite s, finite x | finite x, infinite s =>
    if x.isZero then nan else infinite (s != x.negative)
  | finite x, finite y => nearest (x.negative != y.negative) (x.magnitude * y.magnitude) unitsPerOne

/-- The quotient. Zero by zero and infinity by infinity have none; otherwise a zero divisor gives
    an infinity. -/
def div : Double → Double → Double
  | nan, _ | _, nan => nan
  | infinite _, infinite _ => nan
  | infinite s, finite y => infinite (s != y.negative)
  | finite x, infinite t => finite (FiniteDouble.zero (x.negative != t))
  | finite x, finite y =>
    if y.isZero then if x.isZero then nan else infinite (x.negative != y.negative)
    else nearest (x.negative != y.negative) (x.magnitude * unitsPerOne) y.magnitude

/-- The remainder of division with the quotient cut toward zero; it has the sign of the dividend. -/
def rem : Double → Double → Double
  | nan, _ | _, nan => nan
  | infinite _, _ => nan
  | finite x, infinite _ => finite x
  | finite x, finite y =>
    if y.isZero then nan else nearest x.negative (x.magnitude % y.magnitude) 1

/-- The number cut to its integral part, toward zero. -/
def trunc : Double → Double
  | finite x => nearest x.negative (x.magnitude / unitsPerOne * unitsPerOne) 1
  | x => x

end DataBinding.Double
