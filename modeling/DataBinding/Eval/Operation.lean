import DataBinding.Eval.Error
import DataBinding.Value.Comparison
import DataBinding.Double.Arithmetic
import DataBinding.Decimal.Fixed
import DataBinding.Path.Basic
import DataBinding.Text.Case

/-!
# Operations on values

What the operators, properties and methods of expressions do with the values of their operands. An
absent value is `none`.

Results:
* `contains_array`: membership of an array is strict equality with some element.
-/

namespace DataBinding

/-! ## Properties -/

/-- The index that a key stands for: digits that fit 64 bits, a plus sign being allowed. -/
def elementIndex? (key : String) : Option Nat :=
  match key.toList with
  | '+' :: digits => Text.word64? digits
  | digits => Text.word64? digits

/-- The property of a present value under a key. Arrays and texts have a length. -/
def Value.property? (key : String) : Value → Option Value
  | .object fields => Fields.get? key fields
  | .array items =>
    if key = "length" then some (.ofNat items.length) else (elementIndex? key).bind (items[·]?)
  | .text s => if key = "length" then some (.ofNat (Text.units16 s.toList)) else none
  | _ => none

/-- The property of a value that may be absent; `null` and absent values have none to ask for. -/
def readProperty (target : Option Value) (key : String) : Except EvalError (Option Value) :=
  match target with
  | none => .error (.nullishAccess true key)
  | some v => if v.isNull then .error (.nullishAccess false key) else .ok (v.property? key)

/-- The largest number of 64 bits. -/
def maxWord64 : Nat := wordBound - 1

/-- A number as a key: a whole number that is not negative by its digits, any other by its text in
    documents. -/
def numberKey (n : Number) : List Char :=
  match n.toDouble with
  | .finite x =>
    if x.isIntegral && (!x.negative || x.isZero) then
      Text.digitsOf (min (x.magnitude / unitsPerOne) maxWord64)
    else n.text
  | _ => n.text

/-- The key that a value stands for between brackets. -/
def keyText (v : Option Value) : String :=
  match v with
  | some (.number n) => String.ofList (numberKey n)
  | v => String.ofList (Value.displayText? v)

/-! ## Operators -/

/-- The value counts as text in a sum: it is a text, an array or an object. -/
def isTextual : Option Value → Bool
  | some (.text _) => true
  | some (.array _) => true
  | some (.object _) => true
  | _ => false

/-- The sum of two numbers, or two texts joined if either side counts as text. -/
def sum (a b : Option Value) : Value :=
  if isTextual a || isTextual b then
    .text (String.ofList (Value.displayText? a ++ Value.displayText? b))
  else .ofDouble ((Value.toDouble? a).add (Value.toDouble? b))

/-- The result of an operation on two numbers. -/
def arithmetic (f : Double → Double → Double) (a b : Option Value) : Value :=
  .ofDouble (f (Value.toDouble? a) (Value.toDouble? b))

/-- The outcome of a comparison is one of those that an operator accepts. -/
def orderIs (accepted : List Ordering) (a b : Option Value) : Value :=
  .bool <| match Value.compare? a b with
    | some o => accepted.contains o
    | none => false

/-- The result of a unary operator. -/
def UnaryOp.apply (op : UnaryOp) (v : Option Value) : Value :=
  match op with
  | not => .bool (!Value.truthy v)
  | neg => .ofDouble (Value.toDouble? v).neg
  | plus => .ofDouble (Value.toDouble? v)

/-- The first operand alone is the result: it is true under `or`, or false under `and`. -/
def BinaryOp.settledBy (op : BinaryOp) (a : Option Value) : Bool :=
  match op with
  | or => Value.truthy a
  | and => !Value.truthy a
  | _ => false

/-- The result of an operator whose first operand did not settle it. -/
def BinaryOp.apply (op : BinaryOp) (a b : Option Value) : Option Value :=
  match op with
  | or | and => b
  | strictEq => some (.bool (Value.strictEqual a b))
  | strictNe => some (.bool (!Value.strictEqual a b))
  | eq => some (.bool (Value.looseEqual a b))
  | ne => some (.bool (!Value.looseEqual a b))
  | lt => some (orderIs [.lt] a b)
  | le => some (orderIs [.lt, .eq] a b)
  | gt => some (orderIs [.gt] a b)
  | ge => some (orderIs [.gt, .eq] a b)
  | add => some (sum a b)
  | sub => some (arithmetic Double.sub a b)
  | mul => some (arithmetic Double.mul a b)
  | div => some (arithmetic Double.div a b)
  | rem => some (arithmetic Double.rem a b)

/-- Membership: an element of an array, a part of a text, or a key of an object. -/
def contains (haystack needle : Option Value) : Except EvalError Bool :=
  match haystack with
  | some (.array items) => .ok (items.any fun item => Value.strictEqual (some item) needle)
  | some (.text s) => .ok (Text.includes (Value.displayText? needle) s)
  | some (.object fields) =>
    .ok (Fields.contains (String.ofList (Value.displayText? needle)) fields)
  | none => .error (.nullishAccess true "includes")
  | some .null => .error (.nullishAccess false "includes")
  | some v => .error (.notIterable v.kind)

theorem contains_array (items : List Value) (needle : Option Value) :
    contains (some (.array items)) needle =
      .ok (items.any fun item => Value.strictEqual (some item) needle) := rfl

/-! ## Methods -/

/-- The most decimal places that a number is shown with. -/
def maxPlaces : Nat := 100

/-- A value as a number of decimal places: its whole part, kept between none and the most. -/
def placesOf (v : Option Value) : Nat :=
  match Value.toDouble? v with
  | .finite x => if x.negative then 0 else min (x.magnitude / unitsPerOne) maxPlaces
  | _ => 0

/-- A number with a fixed count of decimal places. -/
def Number.fixedText (places : Nat) (n : Number) : List Char :=
  match n.toDouble with
  | .finite x => x.fixedText places
  | x => x.displayText

/-- The result of a method of a present value, if the value has it. -/
def Value.method? (name : String) (args : List (Option Value)) (v : Value) :
    Option (Except EvalError Value) :=
  let first := args.head?.join
  let textOf (cs : List Char) : Option (Except EvalError Value) :=
    some (.ok (.text (String.ofList cs)))
  match v, name with
  | .array _, "includes" => some ((contains (some v) first).map .bool)
  | .text _, "includes" => some ((contains (some v) first).map .bool)
  | .array items, "join" =>
    let separator := match first with
      | none => [',']
      | some s => s.displayText
    textOf (Text.join separator (displayItems items))
  | .text s, "toUpperCase" => textOf (Text.upperCase s.toList)
  | .text s, "toLowerCase" => textOf (Text.lowerCase s.toList)
  | .text s, "trim" => textOf (Text.trim s.toList)
  | v, "toString" => textOf v.displayText
  | .number n, "toFixed" => textOf (n.fixedText (placesOf first))
  | _, _ => none

/-- The result of a method of a value that may be absent. -/
def callMethod (receiver : Option Value) (name : String) (args : List (Option Value)) :
    Except EvalError Value :=
  match receiver with
  | none => .error (.nullishAccess true name)
  | some v =>
    if v.isNull then .error (.nullishAccess false name)
    else (v.method? name args).getD (.error (.noMethod name v.kind))

end DataBinding
