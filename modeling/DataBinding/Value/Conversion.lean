import DataBinding.Value.Basic
import DataBinding.Double.Display
import DataBinding.Decimal.Numeral
import DataBinding.Text.Blank
import DataBinding.Text.Search

/-!
# Conversions of values

Every value, and also its absence, counts as true or false, as a number and as text. An absent
value is `none`.

Results:
* `toDouble_number`: a number converts to the double nearest to it.
* `displayText_text`: text is displayed as it is.
-/

namespace DataBinding.Value

/-- The value counts as true: it is present and is not `null`, `false`, a zero or empty text. -/
def truthy : Option Value → Bool
  | none => false
  | some null => false
  | some (bool b) => b
  | some (number n) => !(n.toDouble.equal Double.zero)
  | some (text s) => !s.toList.isEmpty
  | some (array _) => true
  | some (object _) => true

/-! ## Numbers -/

/-- The number that a trimmed text spells. Empty text is zero, the infinities have names, and text
    that is no numeral is not a number. -/
def parseDouble (cs : List Char) : Double :=
  let cs := Text.trim cs
  if cs.isEmpty then .zero
  else if cs = "Infinity".toList ∨ cs = "+Infinity".toList then .infinite false
  else if cs = "-Infinity".toList then .infinite true
  else match Decimal.numeral? cs with
    | some (negative, d) => d.toDouble negative
    | none => .nan

/-- A value as a number. An array of one element counts as that element, an empty one as zero. -/
def toDouble : Value → Double
  | null => .zero
  | bool b => if b then .one else .zero
  | number n => n.toDouble
  | text s => parseDouble s.toList
  | array [] => .zero
  | array [v] => toDouble v
  | array (_ :: _ :: _) => .nan
  | object _ => .nan

/-- A value as a number; an absent one is not a number. -/
def toDouble? (v : Option Value) : Double := (v.map toDouble).getD .nan

theorem toDouble_number (n : Number) : toDouble (number n) = n.toDouble := by simp [toDouble]

/-! ## Text -/

/-- Every object is displayed in the same way. -/
def objectText : List Char := "[object Object]".toList

mutual

/-- A value as displayed. The elements of an array are separated by commas. -/
def displayText : Value → List Char
  | null => "null".toList
  | bool b => if b then "true".toList else "false".toList
  | number n => n.toDouble.displayText
  | text s => s.toList
  | array items => Text.join [','] (displayItems items)
  | object _ => objectText

/-- The elements of an array as displayed, `null` as empty text. -/
def displayItems : List Value → List (List Char)
  | [] => []
  | v :: rest => (if v.isNull then [] else displayText v) :: displayItems rest

end

/-- A value as displayed; an absent one has a name too. -/
def displayText? : Option Value → List Char
  | none => "undefined".toList
  | some v => displayText v

theorem displayText_text (s : String) : displayText (text s) = s.toList := by simp [displayText]

/-- A value inside a longer text: absent values and `null` leave nothing. -/
def templateText : Option Value → List Char
  | none => []
  | some v => if v.isNull then [] else displayText v

end DataBinding.Value
