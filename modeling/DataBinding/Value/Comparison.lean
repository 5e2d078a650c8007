import DataBinding.Value.Conversion

/-!
# Equality and order of values

Strict equality tells kinds of values apart, loose equality converts first, and the order compares
texts alphabetically and all else as numbers. An absent value is `none`.

Results:
* `compare?_swap`: comparing in the other order gives the opposite outcome.
-/

namespace DataBinding.Value

/-- Strict equality. Numbers are equal if they stand for equal doubles; containers are equal if
    they are the same document. -/
def strictEqual : Option Value → Option Value → Bool
  | none, none => true
  | none, some _ => false
  | some _, none => false
  | some (number a), some (number b) => a.toDouble.equal b.toDouble
  | some a, some b => same a b

/-- The value is absent or `null`. -/
def isNullish : Option Value → Bool
  | none => true
  | some v => v.isNull

/-- Loose equality of two present values that need no conversion of a container: a number and a
    text, or anything and a truth value, are compared as numbers. -/
def looseEqualPlain (a b : Value) : Bool :=
  match a, b with
  | number _, text _ | text _, number _ | bool _, _ | _, bool _ => a.toDouble.equal b.toDouble
  | _, _ => strictEqual (some a) (some b)

/-- The text that stands for a container beside a value of another kind. -/
def asText (v : Value) : Value := text (String.ofList v.displayText)

/-- Loose equality. Absent and `null` are equal to each other only; a container beside a value that
    is neither a container nor a truth value counts as its text. -/
def looseEqual (a b : Option Value) : Bool :=
  match a, b with
  | some a, some b =>
    if a.isNull || b.isNull then a.isNull && b.isNull
    else match a, b with
      | bool _, _ | _, bool _ => looseEqualPlain a b
      | _, _ =>
        if a.isContainer && !b.isContainer then looseEqualPlain (asText a) b
        else if b.isContainer && !a.isContainer then looseEqualPlain a (asText b)
        else looseEqualPlain a b
  | a, b => isNullish a && isNullish b

/-- The order of two values, with no outcome when a number is missing. -/
def compare? (a b : Option Value) : Option Ordering :=
  match a, b with
  | some (text s), some (text t) => some (Text.compareText s.toList t.toList)
  | a, b => (toDouble? a).compare? (toDouble? b)

theorem compare?_swap (a b : Option Value) : (compare? a b).map Ordering.swap = compare? b a := by
  unfold compare?
  split
  · simp [Text.compareText_swap]
  · rename_i h
    split
    · rename_i s t
      exact absurd rfl (h t s rfl)
    · exact Double.compare_swap _ _

end DataBinding.Value
