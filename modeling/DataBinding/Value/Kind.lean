import DataBinding.Value.Basic

/-!
# Kinds of values

Results:
* `kind_eq_null_iff`: only `null` is of its kind.
-/

namespace DataBinding

/-- The kind of a value. -/
inductive Kind where
  | null
  | bool
  | number
  | text
  | array
  | object
deriving DecidableEq, Repr

namespace Kind

/-- The name of a kind where a method or a membership test does not apply. -/
def name : Kind → String
  | null => "null"
  | bool => "boolean"
  | number => "number"
  | text => "string"
  | array => "array"
  | object => "object"

/-- The name of a kind where a value has no size. -/
def shortName : Kind → String
  | null => "NoneType"
  | bool => "bool"
  | number => "number"
  | text => "str"
  | array => "list"
  | object => "dict"

end Kind

/-- The kind of a value. -/
def Value.kind : Value → Kind
  | null => .null
  | bool _ => .bool
  | number _ => .number
  | text _ => .text
  | array _ => .array
  | object _ => .object

theorem Value.kind_eq_null_iff (v : Value) : v.kind = .null ↔ v.isNull = true := by
  cases v <;> simp [kind, isNull]

end DataBinding
