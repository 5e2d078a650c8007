import DataBinding.Value.Basic

/-!
# Bindings

A binding is an object with a text under `reference`. Its `value`, if there is one, is what it
falls back to.

Results:
* `ofValue?_toValue`: a binding written as an object is read back.
-/

namespace DataBinding

/-- A reference, and the value to fall back to; the value may be `null`. -/
structure Binding where
  reference : String
  value : Option Value
deriving Repr

namespace Binding

/-- The binding that the fields of an object describe. -/
def ofFields? (fields : Fields) : Option Binding :=
  match Fields.get? "reference" fields with
  | some (.text reference) => some ⟨reference, Fields.get? "value" fields⟩
  | _ => none

/-- The binding that a value describes. -/
def ofValue? : Value → Option Binding
  | .object fields => ofFields? fields
  | _ => none

/-- The binding as an object. -/
def toValue (b : Binding) : Value :=
  .object (("reference", .text b.reference) ::
    match b.value with
    | some v => [("value", v)]
    | none => [])

theorem ofValue?_toValue (b : Binding) : ofValue? b.toValue = some b := by
  cases b with
  | mk reference value => cases value <;> simp [ofValue?, ofFields?, toValue, Fields.get?]

/-- The binding's own value if it has one, else the fallback of the caller. -/
def fallbackOr (b : Binding) (fallback : Option Value) : Option Value := b.value.or fallback

/-- The binding's own value is an array or an object. -/
def hasStructuralFallback (b : Binding) : Bool := b.value.any Value.isContainer

end Binding

/-- A property of a component: a plain value or a binding. -/
inductive Bindable where
  | literal (v : Value)
  | binding (b : Binding)
deriving Repr

namespace Bindable

/-- The property that a value of a document describes. -/
def ofValue (v : Value) : Bindable :=
  match Binding.ofValue? v with
  | some b => binding b
  | none => literal v

/-- The property as a value of a document. -/
def toValue : Bindable → Value
  | literal v => v
  | binding b => b.toValue

/-- The property is a plain value. -/
def isLiteral : Bindable → Bool
  | literal _ => true
  | binding _ => false

end Bindable

end DataBinding
