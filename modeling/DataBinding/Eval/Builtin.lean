import DataBinding.Eval.Error
import DataBinding.Value.Conversion
import DataBinding.Double.Arithmetic

/-!
# Functions

The functions that expressions may call, and registries of them. Arguments may be absent values.

Results:
* `Builtin.name_injective`: each function has its own name.
* `Registry.find?_name`: a function is found under its name.
-/

namespace DataBinding

/-- A function of expressions. -/
inductive Builtin where
  | string
  | str
  | number
  | boolean
  | len
  | int
  | isArray
  | keys
  | values
deriving DecidableEq, Repr

namespace Builtin

def all : List Builtin := [string, str, number, boolean, len, int, isArray, keys, values]

/-- The name under which expressions call the function. -/
def name : Builtin → String
  | string => "String"
  | str => "str"
  | number => "Number"
  | boolean => "Boolean"
  | len => "len"
  | int => "int"
  | isArray => "Array.isArray"
  | keys => "Object.keys"
  | values => "Object.values"

theorem name_injective {f g : Builtin} (h : f.name = g.name) : f = g := by
  cases f <;> cases g <;> first | rfl | (simp [name] at h)

/-- The least number of arguments. -/
def lowestArity : Builtin → Nat
  | string | str | number | boolean => 0
  | len | int | isArray | keys | values => 1

/-- The greatest number of arguments. -/
def highestArity : Builtin → Nat := fun _ => 1

/-- The size of a text in 16-bit units, or the number of elements or fields. -/
def sizeOf? : Option Value → Except EvalError Value
  | some (.text s) => .ok (.ofNat (Text.units16 s.toList))
  | some (.array items) => .ok (.ofNat items.length)
  | some (.object fields) => .ok (.ofNat fields.length)
  | v => .error (.noSize (v.map Value.kind))

/-- The value as a number without its fractional part. -/
def integerOf (v : Option Value) : Except EvalError Value :=
  let x := Value.toDouble? v
  if x.isFinite then .ok (.ofDouble x.trunc)
  else .error (.notNumeric (String.ofList (Value.displayText? v)))

/-- The keys of an object, or the indices of an array. Other values have none. -/
def keysOf : Option Value → Except EvalError (List Value)
  | some (.object fields) => .ok (fields.map fun f => .text f.1)
  | some (.array items) =>
    .ok ((List.range items.length).map fun i => .text (String.ofList (Text.digitsOf i)))
  | none | some .null => .error .notConvertible
  | some _ => .ok []

/-- The values of an object, or the elements of an array. Other values have none. -/
def valuesOf : Option Value → Except EvalError (List Value)
  | some (.object fields) => .ok (fields.map Prod.snd)
  | some (.array items) => .ok items
  | none | some .null => .error .notConvertible
  | some _ => .ok []

/-- The result of the function for its arguments. -/
def call (f : Builtin) (args : List (Option Value)) : Except EvalError Value :=
  let first := args.head?.join
  match f with
  | string | str =>
    .ok (.text (String.ofList (if args.isEmpty then [] else Value.displayText? first)))
  | number => .ok (if args.isEmpty then .ofNat 0 else .ofDouble (Value.toDouble? first))
  | boolean => .ok (.bool (Value.truthy first))
  | len => sizeOf? first
  | int => integerOf first
  | isArray => .ok (.bool (first.bind Value.array?).isSome)
  | keys => (keysOf first).map .array
  | values => (valuesOf first).map .array

end Builtin

/-- The functions that an engine knows. -/
structure Registry where
  functions : List Builtin
deriving DecidableEq, Repr

namespace Registry

/-- A registry with all functions. -/
def standard : Registry := ⟨Builtin.all⟩

/-- A registry without functions. -/
def empty : Registry := ⟨[]⟩

/-- The function under a name. -/
def find? (registry : Registry) (name : String) : Option Builtin :=
  registry.functions.find? (·.name == name)

theorem find?_name {registry : Registry} {f : Builtin} (h : f ∈ registry.functions) :
    registry.find? f.name = some f := by
  unfold find?
  cases hf : registry.functions.find? (·.name == f.name) with
  | none => simp at hf; exact absurd rfl (hf f h)
  | some g =>
    have hn : g.name = f.name := by simpa using List.find?_some hf
    exact congrArg some (Builtin.name_injective hn)

/-- The function under a name, if it takes so many arguments. -/
def select (registry : Registry) (name : String) (count : Nat) : Except EvalError Builtin :=
  match registry.find? name with
  | none => .error (.unknownFunction name)
  | some f =>
    if f.lowestArity ≤ count ∧ count ≤ f.highestArity then .ok f
    else .error (.arity name f.lowestArity f.highestArity count)

end Registry

end DataBinding
