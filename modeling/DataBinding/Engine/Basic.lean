import DataBinding.Eval.Basic
import DataBinding.Path.Update
import DataBinding.Record

/-!
# Engines

An engine is a configuration, a registry of functions and the hooks that run after a patch.

Results:
* `Config.ofValue?_toValue`: a configuration written as an object is read back.
-/

namespace DataBinding

/-- The choices that an engine leaves open. -/
structure Config where
  /-- A binding whose own value is an array or an object takes it where a path leads to empty
      text. -/
  preferStructuralFallback : Bool
  /-- The alias of frames without one. -/
  defaultAlias : String
deriving DecidableEq, Repr

namespace Config

/-- Empty text gives way, and frames without an alias name their item `item`. -/
def default : Config := ⟨true, "item"⟩

/-- The names of the fields of a configuration, in order. -/
def memberNames : List String := ["preferStructuralFallback", "defaultAlias"]

/-- The configuration that a document describes. -/
def ofValue? (v : Value) : Option Config :=
  match members? memberNames v with
  | some [prefer, name] => do
    let prefer ← boolMember? default.preferStructuralFallback prefer
    let name ← textMember? default.defaultAlias name
    some ⟨prefer, name⟩
  | _ => none

/-- The configuration as an object. -/
def toValue (config : Config) : Value :=
  .object [("preferStructuralFallback", .bool config.preferStructuralFallback),
    ("defaultAlias", .text config.defaultAlias)]

theorem ofValue?_toValue (config : Config) : ofValue? config.toValue = some config := by
  simp [ofValue?, toValue, members?, memberNames, Fields.get?, boolMember?, textMember?]

end Config

/-- A recomputation of derived fields, run after a patch. -/
inductive Hook where
  /-- The total of the cart. -/
  | cartTotals
deriving DecidableEq, Repr

/-- What resolves bindings and applies patches. -/
structure Engine where
  config : Config
  registry : Registry
  hooks : List Hook
deriving DecidableEq, Repr

namespace Engine

/-- The engine with all functions and the hook for the cart. -/
def default : Engine := ⟨.default, .standard, [.cartTotals]⟩

/-- Where expressions are evaluated for a context and frames. -/
def environment (engine : Engine) (context : Value) (frames : List Frame) : Environment :=
  ⟨.ofFrames context frames engine.config.defaultAlias, engine.registry⟩

end Engine

end DataBinding
