import DataBinding.Expr.Parser
import DataBinding.Value.Kind

/-!
# What goes wrong with an expression

An error is a cause; its wording is given once, by `EvalError.message`.

Results:
* `EvalError.family_parse`: a text that is no expression is an error of its own family.
-/

namespace DataBinding

/-- What was expected or found, in words. -/
def Expr.FaultCause.message : FaultCause → String
  | nameExpected => "identifier expected"
  | charExpected c => s!"expected '{c}'"
  | elseExpected => "expected 'else'"
  | unterminatedText => "unterminated string"
  | unexpectedEnd => "unexpected end of expression"
  | unexpectedKeyword word => s!"unexpected keyword '{word}'"
  | unexpectedChar c => s!"unexpected character '{c}'"
  | trailingInput => "trailing input"
  | nestedTooDeeply => "expression nested too deeply"
  | tooManyOperators => "expression has too many operators"

/-- The cause, its place in bytes and the whole text. -/
def Expr.ParseError.message (e : ParseError) : String :=
  s!"{e.cause.message} at offset {e.offset} in `{e.input}`"

/-- Why an expression has no value. -/
inductive EvalError where
  /-- The text is no expression. -/
  | parse (e : Expr.ParseError)
  /-- The name is no variable. -/
  | notDefined (name : String)
  /-- A property of `null`, or of an absent value, was asked for. -/
  | nullishAccess (absent : Bool) (property : String)
  /-- Membership was asked of a value without members. -/
  | notIterable (kind : Kind)
  /-- What was called is neither a name nor a member. -/
  | notCallable (callee : String)
  /-- The value has no such method. -/
  | noMethod (method : String) (kind : Kind)
  /-- The value has no size; `none` is an absent value. -/
  | noSize (kind : Option Kind)
  /-- The value, displayed so, is no finite number. -/
  | notNumeric (text : String)
  /-- `null` and absent values have no keys or values. -/
  | notConvertible
  /-- No function has this name. -/
  | unknownFunction (name : String)
  /-- The function takes another number of arguments. -/
  | arity (name : String) (lowest highest given : Nat)
deriving DecidableEq, Repr

namespace EvalError

/-- The families of errors that a caller tells apart. -/
inductive Family where
  | parse
  | runtime
  | unknownFunction
  | arity
deriving DecidableEq, Repr

/-- The family that an error belongs to. -/
def family : EvalError → Family
  | parse _ => .parse
  | unknownFunction _ => .unknownFunction
  | arity _ _ _ _ => .arity
  | _ => .runtime

theorem family_parse (e : Expr.ParseError) : (parse e).family = .parse := rfl

/-- The number of arguments that a function takes, in words. -/
def arityText (lowest highest : Nat) : String :=
  if lowest = highest then s!"{lowest}" else s!"{lowest}..={highest}"

/-- The cause of an error in words. -/
def detail : EvalError → String
  | parse e => e.message
  | notDefined name => s!"{name} is not defined"
  | nullishAccess absent property =>
    let target := if absent then "undefined" else "null"
    s!"cannot read properties of {target} (reading '{property}')"
  | notIterable kind => s!"argument of type {kind.name} is not iterable"
  | notCallable callee => s!"{callee} is not a function"
  | noMethod method kind => s!"{method} is not a function on {kind.name}"
  | noSize kind =>
    let name := (kind.map Kind.shortName).getD "undefined"
    s!"object of type {name} has no len()"
  | notNumeric text => s!"invalid literal for int(): {text}"
  | notConvertible => "cannot convert undefined or null to object"
  | unknownFunction name => s!"unknown function `{name}`"
  | arity name lowest highest given =>
    let expected := arityText lowest highest
    s!"function `{name}` expects {expected} argument(s), got {given}"

/-- The whole message: errors of parsing and of evaluation say which they are. -/
def message (e : EvalError) : String :=
  match e.family with
  | .parse => "parse error: " ++ e.detail
  | .runtime => "runtime error: " ++ e.detail
  | _ => e.detail

end EvalError

end DataBinding
