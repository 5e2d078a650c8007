import DataBinding.Eval.Builtin
import DataBinding.Eval.Operation
import DataBinding.Expr.Printer
import DataBinding.Scope

/-!
# Evaluation

An expression is evaluated in a scope. The result is a value, which may be absent, or an error.

Results:
* `eval_literal`: a literal is its own value.
* `eval_call_iff`: a call succeeds as a call of a function, or of a method.
-/

namespace DataBinding

/-- Where an expression is evaluated: its variables and the functions it may call. -/
structure Environment where
  scope : Scope
  registry : Registry

namespace Environment

/-- The name of the function that a callee stands for: a name always stands for one, a member only
    if the registry has a function of that namespace. A variable hides the namespace of its
    name. -/
def functionName? (env : Environment) : Expr → Option String
  | .ident name => some name
  | .member (.ident space) property =>
    let name := s!"{space}.{property}"
    if (env.scope.lookup? space).isNone && (env.registry.find? name).isSome then some name
    else none
  | _ => none

end Environment

namespace Expr

mutual

/-- The value of an expression. -/
def eval (env : Environment) : Expr → Except EvalError (Option Value)
  | literal v => .ok (some v)
  | undefined => .ok none
  | array items => do
    let values ← evalAll env items
    .ok (some (.array (values.map fun v => v.getD .null)))
  | ident name =>
    match env.scope.lookup? name with
    | some v => .ok (some v)
    | none => .error (.notDefined name)
  | member object property => do
    let target ← eval env object
    readProperty target property
  | index object key => do
    let target ← eval env object
    let key ← eval env key
    readProperty target (keyText key)
  | call callee args =>
    match env.functionName? callee with
    | some name => do
      let f ← env.registry.select name args.length
      let values ← evalAll env args
      let v ← f.call values
      .ok (some v)
    | none =>
      match callee with
      | member object property => do
        let receiver ← eval env object
        let values ← evalAll env args
        let v ← callMethod receiver property values
        .ok (some v)
      | _ => .error (.notCallable (String.ofList callee.text))
  | unary op operand => do
    let v ← eval env operand
    .ok (some (op.apply v))
  | binary op left right => do
    let l ← eval env left
    if op.settledBy l then .ok l
    else do
      let r ← eval env right
      .ok (op.apply l r)
  | membership negated needle haystack => do
    let n ← eval env needle
    let h ← eval env haystack
    let found ← contains h n
    .ok (some (.bool (found != negated)))
  | conditional test consequent alternate => do
    let t ← eval env test
    if Value.truthy t then eval env consequent else eval env alternate

/-- The values of expressions, from the first to the last. -/
def evalAll (env : Environment) : List Expr → Except EvalError (List (Option Value))
  | [] => .ok []
  | e :: rest => do
    let v ← eval env e
    let vs ← evalAll env rest
    .ok (v :: vs)

end

theorem eval_literal (env : Environment) (v : Value) : eval env (literal v) = .ok (some v) := by
  simp [eval]

/-- The ways in which a call succeeds: as a call of a function, or of a method. -/
inductive Calls (env : Environment) (args : List Expr) (v : Value) : Expr → Prop
  | function {callee : Expr} {name : String} {f : Builtin} {values : List (Option Value)}
      (hn : env.functionName? callee = some name)
      (hf : env.registry.select name args.length = .ok f)
      (ha : evalAll env args = .ok values) (hv : f.call values = .ok v) : Calls env args v callee
  | method {object : Expr} {property : String} {receiver : Option Value}
      {values : List (Option Value)} (hn : env.functionName? (member object property) = none)
      (ho : eval env object = .ok receiver) (ha : evalAll env args = .ok values)
      (hv : callMethod receiver property values = .ok v) : Calls env args v (member object property)

theorem eval_call_iff {env : Environment} {callee : Expr} {args : List Expr} {r : Option Value} :
    eval env (call callee args) = .ok r ↔ ∃ v, r = some v ∧ Calls env args v callee := by
  constructor
  · intro h
    rw [eval.eq_def] at h
    dsimp only at h
    split at h
    · rename_i name hn
      simp only [bind_eq_ok] at h
      obtain ⟨f, hf, values, ha, v, hv, hr⟩ := h
      exact ⟨v, (Except.ok.inj hr).symm, .function hn hf ha hv⟩
    · rename_i hn
      split at h
      · simp only [bind_eq_ok] at h
        obtain ⟨receiver, ho, values, ha, v, hv, hr⟩ := h
        exact ⟨v, (Except.ok.inj hr).symm, .method hn ho ha hv⟩
      · cases h
  · rintro ⟨v, rfl, h⟩
    cases h with
    | function hn hf ha hv =>
      rw [eval.eq_def]
      simp only [hn, hf, ha, hv, ok_bind]
    | method hn ho ha hv => simp only [eval, hn, ho, ha, hv, ok_bind]

end Expr

namespace Environment

/-- The value of the expression that a text spells, blanks around it aside, or the error. -/
def tryEvaluate (env : Environment) (input : List Char) : Except EvalError (Option Value) :=
  match Expr.parse (Text.trim input) with
  | .ok e => e.eval env
  | .error e => .error (.parse e)

/-- The value of the expression that a text spells, absent if anything goes wrong. -/
def evaluate (env : Environment) (input : List Char) : Option Value :=
  match env.tryEvaluate input with
  | .ok v => v
  | .error _ => none

end Environment

end DataBinding
