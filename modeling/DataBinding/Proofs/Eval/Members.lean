import DataBinding.Eval.Basic
import DataBinding.Proofs.Expr.Members

/-!
# Chains of members are paths

Reading members one after the other leads to the same value as following their names as a path,
with one exception: texts have a length in expressions, and none in paths. Where a path leads
nowhere the expression may fail, or have no value.

Results:
* `property?_eq`: one step.
* `valueOf_readMembers`: all steps.
* `evaluate_members`: the value of a chain as a text.
-/

namespace DataBinding

open DataBinding.Expr (isMemberName members membersText isMemberName_iff)

namespace Path

/-- What is reached after some segments, and then the other `segments`. -/
def readFrom? : List String → Value → Option Value
  | [], v => some v
  | segment :: rest, v => read? (segment :: rest) v

/-- On the way along the segments, a text is asked for its length. -/
def asksTextLength : List String → Value → Bool
  | [], _ => false
  | segment :: rest, v =>
    (segment == "length" && v.text?.isSome) || (child? segment v).any (asksTextLength rest)

theorem read?_cons_of_child? {segment : String} {v w : Value} (h : child? segment v = some w)
    (rest : List String) : read? (segment :: rest) v = readFrom? rest w := by
  cases rest with
  | nil => rw [read?, h, Option.some_or, readFrom?]
  | cons next rest => rw [read?, h, Option.bind_some, readFrom?]

theorem read?_object (segment : String) (rest : List String) (fields : Fields) :
    read? (segment :: rest) (.object fields) =
      (Fields.get? segment fields).bind (readFrom? rest) := by
  show _ = (child? segment (.object fields)).bind (readFrom? rest)
  cases hc : child? segment (.object fields) with
  | some w => exact read?_cons_of_child? hc rest
  | none =>
    cases rest with
    | nil =>
      rw [read?, hc]
      rfl
    | cons next rest =>
      rw [read?, hc]
      rfl

end Path

/-! ## One step -/

theorem elementIndex?_of_isMemberName {name : String} (h : isMemberName name = true) :
    elementIndex? name = Path.index? name := by
  obtain ⟨-, hchars⟩ := isMemberName_iff.1 h
  rw [elementIndex?, Path.index?]
  split
  · rename_i digits hplus
    have hsign := hchars '+' (by rw [hplus]; exact List.mem_cons_self)
    exact absurd hsign (by decide)
  · rfl

/-- A property is a part or a length, as for paths, except for the length of a text. -/
theorem property?_eq {name : String} (hn : isMemberName name = true) {v : Value}
    (hv : (name == "length" && v.text?.isSome) = false) :
    v.property? name = (Path.child? name v).or (Path.length? name v) := by
  cases v with
  | object fields => exact (Option.or_none).symm
  | array items =>
    rw [Value.property?, Path.child?, Path.length?, elementIndex?_of_isMemberName hn]
    by_cases hlength : name = "length"
    · have hindex : Path.index? "length" = none := rfl
      rw [if_pos hlength, if_pos hlength, hlength, hindex]
      rfl
    · rw [if_neg hlength, if_neg hlength, Option.or_none]
  | text s =>
    have hlength : name ≠ "length" := by
      rintro rfl
      cases hv
    rw [Value.property?, if_neg hlength]
    rfl
  | null | bool b | number n => rfl

/-! ## All steps -/

/-- The value of a result, absent after an error. -/
def valueOf (result : Except EvalError (Option Value)) : Option Value := result.toOption.join

/-- The properties with these names, each of the one before it. -/
def readMembers : List String → Option Value → Except EvalError (Option Value)
  | [], target => .ok target
  | name :: rest, target => readProperty target name >>= readMembers rest

theorem eval_members (env : Environment) (e : Expr) (names : List String) :
    (members e names).eval env = (e.eval env >>= readMembers names) := by
  induction names generalizing e with
  | nil =>
    show e.eval env = (e.eval env >>= fun target => .ok target)
    cases e.eval env <;> rfl
  | cons name rest ih =>
    show (members (.member e name) rest).eval env = _
    rw [ih, Expr.eval]
    cases e.eval env <;> rfl

theorem valueOf_readMembers_none (names : List String) :
    valueOf (readMembers names none) = none := by
  cases names <;> rfl

/-- A length has no properties, so nothing follows it. -/
theorem valueOf_readMembers_length (next segment : String) (rest : List String) (v : Value) :
    valueOf (readMembers (next :: rest) (Path.length? segment v)) = none := by
  have hnone := valueOf_readMembers_none (next :: rest)
  cases v with
  | array items =>
    rw [Path.length?]
    split
    · exact valueOf_readMembers_none rest
    · exact hnone
  | object fields | null | bool b | number n | text s => exact hnone

theorem readMembers_cons {name : String} {v : Value} (hv : v.isNull = false)
    (rest : List String) :
    readMembers (name :: rest) (some v) = readMembers rest (v.property? name) := by
  rw [readMembers, readProperty, if_neg (by simp [hv])]
  rfl

theorem valueOf_readMembers {names : List String} (hn : ∀ name ∈ names, isMemberName name = true)
    {v : Value} (hv : Path.asksTextLength names v = false) :
    valueOf (readMembers names (some v)) = Path.readFrom? names v := by
  induction names generalizing v with
  | nil => rfl
  | cons name rest ih =>
    obtain ⟨hname, hrest⟩ := List.forall_mem_cons.1 hn
    rw [Path.asksTextLength, Bool.or_eq_false_iff] at hv
    obtain ⟨htext, hbelow⟩ := hv
    rw [Path.readFrom?]
    cases hnull : v.isNull with
    | true =>
      cases v with
      | null => cases rest <;> rfl
      | bool b | number n | text s | array items | object fields => cases hnull
    | false =>
      rw [readMembers_cons hnull, property?_eq hname htext]
      cases hc : Path.child? name v with
      | some w =>
        rw [hc] at hbelow
        rw [Option.some_or, Path.read?_cons_of_child? hc]
        exact ih hrest hbelow
      | none =>
        rw [Option.none_or]
        cases rest with
        | nil =>
          rw [Path.read?, hc, Option.none_or]
          rfl
        | cons next rest =>
          rw [Path.read?, hc, valueOf_readMembers_length]
          rfl

/-! ## Texts -/

namespace Environment

theorem evaluate_eq (env : Environment) (input : List Char) :
    env.evaluate input = valueOf (env.tryEvaluate input) := by
  rw [evaluate]
  cases env.tryEvaluate input <;> rfl

/-- The text of a chain leads from the value of its variable where the path of its names leads. -/
theorem evaluate_members (env : Environment) {first : String} {names : List String}
    (hf : Expr.isVariable first = true) (hn : ∀ name ∈ names, isMemberName name = true)
    (hlen : names.length ≤ Expr.maxOperators)
    (ht : ∀ v, env.scope.lookup? first = some v → Path.asksTextLength names v = false) :
    env.evaluate (first.toList ++ membersText names) =
      (env.scope.lookup? first).bind (Path.readFrom? names) := by
  rw [evaluate_eq, tryEvaluate, Expr.trim_members hf hn, Expr.parse_members hf hn hlen]
  show valueOf ((members (.ident first) names).eval env) = _
  rw [eval_members, Expr.eval]
  cases hv : env.scope.lookup? first with
  | none => rfl
  | some v => exact valueOf_readMembers hn (ht v hv)

end Environment

end DataBinding
