import DataBinding.CommandLine.Arguments
import DataBinding.Engine.Patch
import DataBinding.Expr.Spelling
import DataBinding.Value.Reader

/-!
# Commands

Four commands: resolve a reference, apply a patch, respell an expression, evaluate an expression.
A command line that makes no sense exits with status 2, a bad document or expression with 1.

Results:
* `settled_command`: a command that is carried out prints a line or complains.
* `run_prints_iff`: a command line prints something exactly if it ends well.
* `run_status_eq_two_iff`: the status of misuse is for command lines that call no command.
-/

namespace DataBinding.CommandLine

/-- How a command ends: its exit status, what it prints, and what it complains about. -/
structure Outcome where
  status : Nat
  output : List Char
  complaint : String
deriving DecidableEq, Repr

/-- The outcome of a command that prints a line and ends well. -/
def success (output : List Char) : Outcome := ⟨0, output ++ ['\n'], ""⟩

/-- The outcome of a command that cannot be carried out. -/
def failure (complaint : String) : Outcome := ⟨1, [], complaint⟩

/-- The outcome of a command line that makes no sense. -/
def misuse : Outcome :=
  ⟨2, [], "usage: resolve REFERENCE | patch --context JSON --patch JSON | " ++
    "transpile EXPR | eval EXPR"⟩

/-- A value as printed; an absent one by its name. -/
def printed (v : Option Value) : List Char :=
  match v with
  | some v => v.indented
  | none => "undefined".toList

/-- The document that an argument spells. -/
def document (label raw : String) : Except Outcome Value :=
  match Value.read? raw.toList with
  | some v => .ok v
  | none => .error (failure s!"Invalid {label} JSON")

/-- The document that an argument spells, or the argument itself as a text. -/
def lenient (raw : String) : Value := (Value.read? raw.toList).getD (.text raw)

/-- The frames that an argument lists; none without an argument. -/
def frames (raw : Option String) : Except Outcome (List Frame) :=
  match raw with
  | none => .ok []
  | some raw => do
    let v ← document "frames" raw
    match Frame.listOfValue? v with
    | some frames => .ok frames
    | none => .error (failure "Invalid frames")

/-- The outcome of a command that may fail on the way. -/
def settle (result : Except Outcome Outcome) : Outcome :=
  match result with
  | .ok outcome => outcome
  | .error outcome => outcome

/-! ## The commands -/

/-- What the command takes that resolves a reference. -/
def resolveUsage : Usage where
  positionals := 1
  valued := ["context", "value", "fallback", "frames"]
  switches := []
  required := []

/-- Resolves a reference against a context and frames. -/
def resolve (a : Arguments) : Outcome := settle do
  let context ← document "context" ((a.value? "context").getD "{}")
  let b : Binding := ⟨(a.positionals.head?).getD "", (a.value? "value").map lenient⟩
  let frames ← frames (a.value? "frames")
  let fallback := (a.value? "fallback").map lenient
  .ok (success (printed (Engine.default.resolveBinding ⟨context, frames⟩ fallback b)))

/-- What the command takes that applies a patch. -/
def patchUsage : Usage where
  positionals := 0
  valued := ["context", "patch", "source"]
  switches := ["trace"]
  required := ["context", "patch"]

/-- Applies a patch to a context. -/
def patch (a : Arguments) : Outcome := settle do
  let context ← document "context" ((a.value? "context").getD "")
  let changes ← document "patch" ((a.value? "patch").getD "")
  let source ← (a.value? "source").mapM (document "source")
  .ok <| success <| Value.indented <|
    if a.hasSwitch "trace" then
      let patched := Engine.default.applyPatch context changes source
      .object [("context", patched.document), ("trace", .array (patched.trace.map Event.toValue))]
    else Engine.default.patch context changes source

/-- What the command takes that respells an expression. -/
def transpileUsage : Usage where
  positionals := 1
  valued := []
  switches := []
  required := []

/-- Respells an expression with symbols. -/
def transpile (a : Arguments) : Outcome :=
  success (Expr.respell ((a.positionals.head?).getD "").toList)

/-- What the command takes that evaluates an expression. -/
def evalUsage : Usage where
  positionals := 1
  valued := ["scope"]
  switches := []
  required := []

/-- Evaluates an expression in the scope of a context. -/
def eval (a : Arguments) : Outcome := settle do
  let context ← document "scope" ((a.value? "scope").getD "{}")
  let env := Engine.default.environment context []
  match env.tryEvaluate ((a.positionals.head?).getD "").toList with
  | .ok v => .ok (success (printed v))
  | .error e => .error (failure e.message)

/-- The usage of a command and what it does. -/
def command? (name : String) : Option (Usage × (Arguments → Outcome)) :=
  match name with
  | "resolve" => some (resolveUsage, resolve)
  | "patch" => some (patchUsage, patch)
  | "transpile" => some (transpileUsage, transpile)
  | "eval" => some (evalUsage, eval)
  | _ => none

/-- The outcome of a command line. The verbosity option may come before the command. -/
def run (args : List String) : Outcome :=
  match args.dropWhile Arguments.isVerbosity with
  | [] => misuse
  | name :: rest =>
    match command? name with
    | none => misuse
    | some (usage, command) =>
      match Arguments.parse? usage rest with
      | some a => command a
      | none => misuse

/-! ## How commands end -/

/-- A command that is carried out prints a line or complains. -/
inductive Settled : Outcome → Prop
  | success (output : List Char) : Settled (success output)
  | failure (complaint : String) : Settled (failure complaint)

theorem Settled.prints_iff {outcome : Outcome} (h : Settled outcome) :
    outcome.output ≠ [] ↔ outcome.status = 0 := by
  cases h with
  | success output => simp [CommandLine.success]
  | failure complaint => simp [CommandLine.failure]

theorem Settled.status_le {outcome : Outcome} (h : Settled outcome) : outcome.status ≤ 1 := by
  cases h with
  | success output => exact Nat.zero_le 1
  | failure complaint => exact Nat.le_refl 1

/-- A step of a command that fails ends the command with a complaint. -/
def Complains {α : Type} (step : Except Outcome α) : Prop :=
  ∀ outcome, step = .error outcome → Settled outcome

section Steps

variable {α β : Type} {step : Except Outcome α}

theorem complains_ok (a : α) : Complains (.ok a) := fun _ h => by cases h

theorem complains_failure (complaint : String) :
    Complains (.error (failure complaint) : Except Outcome α) := by
  rintro outcome h
  obtain rfl := Except.error.inj h
  exact .failure complaint

theorem Complains.bind (h : Complains step) {next : α → Except Outcome β}
    (hnext : ∀ a, Complains (next a)) : Complains (step >>= next) := by
  cases step with
  | ok a => exact hnext a
  | error outcome => exact fun _ hfailed => h _ (congrArg _ (Except.error.inj hfailed))

theorem Complains.settle (h : Complains step) {next : α → Except Outcome Outcome}
    (hnext : ∀ a, Settled (settle (next a))) : Settled (CommandLine.settle (step >>= next)) := by
  cases step with
  | ok a => exact hnext a
  | error outcome => exact h outcome rfl

end Steps

theorem complains_document (label raw : String) : Complains (document label raw) := by
  unfold document
  split
  · exact complains_ok _
  · exact complains_failure _

theorem complains_frames (raw : Option String) : Complains (frames raw) := by
  cases raw with
  | none => exact complains_ok []
  | some raw =>
    refine (complains_document "frames" raw).bind fun v => ?_
    split
    · exact complains_ok _
    · exact complains_failure _

theorem complains_mapM_document (label : String) (raw : Option String) :
    Complains (raw.mapM (document label)) := by
  cases raw with
  | none => exact complains_ok none
  | some raw => exact (complains_document label raw).bind fun v => complains_ok (some v)

theorem settled_resolve (a : Arguments) : Settled (resolve a) :=
  (complains_document _ _).settle fun _ => (complains_frames _).settle fun _ => .success _

theorem settled_patch (a : Arguments) : Settled (patch a) :=
  (complains_document _ _).settle fun _ => (complains_document _ _).settle fun _ =>
    (complains_mapM_document _ _).settle fun _ => .success _

theorem settled_eval (a : Arguments) : Settled (eval a) := by
  refine (complains_document _ _).settle fun context => ?_
  dsimp only
  split
  · exact .success _
  · exact .failure _

theorem settled_command {name : String} {usage : Usage} {command : Arguments → Outcome}
    (h : command? name = some (usage, command)) (a : Arguments) : Settled (command a) := by
  unfold command? at h
  split at h
  · obtain ⟨-, rfl⟩ := Prod.mk.inj (Option.some.inj h)
    exact settled_resolve a
  · obtain ⟨-, rfl⟩ := Prod.mk.inj (Option.some.inj h)
    exact settled_patch a
  · obtain ⟨-, rfl⟩ := Prod.mk.inj (Option.some.inj h)
    exact .success _
  · obtain ⟨-, rfl⟩ := Prod.mk.inj (Option.some.inj h)
    exact settled_eval a
  · cases h

/-! ## Command lines -/

/-- The command line calls a command, with what that takes. -/
def Calls (args : List String) (command : Arguments → Outcome) (a : Arguments) : Prop :=
  ∃ name rest usage, args.dropWhile Arguments.isVerbosity = name :: rest ∧
    command? name = some (usage, command) ∧ Arguments.parse? usage rest = some a

theorem run_of_calls {args : List String} {command : Arguments → Outcome} {a : Arguments}
    (h : Calls args command a) : run args = command a := by
  obtain ⟨name, rest, usage, hargs, hcommand, hparse⟩ := h
  simp only [run, hargs, hcommand, hparse]

theorem run_of_not_calls {args : List String} (h : ¬∃ command a, Calls args command a) :
    run args = misuse := by
  unfold run
  split
  · rfl
  · rename_i name rest hargs
    split
    · rfl
    · rename_i usage command hcommand
      split
      · rename_i a hparse
        exact absurd ⟨command, a, name, rest, usage, hargs, hcommand, hparse⟩ h
      · rfl

theorem run_cases (args : List String) :
    Settled (run args) ∨ run args = misuse ∧ ¬∃ command a, Calls args command a := by
  by_cases h : ∃ command a, Calls args command a
  · obtain ⟨command, a, hcalls⟩ := h
    have hrun := run_of_calls hcalls
    obtain ⟨name, rest, usage, -, hcommand, -⟩ := hcalls
    exact .inl (hrun ▸ settled_command hcommand a)
  · exact .inr ⟨run_of_not_calls h, h⟩

theorem run_prints_iff (args : List String) :
    (run args).output ≠ [] ↔ (run args).status = 0 := by
  rcases run_cases args with hsettled | ⟨hmisuse, -⟩
  · exact hsettled.prints_iff
  · rw [hmisuse]
    decide

theorem run_status_eq_two_iff (args : List String) :
    (run args).status = 2 ↔ ¬∃ command a, Calls args command a := by
  constructor
  · rcases run_cases args with hsettled | ⟨-, hcalls⟩
    · intro htwo
      have hle := hsettled.status_le
      omega
    · exact fun _ => hcalls
  · intro h
    rw [run_of_not_calls h]
    rfl

end DataBinding.CommandLine
