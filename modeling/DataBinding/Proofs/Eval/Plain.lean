import DataBinding.Eval.Basic
import DataBinding.Proofs.Expr.Built
import DataBinding.Proofs.Value.Plain

/-!
# Plain variables give plain values

An expression that the reader accepts has no containers among its literals. All it can do with its
variables is to take them apart, to collect values in an array and to compute scalars, so if its
variables are plain its value is.

Results:
* `all_isPlain_readProperty`, `isPlain_callMethod`, `Builtin.isPlain_call`: the parts that give
  values.
* `plain_ofFrames`: the variables of a plain context and plain frames.
* `Operand.evaluatesPlain`, `Whole.evaluatesPlain`: the value of an expression that was read.
* `all_isPlain_evaluate`: the value of a text.
-/

namespace DataBinding

open Value

/-! ## Properties, methods and functions -/

theorem Value.all_isPlain_property? {v : Value} (h : v.isPlain = true) (key : String) :
    (v.property? key).all isPlain = true := by
  cases v with
  | object fields => exact all_isPlain_field (isPlain_object.1 h).2 key
  | array items =>
    rw [property?]
    split
    · rfl
    cases elementIndex? key with
    | none => rfl
    | some i => exact all_isPlain_item (isPlain_array.1 h) i
  | text s =>
    rw [property?]
    split <;> rfl
  | null | bool b | number n => rfl

theorem all_isPlain_readProperty {target r : Option Value} {key : String}
    (h : readProperty target key = .ok r) (ht : target.all isPlain = true) :
    r.all isPlain = true := by
  cases target with
  | none => cases h
  | some v =>
    rw [readProperty] at h
    split at h
    · cases h
    · rw [← Except.ok.inj h]
      exact all_isPlain_property? ht key

theorem isPlain_sum (a b : Option Value) : (sum a b).isPlain = true := by
  rw [sum]
  split
  · rfl
  · exact isPlain_ofDouble _

theorem UnaryOp.isPlain_apply (op : UnaryOp) (v : Option Value) :
    (op.apply v).isPlain = true := by
  cases op with
  | not => rfl
  | neg | plus => exact isPlain_ofDouble _

theorem BinaryOp.all_isPlain_apply (op : BinaryOp) (a : Option Value) {b : Option Value}
    (hb : b.all isPlain = true) : (op.apply a b).all isPlain = true := by
  cases op with
  | or | and => exact hb
  | strictEq | strictNe | eq | ne | lt | le | gt | ge => rfl
  | add => exact isPlain_sum a b
  | sub | mul | div | rem => exact isPlain_ofDouble _

/-- Methods only give texts and truth values. -/
theorem isPlain_method? {receiver : Value} {name : String} {args : List (Option Value)} {v : Value}
    (h : receiver.method? name args = some (.ok v)) : v.isPlain = true := by
  unfold Value.method? at h
  split at h
  all_goals cases h
  all_goals rfl

theorem isPlain_callMethod {receiver : Option Value} {name : String} {args : List (Option Value)}
    {v : Value} (h : callMethod receiver name args = .ok v) : v.isPlain = true := by
  cases receiver with
  | none => cases h
  | some receiver =>
    rw [callMethod] at h
    split at h
    · cases h
    cases hm : receiver.method? name args with
    | none =>
      rw [hm] at h
      cases h
    | some result =>
      rw [hm, Option.getD_some] at h
      rw [h] at hm
      exact isPlain_method? hm

namespace Builtin

theorem isPlain_sizeOf? {a : Option Value} {v : Value} (h : sizeOf? a = .ok v) :
    v.isPlain = true := by
  unfold sizeOf? at h
  split at h
  all_goals cases h
  all_goals rfl

theorem isPlain_integerOf {a : Option Value} {v : Value} (h : integerOf a = .ok v) :
    v.isPlain = true := by
  simp only [integerOf] at h
  split at h
  · rw [← Except.ok.inj h]
    exact isPlain_ofDouble _
  · cases h

theorem isPlain_keysOf {a : Option Value} {items : List Value} (h : keysOf a = .ok items) :
    (array items).isPlain = true := by
  rw [isPlain_array]
  intro v hv
  unfold keysOf at h
  split at h
  · rw [← Except.ok.inj h, List.mem_map] at hv
    obtain ⟨f, -, rfl⟩ := hv
    rfl
  · rw [← Except.ok.inj h, List.mem_map] at hv
    obtain ⟨i, -, rfl⟩ := hv
    rfl
  · cases h
  · cases h
  · rw [← Except.ok.inj h] at hv
    cases hv

theorem isPlain_valuesOf {a : Option Value} {items : List Value} (h : valuesOf a = .ok items)
    (ha : a.all isPlain = true) : (array items).isPlain = true := by
  unfold valuesOf at h
  split at h
  · rw [← Except.ok.inj h, isPlain_array]
    intro v hv
    obtain ⟨f, hf, rfl⟩ := List.mem_map.1 hv
    exact (isPlain_object.1 ha).2 f hf
  · rw [← Except.ok.inj h]
    exact ha
  · cases h
  · cases h
  · rw [← Except.ok.inj h]
    rfl

theorem isPlain_map_array {result : Except EvalError (List Value)} {v : Value}
    (h : result.map array = .ok v)
    (hp : ∀ items, result = .ok items → (array items).isPlain = true) : v.isPlain = true := by
  cases result with
  | error e => cases h
  | ok items =>
    rw [← Except.ok.inj h]
    exact hp items rfl

theorem isPlain_call {f : Builtin} {args : List (Option Value)} {v : Value}
    (h : f.call args = .ok v) (ha : ∀ a ∈ args, a.all isPlain = true) : v.isPlain = true := by
  have hfirst : args.head?.join.all isPlain = true := by
    cases args with
    | nil => rfl
    | cons a rest => exact ha a List.mem_cons_self
  cases f with
  | string | str | boolean | isArray =>
    rw [← Except.ok.inj h]
    rfl
  | number =>
    rw [← Except.ok.inj h]
    split
    · rfl
    · exact isPlain_ofDouble _
  | len => exact isPlain_sizeOf? h
  | int => exact isPlain_integerOf h
  | keys => exact isPlain_map_array h fun _ hitems => isPlain_keysOf hitems
  | values => exact isPlain_map_array h fun _ hitems => isPlain_valuesOf hitems hfirst

end Builtin

/-! ## Variables -/

namespace Scope

/-- All variables have plain values. -/
structure Plain (scope : Scope) : Prop where
  locals : ∀ f ∈ scope.locals, f.2.isPlain = true
  globals : ∀ f ∈ scope.globals, f.2.isPlain = true

theorem Plain.lookup? {scope : Scope} (h : scope.Plain) (name : String) :
    (scope.lookup? name).all isPlain = true :=
  all_isPlain_or (all_isPlain_field h.locals name) (all_isPlain_field h.globals name)

theorem plain_ofContext {context : Value} (h : context.isPlain = true) :
    (ofContext context).Plain where
  locals := by
    intro f hf
    cases hf
  globals := by
    cases context with
    | object fields => exact (isPlain_object.1 h).2
    | null | bool b | number n | text s | array items =>
      intro f hf
      cases hf

theorem Plain.bind {scope : Scope} (h : scope.Plain) (name : String) {value : Value}
    (hv : value.isPlain = true) : (scope.bind name value).Plain where
  locals := List.forall_mem_cons.2 ⟨hv, h.locals⟩
  globals := h.globals

theorem Plain.enter {scope : Scope} (h : scope.Plain) (default : String) {frame : Frame}
    (hf : frame.item.isPlain = true) : (scope.enter default frame).Plain := by
  have hitem := h.bind (frame.name default) hf
  simp only [Scope.enter]
  cases frame.index with
  | none =>
    cases frame.total with
    | none => exact hitem
    | some n => exact hitem.bind _ rfl
  | some i =>
    have hindex : ((scope.bind (frame.name default) frame.item).bind (frame.indexName default)
        (.ofNat i)).Plain := hitem.bind _ rfl
    cases frame.total with
    | none => exact hindex
    | some n => exact hindex.bind _ rfl

theorem Plain.foldl_enter {scope : Scope} (h : scope.Plain) (default : String)
    {frames : List Frame} (hf : ∀ frame ∈ frames, frame.item.isPlain = true) :
    (frames.foldl (Scope.enter default) scope).Plain := by
  induction frames generalizing scope with
  | nil => exact h
  | cons frame rest ih =>
    obtain ⟨hframe, hrest⟩ := List.forall_mem_cons.1 hf
    exact ih (h.enter default hframe) hrest

theorem plain_ofFrames {context : Value} {frames : List Frame} (hc : context.isPlain = true)
    (hf : ∀ frame ∈ frames, frame.item.isPlain = true) (default : String) :
    (ofFrames context frames default).Plain :=
  (plain_ofContext hc).foldl_enter default hf

end Scope

/-! ## Expressions -/

namespace Expr

/-- The value of the expression, if there is one, is plain. -/
def EvaluatesPlain (env : Environment) (e : Expr) : Prop :=
  ∀ r, eval env e = .ok r → r.all isPlain = true

def EvaluatesAllPlain (env : Environment) (es : List Expr) : Prop :=
  ∀ values, evalAll env es = .ok values → ∀ r ∈ values, r.all isPlain = true

variable {env : Environment}

/-- A method gives a scalar whatever it is called on, so only arguments matter. -/
theorem evaluatesPlain_call {callee : Expr} {args : List Expr}
    (ha : EvaluatesAllPlain env args) : EvaluatesPlain env (call callee args) := by
  intro r hr
  obtain ⟨v, rfl, hcalls⟩ := eval_call_iff.1 hr
  cases hcalls with
  | function hn hf hargs hv => exact Builtin.isPlain_call hv (ha _ hargs)
  | method hn ho hargs hv => exact isPlain_callMethod hv

theorem evaluatesPlain_array {items : List Expr} (h : EvaluatesAllPlain env items) :
    EvaluatesPlain env (array items) := by
  intro r hr
  simp only [eval, bind_eq_ok] at hr
  obtain ⟨values, hvalues, hr⟩ := hr
  rw [← Except.ok.inj hr, Option.all_some, isPlain_array]
  intro v hv
  obtain ⟨a, ha, rfl⟩ := List.mem_map.1 hv
  exact isPlain_getD_null (h values hvalues a ha)

theorem evaluatesPlain_member {object : Expr} (h : EvaluatesPlain env object)
    (property : String) : EvaluatesPlain env (member object property) := by
  intro r hr
  simp only [eval, bind_eq_ok] at hr
  obtain ⟨target, ho, hr⟩ := hr
  exact all_isPlain_readProperty hr (h target ho)

theorem evaluatesPlain_index {object : Expr} (h : EvaluatesPlain env object) (key : Expr) :
    EvaluatesPlain env (index object key) := by
  intro r hr
  simp only [eval, bind_eq_ok] at hr
  obtain ⟨target, ho, k, -, hr⟩ := hr
  exact all_isPlain_readProperty hr (h target ho)

theorem evaluatesPlain_unary (op : UnaryOp) (operand : Expr) :
    EvaluatesPlain env (unary op operand) := by
  intro r hr
  simp only [eval, bind_eq_ok] at hr
  obtain ⟨v, -, hr⟩ := hr
  rw [← Except.ok.inj hr]
  exact op.isPlain_apply v

theorem evaluatesPlain_binary (op : BinaryOp) {left right : Expr}
    (hl : EvaluatesPlain env left) (hr : EvaluatesPlain env right) :
    EvaluatesPlain env (binary op left right) := by
  intro r h
  simp only [eval, bind_eq_ok] at h
  obtain ⟨a, hleft, h⟩ := h
  split at h
  · rw [← Except.ok.inj h]
    exact hl a hleft
  · obtain ⟨b, hright, h⟩ := bind_eq_ok.1 h
    rw [← Except.ok.inj h]
    exact op.all_isPlain_apply a (hr b hright)

theorem evaluatesPlain_membership (negated : Bool) (needle haystack : Expr) :
    EvaluatesPlain env (membership negated needle haystack) := by
  intro r hr
  simp only [eval, bind_eq_ok] at hr
  obtain ⟨n, -, h, -, found, -, hr⟩ := hr
  rw [← Except.ok.inj hr]
  rfl

theorem evaluatesPlain_conditional (test : Expr) {consequent alternate : Expr}
    (hc : EvaluatesPlain env consequent) (ha : EvaluatesPlain env alternate) :
    EvaluatesPlain env (conditional test consequent alternate) := by
  intro r hr
  simp only [eval, bind_eq_ok] at hr
  obtain ⟨t, -, hr⟩ := hr
  split at hr
  · exact hc r hr
  · exact ha r hr

-- By induction on the ways of building an expression: the keys of indices, the sides of memberships
-- and the objects of methods may have any value.
mutual

theorem Operand.evaluatesPlain (hs : env.scope.Plain) {d k k' : Nat} {e : Expr} :
    Operand d k e k' → EvaluatesPlain env e
  | .literal hv => by
    intro r hr
    rw [eval_literal] at hr
    rw [← Except.ok.inj hr]
    exact isPlain_of_not_isContainer hv
  | .undefined => by
    intro r hr
    rw [eval] at hr
    rw [← Except.ok.inj hr]
    rfl
  | .ident name => by
    intro r hr
    have hv := hs.lookup? name
    rw [eval] at hr
    split at hr
    · rename_i v hlookup
      rw [← Except.ok.inj hr, ← hlookup]
      exact hv
    · cases hr
  | .bracket h => h.evaluatesPlain hs
  | .array h => evaluatesPlain_array (h.evaluatesAllPlain hs)
  | .member property h _ => evaluatesPlain_member (h.evaluatesPlain hs) property
  | .index h _ _ => evaluatesPlain_index (h.evaluatesPlain hs) _
  | .call _ h _ => evaluatesPlain_call (h.evaluatesAllPlain hs)
  | .unary op _ => evaluatesPlain_unary op _
  | .binary op hl hr _ => evaluatesPlain_binary op (hl.evaluatesPlain hs) (hr.evaluatesPlain hs)
  | .membership negated _ _ _ => evaluatesPlain_membership negated _ _

theorem Whole.evaluatesPlain (hs : env.scope.Plain) {d k k' : Nat} {e : Expr} :
    Whole d k e k' → EvaluatesPlain env e
  | .operand h => h.evaluatesPlain hs
  | .branches _ hc ha =>
    evaluatesPlain_conditional _ (hc.evaluatesPlain hs) (ha.evaluatesPlain hs)
  | .condition hc _ ha =>
    evaluatesPlain_conditional _ (hc.evaluatesPlain hs) (ha.evaluatesPlain hs)

theorem Items.evaluatesAllPlain (hs : env.scope.Plain) {d k k' : Nat} {es : List Expr} :
    Items d k es k' → EvaluatesAllPlain env es
  | .nil => by
    intro values hvalues
    rw [← Except.ok.inj hvalues]
    intro r hr
    cases hr
  | .cons h hs' => by
    intro values hvalues
    simp only [evalAll, bind_eq_ok] at hvalues
    obtain ⟨v, hv, rest, hrest, hvalues⟩ := hvalues
    rw [← Except.ok.inj hvalues]
    exact List.forall_mem_cons.2
      ⟨h.evaluatesPlain hs v hv, hs'.evaluatesAllPlain hs rest hrest⟩

end

end Expr

/-! ## Texts -/

namespace Environment

theorem all_isPlain_tryEvaluate {env : Environment} (hs : env.scope.Plain) {input : List Char}
    {r : Option Value} (h : env.tryEvaluate input = .ok r) : r.all isPlain = true := by
  rw [tryEvaluate] at h
  split at h
  · rename_i e hparse
    obtain ⟨operators, hbuilt⟩ := Expr.whole_of_parse hparse
    exact hbuilt.evaluatesPlain hs r h
  · cases h

theorem all_isPlain_evaluate {env : Environment} (hs : env.scope.Plain) (input : List Char) :
    (env.evaluate input).all isPlain = true := by
  rw [evaluate]
  split
  · rename_i r h
    exact all_isPlain_tryEvaluate hs h
  · rfl

end Environment

end DataBinding
