import DataBinding.Eval.Basic
import DataBinding.Proofs.Expr.RoundTrip

/-!
# The printed form has the same value

Printing an expression changes which functions and methods are called, and in which order the two
sides of a membership are evaluated. Where an evaluation succeeds, the plain form evaluates to the
same result, unless objects were asked for their size or for membership: objects have neither a
length nor a method `includes`.

Results:
* `mem_of_qualified`: the properties that are functions of a namespace.
* `eval_plainMember`, `eval_plainMembership`, `keeps_call`: the parts that change.
* `keeps`: the plain form has the value of the expression.
* `tryEvaluate_text`: so has the text of the expression.
-/

namespace DataBinding

open Text (isDigit digitsOf)

/-! ## Successful evaluations -/

/-- The value that an evaluation gives is an object. -/
def givesObject : Except EvalError (Option Value) → Bool
  | .ok (some (.object _)) => true
  | _ => false

namespace Expr

/-! ## What is asked of objects -/

mutual

/-- All properties of digits are numbers in their shortest form, up to `2 ^ 53`. -/
def canonical : Expr → Bool
  | literal _ | undefined | ident _ => true
  | array items => canonicalAll items
  | member object property =>
    canonical object &&
      (!property.toList.all isDigit ||
        (property.toList == digitsOf (Text.digitsValue property.toList) &&
          Text.digitsValue property.toList < significandBound))
  | index object key => canonical object && canonical key
  | call callee args => canonical callee && canonicalAll args
  | unary _ operand => canonical operand
  | binary _ left right => canonical left && canonical right
  | membership _ needle haystack => canonical needle && canonical haystack
  | conditional test consequent alternate =>
    canonical test && canonical consequent && canonical alternate

def canonicalAll : List Expr → Bool
  | [] => true
  | e :: rest => canonical e && canonicalAll rest

end

/-- The argument of a call of the function `len`. -/
def measured? : Expr → List Expr → Option Expr
  | ident "len", [e] => some e
  | _, _ => none

mutual

/-- Among the parts that are evaluated, no object is the argument of `len` or the right side of a
    membership. -/
def sparesObjects (env : Environment) : Expr → Bool
  | literal _ | undefined | ident _ => true
  | array items => sparesObjectsAll env items
  | member object _ => sparesObjects env object
  | index object key => sparesObjects env object && sparesObjects env key
  | call callee args =>
    (match callee with
      | member object _ => sparesObjects env object
      | _ => true) &&
      sparesObjectsAll env args &&
      (measured? callee args).all fun e => !givesObject (eval env e)
  | unary _ operand => sparesObjects env operand
  | binary op left right =>
    sparesObjects env left &&
      match eval env left with
      | .ok l => op.settledBy l || sparesObjects env right
      | .error _ => true
  | membership _ needle haystack =>
    sparesObjects env needle && sparesObjects env haystack && !givesObject (eval env haystack)
  | conditional test consequent alternate =>
    sparesObjects env test &&
      match eval env test with
      | .ok t =>
        if Value.truthy t then sparesObjects env consequent else sparesObjects env alternate
      | .error _ => true

def sparesObjectsAll (env : Environment) : List Expr → Bool
  | [] => true
  | e :: rest => sparesObjects env e && sparesObjectsAll env rest

end

end Expr

/-! ## Functions of a namespace -/

theorem toList_qualified (space property : String) :
    s!"{space}.{property}".toList = space.toList ++ '.' :: property.toList := by
  show (space ++ "." ++ property).toList = _
  simp

theorem mem_of_suffix_name {f : Builtin} {property : List Char}
    (h : '.' :: property <:+ f.name.toList) :
    property ∈ ["isArray".toList, "keys".toList, "values".toList] := by
  cases f <;> simp [Builtin.name, List.suffix_cons_iff] at h ⊢ <;> simp [h]

/-- Only these properties make a function with the name of a namespace in front. -/
theorem mem_of_qualified {registry : Registry} {space property : String}
    (h : (registry.find? s!"{space}.{property}").isSome = true) :
    property.toList ∈ ["isArray".toList, "keys".toList, "values".toList] := by
  obtain ⟨f, hf⟩ := Option.isSome_iff_exists.1 h
  have hname : f.name = s!"{space}.{property}" := by simpa using List.find?_some hf
  refine mem_of_suffix_name (f := f) ⟨space.toList, ?_⟩
  rw [hname, toList_qualified]

theorem functionName?_member {env : Environment} {object : Expr} {property name : String}
    (h : env.functionName? (.member object property) = some name) :
    property.toList ∈ ["isArray".toList, "keys".toList, "values".toList] := by
  unfold Environment.functionName? at h
  split at h
  · rename_i he
    cases he
  · rename_i space property' he
    obtain ⟨-, rfl⟩ := Expr.member.inj he
    dsimp only at h
    split at h
    · rename_i hf
      simp only [Bool.and_eq_true] at hf
      exact mem_of_qualified hf.2
    · cases h
  · cases h

/-- No function is called for a property of digits, or for `includes`. -/
theorem functionName?_member_eq_none (env : Environment) (object : Expr) {property : String}
    (h : property.toList ∉ ["isArray".toList, "keys".toList, "values".toList]) :
    env.functionName? (.member object property) = none := by
  cases hf : env.functionName? (.member object property) with
  | none => rfl
  | some name => exact absurd (functionName?_member hf) h

theorem not_all_isDigit {property : List Char}
    (h : property ∈ ["isArray".toList, "keys".toList, "values".toList]) :
    property.all isDigit = false := by
  simp only [List.mem_cons, List.not_mem_nil, or_false] at h
  rcases h with rfl | rfl | rfl <;> decide

/-! ## Methods and properties -/

theorem noMethod_of_digits {property : String} (h : property.toList.all isDigit = true)
    (receiver : Value) (args : List (Option Value)) : receiver.method? property args = none := by
  unfold Value.method?
  split
  all_goals first | rfl | exact absurd h (by decide)

theorem callMethod_ne_ok_of_digits {property : String} (h : property.toList.all isDigit = true)
    (receiver : Option Value) (args : List (Option Value)) (v : Value) :
    callMethod receiver property args ≠ .ok v := by
  intro hc
  unfold callMethod at hc
  split at hc
  · cases hc
  · rename_i receiver
    split at hc
    · cases hc
    · rw [noMethod_of_digits h receiver args] at hc
      cases hc

/-- On texts and arrays, `includes` is membership; on every other value but an object, both fail. -/
theorem callMethod_includes {haystack needle : Option Value} {found : Bool}
    (h : contains haystack needle = .ok found) (ho : givesObject (.ok haystack) = false) :
    callMethod haystack "includes" [needle] = .ok (.bool found) := by
  cases haystack with
  | none => simp [contains] at h
  | some v =>
    cases v with
    | object fields => simp [givesObject] at ho
    | array items | text s =>
      simp only [callMethod, Value.isNull, Value.method?, List.head?_cons, Option.join_some, h,
        Except.map, Option.getD_some, Bool.false_eq_true, if_false]
    | null | bool b | number n => simp [contains] at h

theorem readProperty_length {v : Option Value} {size : Value}
    (h : Builtin.sizeOf? v = .ok size) (ho : givesObject (.ok v) = false) :
    readProperty v "length" = .ok (some size) := by
  cases v with
  | none => simp [Builtin.sizeOf?] at h
  | some v =>
    cases v with
    | object fields => simp [givesObject] at ho
    | array items | text s =>
      obtain rfl := Except.ok.inj h
      simp [readProperty, Value.isNull, Value.property?]
    | null | bool b | number n => simp [Builtin.sizeOf?] at h

theorem keyText_digitsLiteral {digits : List Char} (h : digits = digitsOf (Text.digitsValue digits))
    (hlt : Text.digitsValue digits < significandBound) :
    keyText (some (.ofNat (Text.digitsValue digits))) = String.ofList digits := by
  rw [Value.ofNat, keyText, numberKey_ofNat (Nat.le_of_lt hlt), ← h]

namespace Expr

variable {env : Environment}

/-! ## Calls -/

theorem evalAll_singleton {e : Expr} {values : List (Option Value)} :
    evalAll env [e] = .ok values ↔ ∃ v, eval env e = .ok v ∧ values = [v] := by
  simp only [evalAll, bind_eq_ok]
  constructor
  · rintro ⟨v, hv, vs, hvs, hr⟩
    obtain rfl := Except.ok.inj hvs
    exact ⟨v, hv, (Except.ok.inj hr).symm⟩
  · rintro ⟨v, hv, rfl⟩
    exact ⟨v, hv, [], rfl, rfl⟩

theorem eval_member {object : Expr} {property : String} {target r : Option Value}
    (ho : eval env object = .ok target) (hr : readProperty target property = .ok r) :
    eval env (member object property) = .ok r := by
  simp only [eval, ho, ok_bind, hr]

theorem functionName?_desugar (object : Expr) (property : String) :
    env.functionName? (member object.desugar property) =
      env.functionName? (member object property) := by
  cases object with
  | ident name => rfl
  | member object inner =>
    rw [desugar, plainMember]
    split <;> rfl
  | call callee args =>
    rw [desugar, plainCall.eq_def]
    split <;> rfl
  | membership negated needle haystack => cases negated <;> rfl
  | _ => rfl

theorem desugar_member {object : Expr} {property : String}
    (h : property.toList.all isDigit = false) :
    desugar (member object property) = member object.desugar property := by
  rw [desugar, plainMember, if_neg (by simp [h])]

/-- A callee calls the same function in its plain form. -/
theorem functionName?_desugar_of_some {callee : Expr} {name : String}
    (h : env.functionName? callee = some name) : env.functionName? callee.desugar = some name := by
  cases callee with
  | ident name => exact h
  | member object property =>
    rw [desugar_member (not_all_isDigit (functionName?_member h)), functionName?_desugar]
    exact h
  | _ => cases h

/-- The two registries of engines have both `str` and `String`, or neither. -/
theorem select_String (hreg : env.registry = .standard ∨ env.registry = .empty) {count : Nat}
    {f : Builtin} (h : env.registry.select "str" count = .ok f) :
    f = .str ∧ env.registry.select "String" count = .ok .string := by
  rcases hreg with hreg | hreg
  · rw [hreg] at h ⊢
    have hstr : Registry.standard.find? "str" = some .str := by decide
    have hstring : Registry.standard.find? "String" = some .string := by decide
    simp only [Registry.select, hstr, hstring] at h ⊢
    split at h
    · rename_i harity
      exact ⟨(Except.ok.inj h).symm, if_pos harity⟩
    · cases h
  · rw [hreg] at h
    cases h

theorem eq_len_of_select {registry : Registry} {count : Nat} {f : Builtin}
    (h : registry.select "len" count = .ok f) : f = .len := by
  unfold Registry.select at h
  split at h
  · cases h
  · rename_i g hg
    have hname : g.name = "len" := by simpa using List.find?_some hg
    split at h
    · obtain rfl := Except.ok.inj h
      exact Builtin.name_injective hname
    · cases h

/-! ## The parts that change -/

theorem eval_plainMember {object : Expr} {property : String} {target r : Option Value}
    (ho : eval env object = .ok target) (hr : readProperty target property = .ok r)
    (hc : property.toList.all isDigit = true →
      property.toList = digitsOf (Text.digitsValue property.toList) ∧
        Text.digitsValue property.toList < significandBound) :
    eval env (plainMember object property) = .ok r := by
  rw [plainMember]
  split
  · rename_i hdigits
    obtain ⟨hcanonical, hlt⟩ := hc hdigits
    have hkey := keyText_digitsLiteral hcanonical hlt
    rw [String.ofList_toList] at hkey
    simp only [eval, ho, digitsLiteral, ok_bind, hkey, hr]
  · exact eval_member ho hr

theorem eval_plainMembership (negated : Bool) {needle haystack : Expr} {n h : Option Value}
    {found : Bool} (hn : eval env needle = .ok n) (hh : eval env haystack = .ok h)
    (hf : contains h n = .ok found) (ho : givesObject (.ok h) = false) :
    eval env (plainMembership negated needle haystack) = .ok (some (.bool (found != negated))) := by
  have hnone : env.functionName? (member haystack "includes") = none :=
    functionName?_member_eq_none env haystack (by decide)
  have hargs : evalAll env [needle] = .ok [n] := evalAll_singleton.2 ⟨n, hn, rfl⟩
  have hcall : eval env (call (member haystack "includes") [needle]) = .ok (some (.bool found)) :=
    eval_call_iff.2 ⟨_, rfl, .method hnone hh hargs (callMethod_includes hf ho)⟩
  cases negated with
  | false => simpa [plainMembership] using hcall
  | true =>
    simp only [plainMembership, if_true, eval, hcall, ok_bind]
    cases found <;> rfl

/-- An expression keeps its value in its plain form, if it spares objects. -/
def Keeps (env : Environment) (e : Expr) : Prop :=
  ∀ r, eval env e = .ok r → sparesObjects env e = true → eval env e.desugar = .ok r

def KeepsAll (env : Environment) (es : List Expr) : Prop :=
  ∀ vs, evalAll env es = .ok vs → sparesObjectsAll env es = true →
    evalAll env (desugarAll es) = .ok vs

/-- The callee of a method call is not evaluated as such; only its object is. -/
theorem keeps_call (hreg : env.registry = .standard ∨ env.registry = .empty) {callee : Expr}
    {args : List Expr} (hc : ∀ object property, callee = member object property → Keeps env object)
    (hargs : KeepsAll env args) : Keeps env (call callee args) := by
  intro r hr hs
  obtain ⟨v, rfl, hcalls⟩ := eval_call_iff.1 hr
  rw [sparesObjects.eq_def] at hs
  simp only [Bool.and_eq_true] at hs
  obtain ⟨⟨hcallee, hall⟩, hlen⟩ := hs
  rw [desugar]
  cases callForm callee args with
  | length e =>
    cases hcalls with
    | function hn hf ha hv =>
      obtain rfl : "len" = _ := Option.some.inj hn
      obtain rfl := eq_len_of_select hf
      have hplain := hargs _ ha hall
      obtain ⟨target, he, rfl⟩ := evalAll_singleton.1 ha
      obtain ⟨target', he', hone⟩ := evalAll_singleton.1 hplain
      obtain rfl : target = target' := by simpa using hone
      have ho : givesObject (.ok target) = false := by simpa [measured?, he] using hlen
      exact eval_member he' (readProperty_length hv ho)
  | string args =>
    cases hcalls with
    | function hn hf ha hv =>
      obtain rfl : "str" = _ := Option.some.inj hn
      obtain ⟨rfl, hstring⟩ := select_String hreg hf
      rw [← length_desugarAll] at hstring
      exact eval_call_iff.2 ⟨v, rfl, .function rfl hstring (hargs _ ha hall) hv⟩
  | other _ hp =>
    rw [hp _ _ (length_desugarAll args)]
    cases hcalls with
    | function hn hf ha hv =>
      rw [← length_desugarAll] at hf
      exact eval_call_iff.2
        ⟨v, rfl, .function (functionName?_desugar_of_some hn) hf (hargs _ ha hall) hv⟩
    | @method object property receiver values hn ho ha hv =>
      have hdigits : property.toList.all isDigit = false := by
        rw [Bool.eq_false_iff]
        intro hdigits
        exact callMethod_ne_ok_of_digits hdigits receiver values v hv
      rw [desugar_member hdigits]
      refine eval_call_iff.2 ⟨v, rfl, .method ?_ (hc object property rfl _ ho hcallee)
        (hargs _ ha hall) hv⟩
      rw [functionName?_desugar]
      exact hn

/-! ## Every expression -/

theorem keeps_member {object : Expr} {property : String} (h : Keeps env object)
    (hc : canonical (member object property) = true) : Keeps env (member object property) := by
  intro r hr hs
  simp only [eval, bind_eq_ok] at hr
  obtain ⟨target, ho, hr⟩ := hr
  rw [desugar]
  refine eval_plainMember (h _ ho (by simpa [sparesObjects] using hs)) hr fun hdigits => ?_
  simp only [canonical, Bool.and_eq_true] at hc
  simpa [hdigits] using hc.2

theorem keeps_binary (op : BinaryOp) {left right : Expr} (hl : Keeps env left)
    (hr : Keeps env right) : Keeps env (binary op left right) := by
  intro r h hs
  simp only [eval, bind_eq_ok] at h
  obtain ⟨l, hleft, h⟩ := h
  simp only [sparesObjects, hleft, Bool.and_eq_true, Bool.or_eq_true] at hs
  rw [desugar]
  simp only [eval, hl _ hleft hs.1, ok_bind]
  split at h
  · rename_i hsettled
    rw [if_pos hsettled]
    exact h
  · rename_i hsettled
    obtain ⟨v, hright, h⟩ := bind_eq_ok.1 h
    rw [if_neg hsettled, hr _ hright (hs.2.resolve_left hsettled), ok_bind]
    exact h

theorem keeps_membership (negated : Bool) {needle haystack : Expr} (hn : Keeps env needle)
    (hh : Keeps env haystack) : Keeps env (membership negated needle haystack) := by
  intro r h hs
  simp only [eval, bind_eq_ok] at h
  obtain ⟨n, hneedle, v, hhaystack, found, hfound, hr⟩ := h
  obtain rfl := Except.ok.inj hr
  simp only [sparesObjects, hhaystack, Bool.and_eq_true, Bool.not_eq_true'] at hs
  rw [desugar]
  exact eval_plainMembership negated (hn _ hneedle hs.1.1) (hh _ hhaystack hs.1.2) hfound hs.2

theorem keeps_conditional {test consequent alternate : Expr} (ht : Keeps env test)
    (hc : Keeps env consequent) (ha : Keeps env alternate) :
    Keeps env (conditional test consequent alternate) := by
  intro r h hs
  simp only [eval, bind_eq_ok] at h
  obtain ⟨t, htest, h⟩ := h
  simp only [sparesObjects, htest, Bool.and_eq_true] at hs
  rw [desugar]
  simp only [eval, ht _ htest hs.1, ok_bind]
  split at h
  · rename_i htrue
    rw [if_pos htrue] at hs ⊢
    exact hc _ h hs.2
  · rename_i hfalse
    rw [if_neg hfalse] at hs ⊢
    exact ha _ h hs.2

mutual

theorem keeps (hreg : env.registry = .standard ∨ env.registry = .empty) :
    ∀ e : Expr, e.canonical = true → Keeps env e
  | literal _, _ | undefined, _ | ident _, _ => fun _ h _ => h
  | array items, hc => by
    intro r h hs
    have hitems := keepsAll hreg items (by simpa [canonical] using hc)
    simp only [eval, bind_eq_ok] at h
    obtain ⟨values, hvalues, h⟩ := h
    rw [desugar]
    simp only [eval, hitems _ hvalues (by simpa [sparesObjects] using hs), ok_bind]
    exact h
  | member object property, hc => by
    have ho : object.canonical = true := by
      simp only [canonical, Bool.and_eq_true] at hc
      exact hc.1
    exact keeps_member (keeps hreg object ho) hc
  | index object key, hc => by
    intro r h hs
    simp only [canonical, sparesObjects, Bool.and_eq_true] at hc hs
    simp only [eval, bind_eq_ok] at h
    obtain ⟨target, ho, k, hk, h⟩ := h
    rw [desugar]
    simp only [eval, keeps hreg object hc.1 _ ho hs.1, keeps hreg key hc.2 _ hk hs.2, ok_bind]
    exact h
  | call callee args, hc => by
    simp only [canonical, Bool.and_eq_true] at hc
    refine keeps_call hreg (fun object property he => ?_) (keepsAll hreg args hc.2)
    match callee, hc, he with
    | member object' _, hc, he =>
      obtain ⟨rfl, -⟩ := Expr.member.inj he
      simp only [canonical, Bool.and_eq_true] at hc
      exact keeps hreg object' hc.1.1
  | unary op operand, hc => by
    intro r h hs
    have ho := keeps hreg operand (by simpa [canonical] using hc)
    simp only [eval, bind_eq_ok] at h
    obtain ⟨v, hv, h⟩ := h
    rw [desugar]
    simp only [eval, ho _ hv (by simpa [sparesObjects] using hs), ok_bind]
    exact h
  | binary op left right, hc => by
    simp only [canonical, Bool.and_eq_true] at hc
    exact keeps_binary op (keeps hreg left hc.1) (keeps hreg right hc.2)
  | membership negated needle haystack, hc => by
    simp only [canonical, Bool.and_eq_true] at hc
    exact keeps_membership negated (keeps hreg needle hc.1) (keeps hreg haystack hc.2)
  | conditional test consequent alternate, hc => by
    simp only [canonical, Bool.and_eq_true] at hc
    exact keeps_conditional (keeps hreg test hc.1.1) (keeps hreg consequent hc.1.2)
      (keeps hreg alternate hc.2)

theorem keepsAll (hreg : env.registry = .standard ∨ env.registry = .empty) :
    ∀ es : List Expr, canonicalAll es = true → KeepsAll env es
  | [], _ => fun _ h _ => h
  | e :: rest, hc => by
    intro vs h hs
    simp only [canonicalAll, sparesObjectsAll, Bool.and_eq_true] at hc hs
    simp only [evalAll, bind_eq_ok] at h
    obtain ⟨v, hv, values, hvalues, h⟩ := h
    rw [desugarAll]
    simp only [evalAll, keeps hreg e hc.1 _ hv hs.1, keepsAll hreg rest hc.2 _ hvalues hs.2,
      ok_bind]
    exact h

end

end Expr

/-- Wherever an expression has a value and spares objects, its text has the same value. -/
theorem Environment.tryEvaluate_text {env : Environment}
    (hreg : env.registry = .standard ∨ env.registry = .empty) {e : Expr} {r : Option Value}
    (hw : e.wellFormed = true) (hc : e.canonical = true) (hh : 3 * e.height < Expr.maxNesting)
    (ho : e.desugar.operators ≤ Expr.maxOperators) (hr : e.eval env = .ok r)
    (hs : e.sparesObjects env = true) : env.tryEvaluate e.text = .ok r := by
  rw [tryEvaluate, Expr.trim_text hw, Expr.parse_text hw (Expr.depth_le_maxNesting hh) ho]
  exact Expr.keeps hreg e hc r hr hs

/-- An index of digits, `str`, a membership and `len`, each with another text. -/
theorem Environment.tryEvaluate_text_branches :
    (Environment.mk
        ⟨[], [("rows", .array [.text "x"]), ("tags", .text "abc")]⟩ .standard).tryEvaluate
        "(!(tags).includes(String(rows[0])) ? (rows).length : null)".toList =
      .ok (some (.ofNat 1)) :=
  tryEvaluate_text (.inl rfl) (e := .conditional
      (.membership true (.call (.ident "str") [.member (.ident "rows") "0"]) (.ident "tags"))
      (.call (.ident "len") [.ident "rows"]) (.literal .null))
    (by decide) (by decide) (by decide) (by decide) rfl rfl

end DataBinding
