import DataBinding.Eval.Basic

/-!
# Expressions see the names in them

An expression is evaluated alike in two scopes that agree on the names occurring in it: to the same
value, to none, or to the same error. Which function a call is about depends on the scope as well,
because a variable hides the namespace of its name.

Results:
* `functionName?_congr`: both scopes call the same functions.
* `eval_congr`, `evalAll_congr`: both give the same result, node by node.
* `tryEvaluate_congr`: the same for texts.
-/

namespace DataBinding

namespace Expr

mutual

/-- The names that occur in an expression, those of functions and of namespaces included. -/
def names : Expr → List String
  | literal _ => []
  | undefined => []
  | array items => namesAll items
  | ident name => [name]
  | member object _ => names object
  | index object key => names object ++ names key
  | call callee args => names callee ++ namesAll args
  | unary _ operand => names operand
  | binary _ left right => names left ++ names right
  | membership _ needle haystack => names needle ++ names haystack
  | conditional test consequent alternate => names test ++ (names consequent ++ names alternate)

/-- The names that occur in expressions. -/
def namesAll : List Expr → List String
  | [] => []
  | e :: rest => names e ++ namesAll rest

end

end Expr

namespace Scope

/-- Both scopes have the same value, or none, under each of the names. -/
def AgreeOn (names : List String) (s t : Scope) : Prop :=
  ∀ name ∈ names, s.lookup? name = t.lookup? name

theorem agreeOn_append {front back : List String} {s t : Scope} :
    AgreeOn (front ++ back) s t ↔ AgreeOn front s t ∧ AgreeOn back s t :=
  List.forall_mem_append

end Scope

open Scope (AgreeOn agreeOn_append)

variable {s t : Scope} (registry : Registry)

theorem Environment.functionName?_congr {callee : Expr} (h : AgreeOn callee.names s t) :
    functionName? ⟨s, registry⟩ callee = functionName? ⟨t, registry⟩ callee := by
  cases callee with
  | member object property =>
    cases object with
    | ident space =>
      have hspace : s.lookup? space = t.lookup? space := h space (List.mem_singleton_self space)
      rw [functionName?, functionName?, hspace]
    | _ => rfl
  | _ => rfl

namespace Expr

/-- Of its callee, a method call evaluates the object alone. -/
theorem eval_call_congr {callee : Expr} {args : List Expr} (h : AgreeOn callee.names s t)
    (hobject : ∀ object property, callee = member object property →
      eval ⟨s, registry⟩ object = eval ⟨t, registry⟩ object)
    (hargs : evalAll ⟨s, registry⟩ args = evalAll ⟨t, registry⟩ args) :
    eval ⟨s, registry⟩ (call callee args) = eval ⟨t, registry⟩ (call callee args) := by
  have hname := Environment.functionName?_congr registry h
  cases callee with
  | member object property => simp only [eval, hname, hargs, hobject object property rfl]
  | _ => simp only [eval, hname, hargs]

mutual

theorem eval_congr : ∀ e : Expr, AgreeOn e.names s t → eval ⟨s, registry⟩ e = eval ⟨t, registry⟩ e
  | literal _, _ | undefined, _ => by rw [eval, eval]
  | array items, h => by rw [eval, eval, evalAll_congr items h]
  | ident name, h => by rw [eval, eval, h name (List.mem_singleton_self name)]
  | member object property, h => by rw [eval, eval, eval_congr object h]
  | index object key, h => by
    obtain ⟨hobject, hkey⟩ := agreeOn_append.1 h
    simp only [eval, eval_congr object hobject, eval_congr key hkey]
  | call callee args, h => by
    obtain ⟨hcallee, hargs⟩ := agreeOn_append.1 h
    refine eval_call_congr registry hcallee (fun object property he => ?_) (evalAll_congr args hargs)
    match callee, hcallee, he with
    | member object' _, hcallee, he =>
      obtain ⟨rfl, -⟩ := Expr.member.inj he
      exact eval_congr object' hcallee
  | unary op operand, h => by rw [eval, eval, eval_congr operand h]
  | binary op left right, h => by
    obtain ⟨hleft, hright⟩ := agreeOn_append.1 h
    simp only [eval, eval_congr left hleft, eval_congr right hright]
  | membership negated needle haystack, h => by
    obtain ⟨hneedle, hhaystack⟩ := agreeOn_append.1 h
    simp only [eval, eval_congr needle hneedle, eval_congr haystack hhaystack]
  | conditional test consequent alternate, h => by
    obtain ⟨htest, hbranches⟩ := agreeOn_append.1 h
    obtain ⟨hconsequent, halternate⟩ := agreeOn_append.1 hbranches
    simp only [eval, eval_congr test htest, eval_congr consequent hconsequent,
      eval_congr alternate halternate]

theorem evalAll_congr :
    ∀ es : List Expr, AgreeOn (namesAll es) s t →
      evalAll ⟨s, registry⟩ es = evalAll ⟨t, registry⟩ es
  | [], _ => by rw [evalAll, evalAll]
  | e :: rest, h => by
    obtain ⟨hfirst, hrest⟩ := agreeOn_append.1 h
    simp only [evalAll, eval_congr e hfirst, evalAll_congr rest hrest]

end

end Expr

namespace Environment

/-- A text that is an expression has the same value, or fails with the same error, in all scopes that
    agree on the names in it. -/
theorem tryEvaluate_congr {input : List Char} {e : Expr}
    (hparse : Expr.parse (Text.trim input) = .ok e) (h : AgreeOn e.names s t) :
    tryEvaluate ⟨s, registry⟩ input = tryEvaluate ⟨t, registry⟩ input := by
  rw [tryEvaluate, tryEvaluate, hparse]
  exact Expr.eval_congr registry e h

/-- A cart among the globals, and one among the locals that hides another. No variable hides the
    function. -/
theorem tryEvaluate_congr_carts :
    let cart : Value := .object [("note", .text "x")]
    let s : Scope := ⟨[], [("cart", cart), ("key", .text "note"), ("x", .null)]⟩
    let t : Scope := ⟨[("cartTotal", .ofNat 1), ("cart", cart)],
      [("key", .text "note"), ("cart", .null)]⟩
    let input := "Object.keys(cart).includes(key) && cart.note".toList
    tryEvaluate ⟨s, .standard⟩ input = tryEvaluate ⟨t, .standard⟩ input := by
  intro cart s t input
  have hparse : Expr.parse (Text.trim input) =
      .ok (.binary .and
        (.call (.member (.call (.member (.ident "Object") "keys") [.ident "cart"]) "includes")
          [.ident "key"])
        (.member (.ident "cart") "note")) := rfl
  refine tryEvaluate_congr .standard hparse fun name hname => ?_
  simp only [Expr.names, Expr.namesAll, List.cons_append, List.nil_append, List.append_nil,
    List.mem_cons, List.not_mem_nil, or_false] at hname
  rcases hname with rfl | rfl | rfl | rfl <;> rfl

end Environment

end DataBinding
