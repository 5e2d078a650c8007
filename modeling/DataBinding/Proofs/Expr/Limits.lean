import DataBinding.Proofs.Expr.Bracketed
import DataBinding.Proofs.Expr.Scanned

/-!
# The size of accepted expressions

Two counters limit an expression: one counts the operators of all of it, the other the levels that
are open at once. Together they bound its height. Every edge that comes with no operator is next to
a level: one below a unary operator, a bracket or a branch, and a second one below the condition of
a conditional or the items of a list, which open no level of their own.

Results:
* `Operand.height_le`, `Whole.height_le`, `Items.height_le`: the height by operators and levels.
* `parse_limited`: reading ends, and what it accepts is within the limits.
-/

namespace DataBinding.Expr

mutual

/-- An operand is as high as its operators, and twice as high as its levels. -/
theorem Operand.height_le {d k k' : Nat} {e : Expr} :
    Operand d k e k' → e.height ≤ e.operators + 2 * d
  | .literal _ | .undefined | .ident _ => Nat.zero_le _
  | .bracket h => by
    have hwhole := h.height_le
    omega
  | .array h => by
    have hitems := h.height_le
    rw [height, operators]
    omega
  | .member _ h _ => by
    have hobject := h.height_le
    rw [height, operators]
    omega
  | .index ho hkey _ => by
    have hobject := ho.height_le
    have hkey := hkey.height_le
    rw [height, operators]
    omega
  | .call hc ha _ => by
    have hcallee := hc.height_le
    have hargs := ha.height_le
    rw [height, operators]
    omega
  | .unary _ h => by
    have hoperand := h.height_le
    rw [height, operators]
    omega
  | .binary _ hl hr _ => by
    have hleft := hl.height_le
    have hright := hr.height_le
    rw [height, operators]
    omega
  | .membership _ hn hh _ => by
    have hneedle := hn.height_le
    have hhaystack := hh.height_le
    rw [height, operators]
    omega

/-- A conditional is one edge higher than its levels account for: its branches open one, but the
    edge to its condition does not. -/
theorem Whole.height_le {d k k' : Nat} {e : Expr} :
    Whole d k e k' → e.height ≤ e.operators + 2 * d + 1
  | .operand h => by
    have hoperand := h.height_le
    omega
  | .branches ht hc ha => by
    have htest := ht.height_le
    have hconsequent := hc.height_le
    have halternate := ha.height_le
    rw [height, operators]
    omega
  | .condition hc ht ha => by
    have hconsequent := hc.height_le
    have htest := ht.height_le
    have halternate := ha.height_le
    rw [height, operators]
    omega

theorem Items.height_le {d k k' : Nat} {items : List Expr} :
    Items d k items k' → heightBelow items ≤ operatorsAll items + 2 * d + 2
  | .nil => Nat.zero_le _
  | .cons h hs => by
    have hfirst := h.height_le
    have hrest := hs.height_le
    rw [heightBelow, operatorsAll]
    omega

end

/-- Reading any text ends, and an expression that is accepted is within the limits: it has no more
    operators than are counted, and its height is bounded by them and the levels. -/
theorem parse_limited (input : List Char) :
    Scan.parse input = some (parse input) ∧
      ∀ e, parse input = .ok e →
        e.operators ≤ maxOperators ∧ e.height ≤ maxOperators + 2 * maxNesting + 1 := by
  refine ⟨Scan.parse_eq input, fun e he => ?_⟩
  obtain ⟨after, hwhole⟩ := whole_of_parse he
  have hcount : e.operators ≤ maxOperators := by
    have hafter := hwhole.counted.1
    rw [Nat.zero_add] at hafter
    rw [← hafter]
    exact hwhole.counted.2 (Nat.zero_le _)
  have hheight := hwhole.height_le
  exact ⟨hcount, by omega⟩

/-- The conditions of a conditional add to its height although they open no level. -/
theorem parse_limited_conditional :
    parse "a.b ? [c] : d".toList =
        .ok (.conditional (.member (.ident "a") "b") (.array [.ident "c"]) (.ident "d")) ∧
      (conditional (member (ident "a") "b") (array [ident "c"]) (ident "d")).operators ≤
        maxOperators ∧
      (conditional (member (ident "a") "b") (array [ident "c"]) (ident "d")).height ≤
        maxOperators + 2 * maxNesting + 1 := by
  have hparse : parse "a.b ? [c] : d".toList =
      .ok (.conditional (.member (.ident "a") "b") (.array [.ident "c"]) (.ident "d")) := by
    rfl
  exact ⟨hparse, (parse_limited _).2 _ hparse⟩

end DataBinding.Expr
