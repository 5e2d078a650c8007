import DataBinding.Proofs.Expr.Level

/-!
# Readable expressions

An expression is readable if its text starts like an expression and the reader of its own
precedence takes the text as the plain form of the expression, before anything that may follow.
Such an expression is then also read in every other place, in parentheses where the place asks for
more.

Results:
* `StartsAt.enclose`: parentheses or not, a text starts as its place asks.
* `Readable.enclosed_suffix`, `Readable.enclosed`, `Readable.enclosed_opens`: a readable expression
  is read in every place.
-/

namespace DataBinding.Expr

open Text (isBlank isDigit)

/-! ## How texts start -/

/-- The text starts like an expression, and where a suffix may follow like no unary operator. -/
structure StartsAt (p : Nat) (text : List Char) : Prop extends Leads text where
  operand : suffixPrecedence ≤ p → ∃ c cs, text = c :: cs ∧ isOperandStart c = true

theorem delimited_append {tail rest : List Char} (ht : Delimited tail) (hr : Delimited rest) :
    Delimited (tail ++ rest) := by
  cases tail with
  | nil => exact hr
  | cons c tail => exact delimited_cons _ (ht c (by simp))

theorem StartsAt.append {p : Nat} {text tail : List Char} (h : StartsAt p text)
    (ht : Delimited tail) : StartsAt p (text ++ tail) where
  front := by
    obtain ⟨c, cs, rfl, hc⟩ := h.front
    exact ⟨c, cs ++ tail, rfl, hc⟩
  noNot rest hr := by
    rw [List.append_assoc]
    exact h.noNot _ (delimited_append ht hr)
  operand hp := by
    obtain ⟨c, cs, rfl, hc⟩ := h.operand hp
    exact ⟨c, cs ++ tail, rfl, hc⟩

theorem startsAt_symbol {p : Nat} {c : Char} (cs : List Char) (hf : isFront c = true)
    (hn : isNameChar c = false) (ho : suffixPrecedence ≤ p → isOperandStart c = true) :
    StartsAt p (c :: cs) where
  front := ⟨c, cs, rfl, hf⟩
  noNot _ _ := keyword?_of_delimited (by decide) (delimited_cons _ hn)
  operand hp := ⟨c, cs, rfl, ho hp⟩

theorem startsAt_parenthesis (p : Nat) (cs : List Char) : StartsAt p ('(' :: cs) :=
  startsAt_symbol cs (by decide) (by decide) fun _ => by decide

theorem startsAt_name (p : Nat) {c : Char} {cs : List Char} (hc : isOperandStart c = true)
    (hn : ∀ d ∈ c :: cs, isNameChar d = true) (hnot : c :: cs ≠ "not".toList) :
    StartsAt p (c :: cs) where
  front := ⟨c, cs, rfl, isFront_of_isOperandStart hc⟩
  noNot rest hr := by
    rw [keyword?, takeName_append_of_delimited hn hr, if_neg hnot]
  operand _ := ⟨c, cs, rfl, hc⟩

/-- In parentheses or not, the text in a place starts as the place asks. -/
theorem StartsAt.enclose {e : Expr} {text : List Char} (h : StartsAt e.precedence text)
    (p : Nat) : StartsAt p (enclose p e text) := by
  rw [Expr.enclose]
  split
  · exact startsAt_parenthesis p _
  · exact { h with operand := fun hp => h.operand (by omega) }

/-! ## Readable expressions -/

/-- The reader of its own precedence takes the text of an expression as its plain form, with
    `depth` levels of nesting. -/
structure ReadsOwn (depth : Nat) (e : Expr) : Prop where
  suffix : suffixPrecedence ≤ e.precedence → OpensSuffix (.upTo depth) e.text e.desugar
  unary : e.precedence = unaryPrecedence → ReadsAt (.upTo depth) unaryPrecedence e.text e.desugar
  chain : e.precedence < unaryPrecedence →
    OpensAt (.upTo depth) e.precedence e.text e.desugar

/-- The text of an expression starts like one and is read as its plain form. -/
structure Readable (e : Expr) : Prop where
  starts : StartsAt e.precedence e.text
  own : ∀ d, e.depth ≤ d → ReadsOwn d e

theorem two_le_precedence (e : Expr) : 2 ≤ e.precedence := by
  cases e with
  | binary op left right => cases op <;> simp [precedence, BinaryOp.precedence]
  | membership negated needle haystack =>
    cases negated <;> simp [precedence, unaryPrecedence, suffixPrecedence]
  | _ => simp [precedence, unaryPrecedence, suffixPrecedence, primaryPrecedence]

theorem suffix_le_primary : suffixPrecedence ≤ primaryPrecedence := by decide

theorem unary_lt_suffix : unaryPrecedence < suffixPrecedence := by decide

theorem readable_of_suffix {e : Expr} (hp : suffixPrecedence ≤ e.precedence)
    (hs : StartsAt e.precedence e.text)
    (h : ∀ d, e.depth ≤ d → OpensSuffix (.upTo d) e.text e.desugar) : Readable e where
  starts := hs
  own d hd :=
    have h8 := Nat.lt_of_lt_of_le unary_lt_suffix hp
    { suffix := fun _ => h d hd
      unary := fun he => absurd he (Nat.ne_of_gt h8)
      chain := fun hlt => absurd hlt (Nat.lt_asymm h8) }

namespace Readable

variable {e : Expr} {d p : Nat}

theorem readsAt (h : Readable e) (hd : e.depth ≤ d) (h2 : 2 ≤ p) (h8 : p ≤ unaryPrecedence)
    (hp : p ≤ e.precedence) : ReadsAt (.upTo d) p e.text e.desugar := by
  have ho := h.own d hd
  rcases Nat.lt_trichotomy e.precedence unaryPrecedence with hlt | heq | hgt
  · have hr := (ho.chain hlt).readsAt (two_le_precedence e) (Nat.le_of_lt_succ hlt) h.starts.toLeads
    exact hr.descend h.starts.toLeads h2 hp (Nat.le_of_lt hlt)
  · exact (ho.unary heq).descend h.starts.toLeads h2 h8 (Nat.le_refl _)
  · obtain ⟨c, cs, ht, hc⟩ := h.starts.operand hgt
    have hr := (ho.suffix hgt).readsAt.eight ht hc
    exact hr.descend h.starts.toLeads h2 h8 (Nat.le_refl _)

theorem readsAt_zero (h : Readable e) (hd : e.depth ≤ d) :
    ReadsAt (.upTo d) 0 e.text e.desugar :=
  (h.readsAt hd (Nat.le_refl 2) (by decide) (two_le_precedence e)).zero

theorem parenthesized (h : Readable e) (hd : e.depth + 1 ≤ d) :
    OpensSuffix (.upTo d) ('(' :: e.text ++ [')']) e.desugar := by
  obtain ⟨d, rfl⟩ : ∃ d', d = d' + 1 := ⟨d - 1, by omega⟩
  exact (h.readsAt_zero (by omega)).parenthesis

theorem enclosed_suffix (h : Readable e) (hd : depthIn suffixPrecedence e e.depth ≤ d) :
    OpensSuffix (.upTo d) (enclose suffixPrecedence e e.text) e.desugar := by
  rw [depthIn] at hd
  rw [enclose]
  split
  · rename_i hp
    rw [if_pos hp] at hd
    exact h.parenthesized hd
  · rename_i hp
    rw [if_neg hp] at hd
    exact (h.own d hd).suffix (Nat.le_of_not_lt hp)

theorem enclosed (h : Readable e) (hd : depthIn p e e.depth ≤ d) (h2 : 2 ≤ p)
    (h8 : p ≤ unaryPrecedence) : ReadsAt (.upTo d) p (enclose p e e.text) e.desugar := by
  rw [depthIn] at hd
  rw [enclose]
  split
  · rename_i hp
    rw [if_pos hp] at hd
    have hs := startsAt_parenthesis unaryPrecedence (e.text ++ [')'])
    have hr := (h.parenthesized hd).readsAt.eight rfl (by decide)
    exact hr.descend hs.toLeads h2 h8 (Nat.le_refl _)
  · rename_i hp
    rw [if_neg hp] at hd
    exact h.readsAt hd h2 h8 (Nat.le_of_not_lt hp)

/-- A left operand of the same precedence is read by the chain itself, any other by the next
    tighter level. -/
theorem enclosed_opens (h : Readable e) (hd : depthIn p e e.depth ≤ d) (h2 : 2 ≤ p)
    (h8 : p < unaryPrecedence) : OpensAt (.upTo d) p (enclose p e e.text) e.desugar := by
  by_cases hp : e.precedence = p
  · rw [depthIn, if_neg (by omega)] at hd
    rw [enclose, if_neg (by omega), ← hp]
    exact (h.own d hd).chain (by omega)
  · have hlt : e.precedence < p + 1 ↔ e.precedence < p := by omega
    have hr := h.enclosed (p := p + 1) (d := d)
    simp only [depthIn, enclose, hlt] at hr hd ⊢
    exact (hr hd (by omega) (by omega)).opensAt

end Readable

end DataBinding.Expr
