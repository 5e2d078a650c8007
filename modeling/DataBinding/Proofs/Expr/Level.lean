import DataBinding.Proofs.Expr.Token

/-!
# The levels of precedence read what is printed for them

A place in the text of an expression asks for a precedence, and the reader of that level reads it.
Reading stops where nothing that follows binds as tightly (`Boundary`). Because operators of one
precedence group from the left, a left operand is read by the loop that goes on with its operator:
`OpensAt` and `OpensSuffix` say that such a loop has the operand and is still running.

Results:
* `levelAt_skips`: every level skips the blanks in front.
* `OpensAt.binary`, `OpensSuffix.member`, `OpensSuffix.index`, `OpensSuffix.call`: one turn of a
  loop.
* `ReadsAt.descend`: what a level reads is read by the looser levels too.
-/

namespace DataBinding.Expr

open Text (isBlank isDigit)

/-! ## Levels by their precedence -/

/-- The operators of a precedence. -/
def tableAt : Nat → OperatorTable
  | 2 => orOperator?
  | 3 => andOperator?
  | 4 => equalityOperator?
  | 5 => relationOperator?
  | 6 => sumOperator?
  | 7 => productOperator?
  | _ => fun _ => none

/-- The reader of what stands in a place that asks for a precedence. -/
def levelAt (inner : Nesting) : Nat → Reader Expr
  | 0 | 1 => conditionalLevel inner
  | 2 => orLevel inner
  | 3 => andLevel inner
  | 4 => notLevel inner
  | 5 => relationLevel inner
  | 6 => sumLevel inner
  | 7 => productLevel inner
  | 8 => unaryLevel inner
  | _ => suffixed inner

/-- What may follow an operand whose place asks for a precedence: the end, a closing bracket, a
    comma, another part of a conditional, or an operator that binds less tightly. -/
inductive Boundary (least : Nat) : List Char → Prop
  | done : Boundary least []
  | close {c : Char} (rest : List Char) (h : c = ')' ∨ c = ']' ∨ c = ',') :
      Boundary least (c :: rest)
  | colon (rest : List Char) : Boundary least (' ' :: ':' :: rest)
  | question (rest : List Char) (h : 0 < least) : Boundary least (' ' :: '?' :: rest)
  | operator (op : BinaryOp) (rest : List Char) (h : op.precedence < least) :
      Boundary least (' ' :: (op.symbol ++ ' ' :: rest))

namespace Boundary

variable {p q : Nat} {rest : List Char}

theorem mono (h : Boundary p rest) (hpq : p ≤ q) : Boundary q rest := by
  cases h with
  | done => exact .done
  | close rest hc => exact .close rest hc
  | colon rest => exact .colon rest
  | question rest h0 => exact .question rest (by omega)
  | operator op rest ho => exact .operator op rest (by omega)

theorem delimited (h : Boundary p rest) : Delimited rest := by
  cases h with
  | done => exact delimited_nil
  | close rest hc => rcases hc with rfl | rfl | rfl <;> exact delimited_cons _ (by decide)
  | colon rest | question rest _ | operator op rest _ => exact delimited_cons _ (by decide)

theorem noFraction (h : Boundary p rest) : NoFraction rest := by
  cases h with
  | done => intro c tail he; cases he
  | close rest hc => rcases hc with rfl | rfl | rfl <;> exact noFraction_cons _ (by decide)
  | colon rest | question rest _ | operator op rest _ => exact noFraction_cons _ (by decide)

/-- No operator of the level or of a tighter one comes next. -/
theorem tableAt_eq_none (h : Boundary p rest) (hpq : p ≤ q) :
    tableAt q (Text.trimStart rest) = none := by
  unfold tableAt
  cases h with
  | done => split <;> rfl
  | close rest hc => rcases hc with rfl | rfl | rfl <;> split <;> rfl
  | colon rest => split <;> rfl
  | question rest _ => split <;> rfl
  | operator op rest ho =>
    cases op <;> split <;> first | rfl | (simp [BinaryOp.precedence] at ho; omega)

theorem suffix?_eq_none (h : Boundary p rest) (inner : Nesting) (e : Expr) (k : Nat) :
    suffix? inner e ⟨Text.trimStart rest, k⟩ = .ok (none, ⟨Text.trimStart rest, k⟩) := by
  cases h with
  | done => rfl
  | close rest hc => rcases hc with rfl | rfl | rfl <;> rfl
  | colon rest => rfl
  | question rest _ => rfl
  | operator op rest _ => cases op <;> rfl

end Boundary

/-! ## Blanks in front -/

/-- The reader skips the blanks in front. -/
def SkipsBlanks {α : Type} (reader : Reader α) : Prop :=
  ∀ cursor : Cursor, reader cursor.skipBlanks = reader cursor

theorem operatorLevel_skips {operand : Reader Expr} (h : SkipsBlanks operand)
    (operator? : OperatorTable) : SkipsBlanks (operatorLevel operator? operand) := by
  intro cursor
  simp only [operatorLevel, h cursor]

variable (inner : Nesting)

theorem suffixed_skips : SkipsBlanks (suffixed inner) := by
  intro cursor
  simp only [suffixed, primary, skipBlanks_skipBlanks]

theorem unaryLevel_skips : SkipsBlanks (unaryLevel inner) := by
  intro cursor
  simp only [unaryLevel, skipBlanks_skipBlanks, suffixed_skips inner cursor]

theorem relationLevel_skips : SkipsBlanks (relationLevel inner) :=
  operatorLevel_skips (operatorLevel_skips (operatorLevel_skips (unaryLevel_skips inner) _) _) _

theorem notLevel_skips : SkipsBlanks (notLevel inner) := by
  intro cursor
  have h : equalityLevel inner cursor.skipBlanks = equalityLevel inner cursor :=
    operatorLevel_skips (relationLevel_skips inner) _ cursor
  simp only [notLevel, skipBlanks_skipBlanks, h]

theorem orLevel_skips : SkipsBlanks (orLevel inner) :=
  operatorLevel_skips (operatorLevel_skips (notLevel_skips inner) _) _

theorem conditionalLevel_skips : SkipsBlanks (conditionalLevel inner) := by
  intro cursor
  simp only [conditionalLevel, orLevel_skips inner cursor]

theorem levelAt_skips (p : Nat) : SkipsBlanks (levelAt inner p) := by
  unfold levelAt
  split
  · exact conditionalLevel_skips inner
  · exact conditionalLevel_skips inner
  · exact orLevel_skips inner
  · exact operatorLevel_skips (notLevel_skips inner) _
  · exact notLevel_skips inner
  · exact relationLevel_skips inner
  · exact operatorLevel_skips (operatorLevel_skips (unaryLevel_skips inner) _) _
  · exact operatorLevel_skips (unaryLevel_skips inner) _
  · exact unaryLevel_skips inner
  · exact suffixed_skips inner

theorem levelAt_blank_cons (p : Nat) (cs : List Char) (k : Nat) :
    levelAt inner p ⟨' ' :: cs, k⟩ = levelAt inner p ⟨cs, k⟩ := by
  rw [← levelAt_skips inner p ⟨' ' :: cs, k⟩, ← levelAt_skips inner p ⟨cs, k⟩]
  simp only [Cursor.skipBlanks, trimStart_blank_cons]

/-! ## Chains of operators -/

/-- The reader of a place takes `text` as `e`, and the blanks after it, before every boundary of
    the place. -/
def ReadsAt (p : Nat) (text : List Char) (e : Expr) : Prop :=
  ∀ rest k, Boundary p rest → k + e.operators ≤ maxOperators →
    levelAt inner p ⟨text ++ rest, k⟩ = .ok (e, ⟨Text.trimStart rest, k + e.operators⟩)

/-- The chain of a precedence has `text` as its left operand `e`, with turns to spare. -/
def OpensAt (p : Nat) (text : List Char) (e : Expr) : Prop :=
  ∀ rest k, Boundary (p + 1) rest → k + e.operators ≤ maxOperators →
    ∃ fuel, maxOperators < fuel + (k + e.operators) ∧
      operatorLevel (tableAt p) (levelAt inner (p + 1)) ⟨text ++ rest, k⟩ =
        chain (tableAt p) (levelAt inner (p + 1)) fuel e
          ⟨Text.trimStart rest, k + e.operators⟩

section Chain

variable {operator? : OperatorTable} {operand : Reader Expr}

theorem chain_stop {rest : List Char} (h : operator? (Text.trimStart rest) = none) (fuel : Nat)
    (left : Expr) (k : Nat) :
    chain operator? operand (fuel + 1) left ⟨rest, k⟩ = .ok (left, ⟨Text.trimStart rest, k⟩) := by
  simp only [chain, Cursor.skipBlanks, h]

theorem chain_turn {rest after after' : List Char} {join : Join} {right : Expr} {k n : Nat}
    (h : operator? (Text.trimStart rest) = some (join, after))
    (hr : operand ⟨after, k⟩ = .ok (right, ⟨after', n⟩)) (hn : n < maxOperators) (fuel : Nat)
    (left : Expr) :
    chain operator? operand (fuel + 1) left ⟨rest, k⟩ =
      chain operator? operand fuel (join left right) ⟨after', n + 1⟩ := by
  simp only [chain, Cursor.skipBlanks, h, hr, ok_bind, Cursor.countOperator, hn, if_true]

end Chain

variable {inner} {p : Nat} {text : List Char} {e : Expr}

theorem ReadsAt.opensAt (h : ReadsAt inner (p + 1) text e) : OpensAt inner p text e := by
  intro rest k hb hk
  refine ⟨maxOperators + 1, by omega, ?_⟩
  simp only [operatorLevel, h rest k hb hk, ok_bind]

/-- Where no operator of the precedence follows, the chain ends. -/
theorem OpensAt.closes (h : OpensAt inner p text e) {rest : List Char} {k : Nat}
    (hb : Boundary p rest) (hk : k + e.operators ≤ maxOperators) :
    operatorLevel (tableAt p) (levelAt inner (p + 1)) ⟨text ++ rest, k⟩ =
      .ok (e, ⟨Text.trimStart rest, k + e.operators⟩) := by
  obtain ⟨fuel, hf, ho⟩ := h rest k (hb.mono (by omega)) hk
  obtain ⟨fuel, rfl⟩ : ∃ f, fuel = f + 1 := ⟨fuel - 1, by omega⟩
  have hstop : tableAt p (Text.trimStart (Text.trimStart rest)) = none := by
    rw [trimStart_trimStart]
    exact hb.tableAt_eq_none (Nat.le_refl p)
  rw [ho, chain_stop hstop, trimStart_trimStart]

theorem tableAt_symbol (op : BinaryOp) (rest : List Char) :
    tableAt op.precedence (op.symbol ++ ' ' :: rest) = some (binary op, ' ' :: rest) := by
  cases op <;> rfl

theorem trimStart_symbol (op : BinaryOp) (rest : List Char) :
    Text.trimStart (' ' :: (op.symbol ++ rest)) = op.symbol ++ rest := by
  cases op <;> rfl

theorem OpensAt.binary {op : BinaryOp} {ltext rtext : List Char} {left right : Expr}
    (hl : OpensAt inner op.precedence ltext left)
    (hr : ReadsAt inner (op.precedence + 1) rtext right) :
    OpensAt inner op.precedence (ltext ++ ' ' :: op.symbol ++ ' ' :: rtext)
      (binary op left right) := by
  intro rest k hb hk
  rw [operators] at hk ⊢
  have hrest : ltext ++ ' ' :: op.symbol ++ ' ' :: rtext ++ rest =
      ltext ++ ' ' :: (op.symbol ++ ' ' :: (rtext ++ rest)) := by simp
  obtain ⟨fuel, hf, ho⟩ := hl (' ' :: (op.symbol ++ ' ' :: (rtext ++ rest))) k
    (.operator op _ (Nat.lt_succ_self _)) (by omega)
  obtain ⟨fuel, rfl⟩ : ∃ f, fuel = f + 1 := ⟨fuel - 1, by omega⟩
  have hright : levelAt inner (op.precedence + 1)
      ⟨' ' :: (rtext ++ rest), k + left.operators⟩ =
        .ok (right, ⟨Text.trimStart rest, k + left.operators + right.operators⟩) := by
    rw [levelAt_blank_cons]
    exact hr rest _ hb (by omega)
  have htable : tableAt op.precedence
      (Text.trimStart (Text.trimStart (' ' :: (op.symbol ++ ' ' :: (rtext ++ rest))))) =
        some (Expr.binary op, ' ' :: (rtext ++ rest)) := by
    rw [trimStart_trimStart, trimStart_symbol, tableAt_symbol]
  refine ⟨fuel, by omega, ?_⟩
  rw [hrest, ho, chain_turn htable hright (by omega)]
  simp only [Nat.add_assoc]

/-! ## From tighter levels to looser ones -/

/-- The text starts like an expression, and its first word is not the operator `not`. -/
structure Leads (text : List Char) : Prop where
  front : ∃ c cs, text = c :: cs ∧ isFront c = true
  noNot : ∀ rest, Delimited rest → keyword? "not".toList (text ++ rest) = none

theorem Leads.skipBlanks (h : Leads text) (rest : List Char) (k : Nat) :
    Cursor.skipBlanks ⟨text ++ rest, k⟩ = ⟨text ++ rest, k⟩ := by
  obtain ⟨c, cs, rfl, hc⟩ := h.front
  exact skipBlanks_cons _ k (isBlank_of_isFront hc)

theorem levelAt_eq (inner : Nesting) (h2 : 2 ≤ p) (h7 : p ≤ 7) (h4 : p ≠ 4) :
    levelAt inner p = operatorLevel (tableAt p) (levelAt inner (p + 1)) := by
  obtain rfl | rfl | rfl | rfl | rfl : p = 2 ∨ p = 3 ∨ p = 5 ∨ p = 6 ∨ p = 7 := by omega
  all_goals rfl

theorem OpensAt.readsAt (h : OpensAt inner p text e) (h2 : 2 ≤ p) (h7 : p ≤ 7)
    (hl : Leads text) : ReadsAt inner p text e := by
  intro rest k hb hk
  by_cases h4 : p = 4
  · subst h4
    have hnot := hl.noNot rest hb.delimited
    show notLevel inner ⟨text ++ rest, k⟩ = _
    simp only [notLevel, hl.skipBlanks, hnot]
    exact h.closes hb hk
  · rw [levelAt_eq inner h2 h7 h4]
    exact h.closes hb hk

theorem ReadsAt.descend (hl : Leads text) (h2 : 2 ≤ p) :
    ∀ {q : Nat}, p ≤ q → q ≤ 8 → ReadsAt inner q text e → ReadsAt inner p text e := by
  intro q
  induction q with
  | zero => intro hpq; omega
  | succ q ih =>
    intro hpq hq h
    rcases Nat.lt_or_ge q p with hlt | hge
    · rwa [show p = q + 1 by omega]
    · exact ih hge (by omega) (h.opensAt.readsAt (by omega) (by omega) hl)

theorem ReadsAt.zero (h : ReadsAt inner 2 text e) : ReadsAt inner 0 text e := by
  intro rest k hb hk
  have hor : orLevel inner ⟨text ++ rest, k⟩ =
      .ok (e, ⟨Text.trimStart rest, k + e.operators⟩) := h rest k (hb.mono (by omega)) hk
  have hbranch : Text.dropPrefix? ['?'] (Text.trimStart rest) = none ∧
      keyword? "if".toList (Text.trimStart rest) = none := by
    cases hb with
    | done => exact ⟨rfl, rfl⟩
    | close rest hc => rcases hc with rfl | rfl | rfl <;> exact ⟨rfl, rfl⟩
    | colon rest => exact ⟨rfl, rfl⟩
    | question rest h0 => exact absurd h0 (by omega)
    | operator op rest ho => exact absurd ho (by omega)
  show conditionalLevel inner ⟨text ++ rest, k⟩ = _
  simp only [conditionalLevel, hor, ok_bind, Cursor.skipBlanks, trimStart_trimStart, hbranch]

/-! ## Members, indices and calls -/

/-- The text that follows does not carry on the name or number that `e` may be. -/
def MayFollow (e : Expr) (rest : List Char) : Prop :=
  Delimited rest ∧ (e.isNumber = true → NoFraction rest)

variable (inner) in
/-- The loop of suffixes has `text` as its object `e`, with turns to spare. -/
def OpensSuffix (text : List Char) (e : Expr) : Prop :=
  ∀ rest k, MayFollow e rest → k + e.operators ≤ maxOperators →
    ∃ fuel, maxOperators < fuel + (k + e.operators) ∧
      suffixed inner ⟨text ++ rest, k⟩ = suffixes inner fuel e ⟨rest, k + e.operators⟩

theorem opensSuffix_of_primary
    (h : ∀ rest k, MayFollow e rest → k + e.operators ≤ maxOperators →
      primary inner ⟨text ++ rest, k⟩ = .ok (e, ⟨rest, k + e.operators⟩)) :
    OpensSuffix inner text e := by
  intro rest k hf hk
  refine ⟨maxOperators + 1, by omega, ?_⟩
  simp only [suffixed, h rest k hf hk, ok_bind]

theorem suffixes_turn {e' : Expr} {cursor cursor' : Cursor}
    (h : suffix? inner e cursor = .ok (some e', cursor')) (fuel : Nat) :
    suffixes inner (fuel + 1) e cursor = suffixes inner fuel e' cursor' := by
  simp only [suffixes, h, ok_bind]

/-- One more suffix, which adds the operators of its own parts and itself. -/
theorem OpensSuffix.turn {suffix : List Char} {e' : Expr} {n : Nat}
    (h : OpensSuffix inner text e) (hn : e'.operators = e.operators + n + 1)
    (hf : ∀ rest, MayFollow e' rest → MayFollow e (suffix ++ rest))
    (hs : ∀ rest k, MayFollow e' rest → k + n < maxOperators →
      suffix? inner e ⟨suffix ++ rest, k⟩ = .ok (some e', ⟨rest, k + n + 1⟩)) :
    OpensSuffix inner (text ++ suffix) e' := by
  intro rest k hr hk
  obtain ⟨fuel, hfuel, ho⟩ := h (suffix ++ rest) k (hf rest hr) (by omega)
  obtain ⟨fuel, rfl⟩ : ∃ f, fuel = f + 1 := ⟨fuel - 1, by omega⟩
  refine ⟨fuel, by omega, ?_⟩
  rw [List.append_assoc, ho, suffixes_turn (hs rest _ hr (by omega)), hn]
  simp only [Nat.add_assoc]

theorem suffix?_member {property rest : List Char} {k : Nat} (hne : property ≠ [])
    (hp : ∀ c ∈ property, isNameChar c = true) (hr : Delimited rest) (hk : k < maxOperators) :
    suffix? inner e ⟨'.' :: property ++ rest, k⟩ =
      .ok (some (member e (String.ofList property)), ⟨rest, k + 1⟩) := by
  obtain ⟨c, cs, rfl⟩ := List.exists_cons_of_ne_nil hne
  have hb : isBlank c = false := isBlank_of_isNameChar (hp c (by simp))
  have ht : takeName (Text.trimStart (c :: cs ++ rest)) = (c :: cs, rest) := by
    rw [List.cons_append, trimStart_cons _ hb]
    exact takeName_append_of_delimited hp hr
  rw [List.cons_append]
  simp only [suffix?, skipBlanks_cons _ k (show isBlank '.' = false by decide), ht,
    List.isEmpty_cons, Bool.false_eq_true, if_false, Cursor.countOperator, hk, if_true, ok_bind]

/-- A name is read as a property, unless its first digit would carry on a number. -/
theorem OpensSuffix.property {property : String} (h : OpensSuffix inner text e)
    (hne : property.toList ≠ []) (hname : ∀ c ∈ property.toList, isNameChar c = true)
    (hnum : e.isNumber = true → property.toList.head?.any isDigit = false) :
    OpensSuffix inner (text ++ '.' :: property.toList) (member e property) := by
  refine h.turn (n := 0) rfl ?_ ?_
  · intro rest hr
    refine ⟨delimited_cons _ (by decide), fun hn c tail he => ?_⟩
    -- the digit of a fraction would be the first character of the property
    obtain ⟨d, ds, hds⟩ := List.exists_cons_of_ne_nil hne
    rw [hds] at he hnum
    obtain rfl : d = c := by simpa using (List.cons.inj (List.cons.inj he).2).1
    simpa using hnum hn
  · intro rest k hr hk
    rw [suffix?_member hne hname hr.1 (by omega), String.ofList_toList]

theorem OpensSuffix.member {property : String} (h : OpensSuffix inner text e)
    (hp : isProperty e property = true) (hd : property.toList.all isDigit = false) :
    OpensSuffix inner (text ++ '.' :: property.toList) (member e property) := by
  simp only [isProperty, hd, Bool.and_eq_true, Bool.not_eq_true', List.isEmpty_eq_false_iff,
    List.all_eq_true, Bool.false_eq_true, if_false] at hp
  obtain ⟨⟨hne, hname⟩, hnum⟩ := hp
  exact h.property hne hname fun hn => by simpa [hn] using hnum

theorem OpensSuffix.index {inner : Nesting} {ktext : List Char} {key : Expr}
    (h : OpensSuffix inner.deeper text e) (hk : ReadsAt inner 0 ktext key) :
    OpensSuffix inner.deeper (text ++ '[' :: ktext ++ [']']) (index e key) := by
  rw [List.append_assoc]
  refine h.turn (n := key.operators) rfl ?_ ?_
  · intro rest _
    exact ⟨delimited_cons _ (by decide), fun _ => noFraction_cons _ (by decide)⟩
  · intro rest k _ hlt
    have hkey := hk (']' :: rest) k (.close rest (by simp)) (by omega)
    rw [trimStart_cons rest (by decide)] at hkey
    have hcond : inner.deeper.conditional ⟨ktext ++ ']' :: rest, k⟩ =
      .ok (key, ⟨']' :: rest, k + key.operators⟩) := hkey
    have hrest : '[' :: ktext ++ [']'] ++ rest = '[' :: (ktext ++ ']' :: rest) := by simp
    rw [hrest]
    simp only [suffix?, skipBlanks_cons _ k (show isBlank '[' = false by decide), hcond, ok_bind,
      skipBlanks_cons rest _ (show isBlank ']' = false by decide), expect, Text.dropPrefix?,
      if_true, Cursor.countOperator, hlt]

variable (inner) in
/-- The reader of a list takes `text` and the closing bracket after it as `items`. -/
def ReadsItems (close : Char) (text : List Char) (items : List Expr) : Prop :=
  ∀ rest k, k + operatorsAll items ≤ maxOperators →
    itemList (conditionalLevel inner) close ⟨text ++ close :: rest, k⟩ =
      .ok (items, ⟨rest, k + operatorsAll items⟩)

theorem OpensSuffix.call {inner : Nesting} {atext : List Char} {args : List Expr}
    (h : OpensSuffix inner.deeper text e) (ha : ReadsItems inner ')' atext args) :
    OpensSuffix inner.deeper (text ++ '(' :: atext ++ [')']) (call e args) := by
  rw [List.append_assoc]
  refine h.turn (n := operatorsAll args) rfl ?_ ?_
  · intro rest _
    exact ⟨delimited_cons _ (by decide), fun _ => noFraction_cons _ (by decide)⟩
  · intro rest k _ hlt
    have hargs : inner.deeper.items ')' ⟨atext ++ ')' :: rest, k⟩ =
      .ok (args, ⟨rest, k + operatorsAll args⟩) := ha rest k (by omega)
    have hrest : '(' :: atext ++ [')'] ++ rest = '(' :: (atext ++ ')' :: rest) := by simp
    rw [hrest]
    simp only [suffix?, skipBlanks_cons _ k (show isBlank '(' = false by decide), hargs, ok_bind,
      Cursor.countOperator, hlt, if_true]

theorem OpensSuffix.readsAt (h : OpensSuffix inner text e) : ReadsAt inner 9 text e := by
  intro rest k hb hk
  obtain ⟨fuel, hf, ho⟩ := h rest k ⟨hb.delimited, fun _ => hb.noFraction⟩ hk
  obtain ⟨fuel, rfl⟩ : ∃ f, fuel = f + 1 := ⟨fuel - 1, by omega⟩
  have hstop : suffix? inner e ⟨rest, k + e.operators⟩ =
      .ok (none, ⟨Text.trimStart rest, k + e.operators⟩) := by
    rw [← hb.suffix?_eq_none inner e]
    simp only [suffix?, Cursor.skipBlanks, trimStart_trimStart]
  show suffixed inner ⟨text ++ rest, k⟩ = _
  rw [ho]
  simp only [suffixes, hstop, ok_bind]

/-- What starts like no unary operator is read where an operand of one may stand. -/
theorem ReadsAt.eight (h : ReadsAt inner 9 text e) {c : Char} {cs : List Char}
    (ht : text = c :: cs) (hc : isOperandStart c = true) : ReadsAt inner 8 text e := by
  intro rest k hb hk
  have h := h rest k (hb.mono (by omega)) hk
  subst ht
  have hu : unaryOperator? (c :: cs ++ rest) = none := unaryOperator?_of_isOperandStart _ hc
  have hs : Cursor.skipBlanks ⟨c :: cs ++ rest, k⟩ = ⟨c :: cs ++ rest, k⟩ :=
    skipBlanks_cons _ k (isBlank_of_isFront (isFront_of_isOperandStart hc))
  show unaryLevel inner ⟨c :: cs ++ rest, k⟩ = _
  simp only [unaryLevel, hs, hu]
  exact h

/-! ## What nests -/

section Nests

variable {inner : Nesting}

theorem ReadsAt.unary (op : UnaryOp) (h : ReadsAt inner 8 text e) :
    ReadsAt inner.deeper 8 (op.symbol :: text) (unary op e) := by
  intro rest k hb hk
  have hs : Cursor.skipBlanks ⟨op.symbol :: (text ++ rest), k⟩ = ⟨op.symbol :: (text ++ rest), k⟩ :=
    skipBlanks_cons _ k (by cases op <;> decide)
  have hu : unaryOperator? (op.symbol :: (text ++ rest)) = some (op, text ++ rest) := by
    cases op <;> rfl
  have hoperand : inner.deeper.unary ⟨text ++ rest, k⟩ =
    .ok (e, ⟨Text.trimStart rest, k + e.operators⟩) := h rest k hb hk
  show unaryLevel inner.deeper ⟨op.symbol :: (text ++ rest), k⟩ = _
  simp only [unaryLevel, hs, hu, hoperand, ok_bind, operators]

/-- Parentheses make an operand of any expression. -/
theorem ReadsAt.parenthesis (h : ReadsAt inner 0 text e) :
    OpensSuffix inner.deeper ('(' :: text ++ [')']) e := by
  apply opensSuffix_of_primary
  intro rest k _ hk
  have hrest : '(' :: text ++ [')'] ++ rest = '(' :: text ++ ')' :: rest := by simp
  have hcond := h (')' :: rest) k (.close rest (by simp)) hk
  rw [trimStart_cons rest (by decide)] at hcond
  rw [hrest]
  exact primary_parenthesis inner.deeper hcond

theorem ReadsItems.array {items : List Expr} (h : ReadsItems inner ']' text items) :
    OpensSuffix inner.deeper ('[' :: text ++ [']']) (array items) := by
  apply opensSuffix_of_primary
  intro rest k _ hk
  have hrest : '[' :: text ++ [']'] ++ rest = '[' :: text ++ ']' :: rest := by simp
  rw [hrest]
  exact primary_array inner.deeper (h rest k hk)

theorem ReadsAt.conditional {ttext ctext atext : List Char} {t c a : Expr}
    (ht : ReadsAt inner.deeper 2 ttext t) (hc : ReadsAt inner 0 ctext c)
    (ha : ReadsAt inner 0 atext a) :
    ReadsAt inner.deeper 0 (ttext ++ ' ' :: '?' :: ' ' :: ctext ++ ' ' :: ':' :: ' ' :: atext)
      (conditional t c a) := by
  intro rest k hb hk
  rw [operators] at hk ⊢
  have hrest : ttext ++ ' ' :: '?' :: ' ' :: ctext ++ ' ' :: ':' :: ' ' :: atext ++ rest =
      ttext ++ ' ' :: '?' :: ' ' :: (ctext ++ ' ' :: ':' :: ' ' :: (atext ++ rest)) := by simp
  have htest : orLevel inner.deeper
      ⟨ttext ++ ' ' :: '?' :: ' ' :: (ctext ++ ' ' :: ':' :: ' ' :: (atext ++ rest)), k⟩ =
        .ok (t, ⟨'?' :: ' ' :: (ctext ++ ' ' :: ':' :: ' ' :: (atext ++ rest)),
          k + t.operators⟩) :=
    ht _ k (.question _ (by decide)) (by omega)
  have hconsequent : inner.deeper.conditional
      ⟨' ' :: (ctext ++ ' ' :: ':' :: ' ' :: (atext ++ rest)), k + t.operators⟩ =
        .ok (c, ⟨':' :: ' ' :: (atext ++ rest), k + t.operators + c.operators⟩) :=
    (levelAt_blank_cons inner 0 _ _).trans (hc _ _ (.colon _) (by omega))
  have halternate : inner.deeper.conditional
      ⟨' ' :: (atext ++ rest), k + t.operators + c.operators⟩ =
        .ok (a, ⟨Text.trimStart rest, k + t.operators + c.operators + a.operators⟩) :=
    (levelAt_blank_cons inner 0 _ _).trans (ha rest _ hb (by omega))
  show conditionalLevel inner.deeper _ = _
  rw [hrest]
  simp only [conditionalLevel, htest, ok_bind, branches, expect, Text.dropPrefix?, if_true,
    skipBlanks_cons _ _ (show isBlank '?' = false by decide),
    skipBlanks_cons _ _ (show isBlank ':' = false by decide), hconsequent, halternate]
  simp only [Nat.add_assoc]

end Nests

end DataBinding.Expr
