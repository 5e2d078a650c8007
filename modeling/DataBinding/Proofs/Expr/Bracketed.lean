import DataBinding.Proofs.Expr.Built
import DataBinding.Proofs.Expr.Token

/-!
# Expressions in parentheses

A text that is read as an expression is read as the same expression in front of a closing
parenthesis, wherever that stands: every loop of every level stops there, whatever the text ends
with. Only the limits can tell the two places apart, because less may nest in parentheses and
operators may have been counted before them.

Results:
* `Operand.counted`, `Whole.counted`: how many operators are counted.
* `Reaches.bind`: steps that are only stopped by a limit, one after the other.
* `carries_conditionalLevel`, `carries_itemList`: reading in front of a closing parenthesis, level
  by level.
* `nestsAlike_upTo`: the same for whatever may nest, by induction on the depth.
* `reaches_primary`: a text in parentheses is an operand.
* `readsWhole_nesting`: the depth of nesting that a text takes.
-/

namespace DataBinding.Expr

open Text (isBlank isDigit)

/-! ## Operators counted -/

mutual

/-- The reader counts the operators of what it builds, and does not count past the limit. -/
theorem Operand.counted {d k k' : Nat} {e : Expr} :
    Operand d k e k' → k' = k + e.operators ∧ (k ≤ maxOperators → k' ≤ maxOperators)
  | .literal _ | .undefined | .ident _ => ⟨rfl, id⟩
  | .bracket h => h.counted
  | .array h => h.counted
  | .member _ h hk => by
    rw [operators, h.counted.1, ← Nat.add_assoc]
    exact ⟨rfl, fun _ => h.counted.1 ▸ hk⟩
  | .index ho hkey hk => by
    rw [operators]
    exact ⟨by rw [hkey.counted.1, ho.counted.1]; omega, fun _ => hk⟩
  | .call hc ha hk => by
    rw [operators]
    exact ⟨by rw [ha.counted.1, hc.counted.1]; omega, fun _ => hk⟩
  | .unary _ h => h.counted
  | .binary _ hl hr hk => by
    rw [operators]
    exact ⟨by rw [hr.counted.1, hl.counted.1]; omega, fun _ => hk⟩
  | .membership _ hn hh hk => by
    rw [operators]
    exact ⟨by rw [hh.counted.1, hn.counted.1]; omega, fun _ => hk⟩

theorem Whole.counted {d k k' : Nat} {e : Expr} :
    Whole d k e k' → k' = k + e.operators ∧ (k ≤ maxOperators → k' ≤ maxOperators)
  | .operand h => h.counted
  | .branches ht hc ha => by
    rw [operators]
    exact ⟨by rw [ha.counted.1, hc.counted.1, ht.counted.1]; omega,
      fun hk => ha.counted.2 (hc.counted.2 (ht.counted.2 hk))⟩
  | .condition hc ht ha => by
    rw [operators]
    exact ⟨by rw [ha.counted.1, ht.counted.1, hc.counted.1]; omega,
      fun hk => ha.counted.2 (ht.counted.2 (hc.counted.2 hk))⟩

theorem Items.counted {d k k' : Nat} {items : List Expr} :
    Items d k items k' → k' = k + operatorsAll items ∧ (k ≤ maxOperators → k' ≤ maxOperators)
  | .nil => ⟨rfl, id⟩
  | .cons h hs => by
    rw [operatorsAll]
    exact ⟨by rw [hs.counted.1, h.counted.1]; omega, fun hk => hs.counted.2 (h.counted.2 hk)⟩

end

/-! ## Up to the limits -/

/-- The fault is that nesting is too deep, which only happens if `deep`, or that there are too many
    operators, which only happens if `count` is above the limit. -/
def Limited (deep : Prop) (count : Nat) (fault : Fault) : Prop :=
  fault.cause = .nestedTooDeeply ∧ deep ∨
    fault.cause = .tooManyOperators ∧ maxOperators < count

/-- The result is `a`, with the number of operators taken from `before` to `after`, unless a limit
    stops the reader. -/
structure Reaches {α : Type} (deep : Prop) (before after : Nat) (x : Except Fault α) (a : α) :
    Prop where
  le : before ≤ after
  result : x = .ok a ∨ ∃ fault, x = .error fault ∧ Limited deep after fault

namespace Reaches

variable {α β : Type} {deep deep' : Prop} {k m n : Nat} {x : Except Fault α} {a : α}

theorem ok (a : α) : Reaches deep k k (.ok a) a := ⟨Nat.le_refl k, .inl rfl⟩

theorem mono (h : Reaches deep k m x a) (hdeep : deep → deep') (hmn : m ≤ n) :
    Reaches deep' k n x a := by
  refine ⟨Nat.le_trans h.le hmn, ?_⟩
  rcases h.result with hok | ⟨fault, herror, hlimit⟩
  · exact .inl hok
  · refine .inr ⟨fault, herror, ?_⟩
    rcases hlimit with ⟨hcause, hd⟩ | ⟨hcause, hm⟩
    · exact .inl ⟨hcause, hdeep hd⟩
    · exact .inr ⟨hcause, Nat.lt_of_lt_of_le hm hmn⟩

theorem bind {f : α → Except Fault β} {b : β} (h : Reaches deep k m x a)
    (hf : Reaches deep m n (f a) b) : Reaches deep k n (x >>= f) b := by
  refine ⟨Nat.le_trans h.le hf.le, ?_⟩
  rcases (h.mono id hf.le).result with hok | ⟨fault, herror, hlimit⟩
  · rw [hok]
    exact hf.result
  · rw [herror]
    exact .inr ⟨fault, rfl, hlimit⟩

theorem countOperator (rest : List Char) (k : Nat) :
    Reaches deep k (k + 1) (Cursor.countOperator ⟨rest, k⟩) ⟨rest, k + 1⟩ := by
  refine ⟨Nat.le_succ k, ?_⟩
  rw [Cursor.countOperator]
  split
  · exact .inl rfl
  · rename_i hk
    exact .inr ⟨_, rfl, .inr ⟨rfl, Nat.lt_succ_of_le (Nat.le_of_not_lt hk)⟩⟩

end Reaches

/-! ## In front of a closing parenthesis -/

section Close

variable (tail : List Char)

theorem takeWhile_close {p : Char → Bool} (hp : p ')' = false) (cs : List Char) :
    (cs ++ ')' :: tail).takeWhile p = cs.takeWhile p ∧
      (cs ++ ')' :: tail).dropWhile p = cs.dropWhile p ++ ')' :: tail := by
  induction cs with
  | nil => simp [hp]
  | cons c cs ih =>
    rw [List.cons_append]
    cases hc : p c with
    | true => simp [hc, ih]
    | false => simp [hc]

theorem trimStart_close (cs : List Char) :
    Text.trimStart (cs ++ ')' :: tail) = Text.trimStart cs ++ ')' :: tail :=
  (takeWhile_close tail (by decide) cs).2

theorem takeName_close (cs : List Char) :
    takeName (cs ++ ')' :: tail) = ((takeName cs).1, (takeName cs).2 ++ ')' :: tail) := by
  obtain ⟨htake, hdrop⟩ := takeWhile_close tail (show isNameChar ')' = false by decide) cs
  rw [takeName, htake, hdrop, takeName]

theorem takeDigits_close (cs : List Char) :
    Decimal.takeDigits (cs ++ ')' :: tail) =
      ((Decimal.takeDigits cs).1, (Decimal.takeDigits cs).2 ++ ')' :: tail) := by
  obtain ⟨htake, hdrop⟩ := takeWhile_close tail (show isDigit ')' = false by decide) cs
  rw [Decimal.takeDigits, htake, hdrop, Decimal.takeDigits]

theorem takeNumber_close (cs : List Char) :
    takeNumber (cs ++ ')' :: tail) = ((takeNumber cs).1, (takeNumber cs).2 ++ ')' :: tail) := by
  simp only [takeNumber, takeDigits_close]
  cases (Decimal.takeDigits cs).2 with
  | nil => rfl
  | cons c rest =>
    by_cases hc : c = '.'
    · subst hc
      rw [List.cons_append]
      simp only [takeDigits_close]
      split <;> rfl
    · rw [List.cons_append]
      split
      · rename_i heq
        exact absurd (List.cons.inj heq).1 hc
      · split
        · rename_i heq
          exact absurd (List.cons.inj heq).1 hc
        · rfl

theorem takeQuoted_append {quote : Char} {cs text rest : List Char}
    (h : takeQuoted quote cs = some (text, rest)) :
    takeQuoted quote (cs ++ tail) = some (text, rest ++ tail) := by
  fun_induction takeQuoted quote cs generalizing text with
  | case1 => cases h
  | case2 cs =>
    obtain ⟨rfl, rfl⟩ := Prod.mk.inj (Option.some.inj h)
    rw [List.cons_append, takeQuoted.eq_def]
    simp only [if_true]
  | case3 hq => cases h
  | case4 d ds hq ih =>
    obtain ⟨⟨text', rest'⟩, htext, heq⟩ := Option.map_eq_some_iff.1 h
    obtain ⟨rfl, rfl⟩ := Prod.mk.inj heq
    rw [List.cons_append, List.cons_append, takeQuoted, if_neg hq, if_pos rfl, ih htext]
    rfl
  | case5 c cs hq hb ih =>
    obtain ⟨⟨text', rest'⟩, htext, heq⟩ := Option.map_eq_some_iff.1 h
    obtain ⟨rfl, rfl⟩ := Prod.mk.inj heq
    rw [List.cons_append, takeQuoted.eq_def]
    simp only [hq, hb, if_false, ih htext]
    rfl

theorem dropPrefix?_close {pattern : List Char} (hp : ')' ∉ pattern) (cs : List Char) :
    Text.dropPrefix? pattern (cs ++ ')' :: tail) =
      (Text.dropPrefix? pattern cs).map (· ++ ')' :: tail) := by
  induction pattern generalizing cs with
  | nil => rfl
  | cons p ps ih =>
    rw [List.mem_cons, not_or] at hp
    cases cs with
    | nil =>
      simp only [List.nil_append, Text.dropPrefix?, if_neg (Ne.symm hp.1), Option.map_none]
    | cons c cs =>
      rw [List.cons_append, Text.dropPrefix?, Text.dropPrefix?]
      split
      · exact ih hp.2 cs
      · rfl

theorem dropPrefix?_append_of_some {pattern cs rest : List Char}
    (h : Text.dropPrefix? pattern cs = some rest) :
    Text.dropPrefix? pattern (cs ++ tail) = some (rest ++ tail) := by
  rw [Text.eq_append_of_dropPrefix? h, List.append_assoc, Text.dropPrefix?_append]

theorem expect_append {c : Char} {cs rest : List Char} (h : expect c cs = .ok rest) :
    expect c (cs ++ tail) = .ok (rest ++ tail) := by
  rw [expect] at h
  split at h
  · rename_i hdrop
    rw [expect, dropPrefix?_append_of_some tail hdrop, Except.ok.inj h]
  · cases h

theorem unaryOperator?_close (cs : List Char) :
    unaryOperator? (cs ++ ')' :: tail) =
      (unaryOperator? cs).map fun (op, rest) => (op, rest ++ ')' :: tail) := by
  cases cs with
  | nil => rfl
  | cons c cs =>
    rw [List.cons_append]
    unfold unaryOperator?
    split <;> simp_all

theorem keyword?_close (word cs : List Char) :
    keyword? word (cs ++ ')' :: tail) = (keyword? word cs).map (· ++ ')' :: tail) := by
  rw [keyword?, takeName_close, keyword?]
  split <;> rfl

end Close

/-- The cursor in front of a closing parenthesis and what follows it, with more operators met. -/
def Cursor.enclosed (tail : List Char) (j : Nat) (cursor : Cursor) : Cursor :=
  ⟨cursor.rest ++ ')' :: tail, cursor.operators + j⟩

theorem skipBlanks_enclosed (tail : List Char) (j : Nat) (cursor : Cursor) :
    (cursor.enclosed tail j).skipBlanks = cursor.skipBlanks.enclosed tail j := by
  rw [Cursor.skipBlanks, Cursor.enclosed, trimStart_close, Cursor.enclosed, Cursor.skipBlanks]

/-- What `reader` reads, `other` reads in front of a closing parenthesis, up to the limits. -/
def Carries {α : Type} (deep : Prop) (tail : List Char) (j : Nat) (reader other : Reader α) : Prop :=
  ∀ cursor a next, reader cursor = .ok (a, next) →
    Reaches deep (cursor.operators + j) (next.operators + j) (other (cursor.enclosed tail j))
      (a, next.enclosed tail j)

/-- What may nest is read in front of a closing parenthesis as it is alone. -/
structure NestsAlike (deep : Prop) (tail : List Char) (j : Nat) (inner other : Nesting) : Prop where
  conditional : Carries deep tail j inner.conditional other.conditional
  negation : Carries deep tail j inner.negation other.negation
  unary : Carries deep tail j inner.unary other.unary
  items : ∀ close, Carries deep tail j (inner.items close) (other.items close)

/-! ## Operands -/

section Operands

variable {deep : Prop} {tail : List Char} {j : Nat} {inner other : Nesting}

theorem reaches_countOperator {cursor next : Cursor} (h : cursor.countOperator = .ok next) :
    Reaches deep (cursor.operators + j) (next.operators + j)
      (cursor.enclosed tail j).countOperator (next.enclosed tail j) := by
  rw [Cursor.countOperator] at h
  split at h
  · obtain rfl := Except.ok.inj h
    have hreach : Reaches deep (cursor.operators + j) (cursor.operators + j + 1)
        (cursor.enclosed tail j).countOperator
        ⟨cursor.rest ++ ')' :: tail, cursor.operators + j + 1⟩ := .countOperator _ _
    rw [Nat.add_right_comm] at hreach
    exact hreach
  · cases h

theorem reaches_counted {α : Type} {x a : α} {cursor next : Cursor}
    (h : (cursor.countOperator >>= fun counted => .ok (x, counted)) = .ok (a, next)) :
    Reaches deep (cursor.operators + j) (next.operators + j)
      ((cursor.enclosed tail j).countOperator >>= fun counted => .ok (x, counted))
      (a, next.enclosed tail j) := by
  obtain ⟨counted, hcount, h⟩ := bind_eq_ok.1 h
  obtain ⟨rfl, rfl⟩ := Prod.mk.inj (Except.ok.inj h)
  exact (reaches_countOperator hcount).bind (.ok _)

variable (h : NestsAlike deep tail j inner other)
include h

theorem carries_primary : Carries deep tail j (primary inner) (primary other) := by
  intro cursor e next he
  have hk : cursor.operators = cursor.skipBlanks.operators := rfl
  rw [hk]
  simp only [primary, skipBlanks_enclosed] at he ⊢
  generalize cursor.skipBlanks = cursor at he ⊢
  obtain ⟨rest, k⟩ := cursor
  cases rest with
  | nil => cases he
  | cons c cs =>
    simp only [Cursor.enclosed, List.cons_append] at he ⊢
    split at he
    · -- a text in quotes
      rename_i hq
      rw [if_pos hq]
      split at he
      · rename_i htext
        obtain ⟨rfl, rfl⟩ := Prod.mk.inj (Except.ok.inj he)
        rw [takeQuoted_append _ htext]
        exact .ok _
      · cases he
    rename_i hq
    rw [if_neg hq]
    split at he
    · -- a number
      rename_i hd
      rw [if_pos hd, ← List.cons_append, takeNumber_close]
      obtain ⟨rfl, rfl⟩ := Prod.mk.inj (Except.ok.inj he)
      exact .ok _
    rename_i hd
    rw [if_neg hd]
    split at he
    · -- parentheses
      rename_i hp
      rw [if_pos hp]
      obtain ⟨⟨e', cursor'⟩, hinner, he⟩ := bind_eq_ok.1 he
      obtain ⟨rest, hrest, he⟩ := bind_eq_ok.1 he
      obtain ⟨rfl, rfl⟩ := Prod.mk.inj (Except.ok.inj he)
      refine (h.conditional _ _ _ hinner).bind ?_
      rw [skipBlanks_enclosed]
      show Reaches _ _ _ (expect ')' (cursor'.skipBlanks.rest ++ ')' :: tail) >>= _) _
      rw [expect_append _ hrest]
      exact .ok _
    rename_i hp
    rw [if_neg hp]
    split at he
    · -- an array
      rename_i hb
      rw [if_pos hb]
      obtain ⟨⟨items, cursor'⟩, hinner, he⟩ := bind_eq_ok.1 he
      obtain ⟨rfl, rfl⟩ := Prod.mk.inj (Except.ok.inj he)
      exact (h.items _ _ _ _ hinner).bind (.ok _)
    rename_i hb
    rw [if_neg hb]
    split at he
    · -- a word
      rename_i hn
      rw [if_pos hn, ← List.cons_append, takeName_close]
      split at he
      · rename_i hword
        obtain ⟨rfl, rfl⟩ := Prod.mk.inj (Except.ok.inj he)
        simp only [hword]
        exact .ok _
      · cases he
    · cases he

/-- A suffix is read as well; where there is none, the closing parenthesis is none either. -/
theorem carries_suffix? (object : Expr) :
    Carries deep tail j (suffix? inner object) (suffix? other object) := by
  intro cursor e? next he
  have hk : cursor.operators = cursor.skipBlanks.operators := rfl
  rw [hk]
  simp only [suffix?, skipBlanks_enclosed] at he ⊢
  generalize cursor.skipBlanks = cursor at he ⊢
  obtain ⟨rest, k⟩ := cursor
  simp only [Cursor.enclosed] at he ⊢
  split at he
  · -- a member
    simp only [List.cons_append, trimStart_close, takeName_close]
    split at he
    · cases he
    · rename_i hname
      rw [if_neg hname]
      exact reaches_counted he
  · -- an index
    obtain ⟨⟨key, cursor'⟩, hkey, he⟩ := bind_eq_ok.1 he
    obtain ⟨rest, hrest, he⟩ := bind_eq_ok.1 he
    refine (h.conditional _ _ _ hkey).bind ?_
    rw [skipBlanks_enclosed]
    show Reaches _ _ _ (expect ']' (cursor'.skipBlanks.rest ++ ')' :: tail) >>= _) _
    rw [expect_append _ hrest]
    exact reaches_counted he
  · -- arguments
    obtain ⟨⟨args, cursor'⟩, hargs, he⟩ := bind_eq_ok.1 he
    exact (h.items _ _ _ _ hargs).bind (reaches_counted he)
  · rename_i hdot hindex hcall
    obtain ⟨rfl, rfl⟩ := Prod.mk.inj (Except.ok.inj he)
    cases rest with
    | nil => exact .ok _
    | cons c cs =>
      rw [List.cons_append]
      split
      · rename_i heq
        exact absurd (congrArg (· :: cs) (List.cons.inj heq).1) (hdot cs)
      · rename_i heq
        exact absurd (congrArg (· :: cs) (List.cons.inj heq).1) (hindex cs)
      · rename_i heq
        exact absurd (congrArg (· :: cs) (List.cons.inj heq).1) (hcall cs)
      · exact .ok _

theorem carries_suffixes (fuel : Nat) (object : Expr) :
    Carries deep tail j (suffixes inner fuel object) (suffixes other fuel object) := by
  induction fuel generalizing object with
  | zero =>
    intro cursor e next he
    cases he
  | succ fuel ih =>
    intro cursor e next he
    obtain ⟨⟨e?, cursor'⟩, hsuffix, he⟩ := bind_eq_ok.1 he
    refine (carries_suffix? h object _ _ _ hsuffix).bind ?_
    cases e? with
    | none =>
      obtain ⟨rfl, rfl⟩ := Prod.mk.inj (Except.ok.inj he)
      exact .ok _
    | some e' => exact ih e' _ _ _ he

theorem carries_suffixed : Carries deep tail j (suffixed inner) (suffixed other) := by
  intro cursor e next he
  obtain ⟨⟨e', cursor'⟩, hprimary, he⟩ := bind_eq_ok.1 he
  exact (carries_primary h _ _ _ hprimary).bind (carries_suffixes h _ _ _ _ _ he)

theorem carries_unaryLevel : Carries deep tail j (unaryLevel inner) (unaryLevel other) := by
  intro cursor e next he
  have hk : cursor.operators = cursor.skipBlanks.operators := rfl
  rw [hk]
  simp only [unaryLevel, skipBlanks_enclosed] at he ⊢
  generalize cursor.skipBlanks = cursor at he ⊢
  obtain ⟨rest, k⟩ := cursor
  simp only [Cursor.enclosed, unaryOperator?_close] at he ⊢
  split at he
  · rename_i op rest hrest
    obtain ⟨⟨operand, cursor'⟩, hinner, he⟩ := bind_eq_ok.1 he
    obtain ⟨rfl, rfl⟩ := Prod.mk.inj (Except.ok.inj he)
    rw [hrest]
    exact (h.unary _ _ _ hinner).bind (.ok _)
  · rename_i hnone
    rw [hnone]
    exact carries_suffixed h _ _ _ he

end Operands

/-! ## Operators -/

/-- The table finds the same operator in front of a closing parenthesis. -/
def Passes (operator? : OperatorTable) : Prop :=
  ∀ cs tail, operator? (cs ++ ')' :: tail) =
    (operator? cs).map fun (join, rest) => (join, rest ++ ')' :: tail)

theorem passes_symbols {ops : List (List Char × BinaryOp)} (h : ∀ op ∈ ops, ')' ∉ op.1) :
    Passes (symbols ops) := by
  intro cs tail
  rw [symbols, symbols]
  induction ops with
  | nil => rfl
  | cons op ops ih =>
    obtain ⟨symbol, op⟩ := op
    rw [List.findSome?_cons, List.findSome?_cons]
    simp only [dropPrefix?_close tail (h (symbol, op) List.mem_cons_self)]
    cases Text.dropPrefix? symbol cs with
    | some rest => rfl
    | none => exact ih fun op hop => h op (List.mem_cons_of_mem _ hop)

/-- A table with one operator, whatever stands for it. -/
theorem passes_map {spelling? : List Char → Option (List Char)} (join : Join)
    (h : ∀ cs tail, spelling? (cs ++ ')' :: tail) = (spelling? cs).map (· ++ ')' :: tail)) :
    Passes fun cs => (spelling? cs).map fun rest => (join, rest) := by
  intro cs tail
  simp only [h]
  cases spelling? cs <;> rfl

theorem Passes.or {first second : OperatorTable} (h₁ : Passes first) (h₂ : Passes second) :
    Passes fun cs => (first cs).or (second cs) := by
  intro cs tail
  simp only [h₁ cs tail, h₂ cs tail]
  cases first cs <;> rfl

theorem notIn?_close (cs tail : List Char) :
    notIn? (cs ++ ')' :: tail) = (notIn? cs).map (· ++ ')' :: tail) := by
  rw [notIn?, keyword?_close, notIn?]
  cases keyword? "not".toList cs with
  | none => rfl
  | some rest =>
    rw [Option.map_some, Option.bind_some, Option.bind_some, trimStart_close, keyword?_close]

theorem passes_word (w : String) (join : Join) : Passes (word w join) :=
  passes_map join fun cs tail => keyword?_close tail w.toList cs

theorem passes_relationOperator? : Passes relationOperator? :=
  ((passes_symbols (by decide)).or (passes_word "in" _)).or (passes_map _ notIn?_close)

theorem passes_andOperator? : Passes andOperator? :=
  (passes_symbols (by decide)).or (passes_word "and" _)

theorem passes_orOperator? : Passes orOperator? :=
  (passes_symbols (by decide)).or (passes_word "or" _)

section Levels

variable {deep : Prop} {tail : List Char} {j : Nat}

theorem carries_chain {operator? : OperatorTable} {operand operand' : Reader Expr}
    (hop : Passes operator?) (h : Carries deep tail j operand operand') (fuel : Nat)
    (left : Expr) :
    Carries deep tail j (chain operator? operand fuel left)
      (chain operator? operand' fuel left) := by
  induction fuel generalizing left with
  | zero =>
    intro cursor e next he
    cases he
  | succ fuel ih =>
    intro cursor e next he
    have hk : cursor.operators = cursor.skipBlanks.operators := rfl
    rw [hk]
    simp only [chain, skipBlanks_enclosed] at he ⊢
    generalize cursor.skipBlanks = cursor at he ⊢
    obtain ⟨rest, k⟩ := cursor
    simp only [Cursor.enclosed, hop rest tail] at he ⊢
    split at he
    · rename_i hnone
      obtain ⟨rfl, rfl⟩ := Prod.mk.inj (Except.ok.inj he)
      rw [hnone]
      exact .ok _
    · rename_i join after hsome
      obtain ⟨⟨right, cursor₁⟩, hright, he⟩ := bind_eq_ok.1 he
      obtain ⟨cursor₂, hcount, he⟩ := bind_eq_ok.1 he
      rw [hsome]
      exact (h _ _ _ hright).bind ((reaches_countOperator hcount).bind (ih _ _ _ _ he))

theorem carries_operatorLevel {operator? : OperatorTable} {operand operand' : Reader Expr}
    (hop : Passes operator?) (h : Carries deep tail j operand operand') :
    Carries deep tail j (operatorLevel operator? operand) (operatorLevel operator? operand') := by
  intro cursor e next he
  obtain ⟨⟨left, cursor'⟩, hleft, he⟩ := bind_eq_ok.1 he
  exact (h _ _ _ hleft).bind (carries_chain hop h _ _ _ _ _ he)

variable {inner other : Nesting} (h : NestsAlike deep tail j inner other)
include h

theorem carries_equalityLevel :
    Carries deep tail j (equalityLevel inner) (equalityLevel other) := by
  have hproduct : Carries deep tail j (productLevel inner) (productLevel other) :=
    carries_operatorLevel (passes_symbols (by decide)) (carries_unaryLevel h)
  have hsum : Carries deep tail j (sumLevel inner) (sumLevel other) :=
    carries_operatorLevel (passes_symbols (by decide)) hproduct
  have hrelation : Carries deep tail j (relationLevel inner) (relationLevel other) :=
    carries_operatorLevel passes_relationOperator? hsum
  exact carries_operatorLevel (passes_symbols (by decide)) hrelation

theorem carries_notLevel : Carries deep tail j (notLevel inner) (notLevel other) := by
  intro cursor e next he
  have hk : cursor.operators = cursor.skipBlanks.operators := rfl
  rw [hk]
  simp only [notLevel, skipBlanks_enclosed] at he ⊢
  generalize cursor.skipBlanks = cursor at he ⊢
  have hword : keyword? "not".toList (cursor.enclosed tail j).rest =
      (keyword? "not".toList cursor.rest).map (· ++ ')' :: tail) := keyword?_close _ _ _
  rw [hword]
  split at he
  · rename_i rest hrest
    obtain ⟨⟨operand, cursor'⟩, hinner, he⟩ := bind_eq_ok.1 he
    obtain ⟨rfl, rfl⟩ := Prod.mk.inj (Except.ok.inj he)
    rw [hrest]
    exact (h.negation _ _ _ hinner).bind (.ok _)
  · rename_i hnone
    rw [hnone]
    exact carries_equalityLevel h _ _ _ he

theorem carries_orLevel : Carries deep tail j (orLevel inner) (orLevel other) :=
  carries_operatorLevel passes_orOperator?
    (carries_operatorLevel passes_andOperator? (carries_notLevel h))

/-! ## Conditionals and lists -/

theorem carries_branches (test : Expr) :
    Carries deep tail j (branches inner test) (branches other test) := by
  intro cursor e next he
  obtain ⟨⟨consequent, cursor₁⟩, hc, he⟩ := bind_eq_ok.1 he
  obtain ⟨rest, hrest, he⟩ := bind_eq_ok.1 he
  obtain ⟨⟨alternate, cursor₂⟩, ha, he⟩ := bind_eq_ok.1 he
  obtain ⟨rfl, rfl⟩ := Prod.mk.inj (Except.ok.inj he)
  refine (h.conditional _ _ _ hc).bind ?_
  simp only [skipBlanks_enclosed]
  show Reaches _ _ _ (expect ':' (cursor₁.skipBlanks.rest ++ ')' :: tail) >>= _) _
  rw [expect_append _ hrest]
  exact (h.conditional _ _ _ ha).bind (.ok _)

theorem carries_condition (consequent : Expr) :
    Carries deep tail j (condition inner consequent) (condition other consequent) := by
  intro cursor e next he
  obtain ⟨⟨test, cursor₁⟩, ht, he⟩ := bind_eq_ok.1 he
  refine (carries_orLevel h _ _ _ ht).bind ?_
  have hword : keyword? "else".toList (cursor₁.skipBlanks.enclosed tail j).rest =
      (keyword? "else".toList cursor₁.skipBlanks.rest).map (· ++ ')' :: tail) :=
    keyword?_close _ _ _
  simp only [skipBlanks_enclosed, hword] at he ⊢
  split at he
  · rename_i rest hrest
    obtain ⟨⟨alternate, cursor₂⟩, ha, he⟩ := bind_eq_ok.1 he
    obtain ⟨rfl, rfl⟩ := Prod.mk.inj (Except.ok.inj he)
    rw [hrest]
    exact (h.conditional _ _ _ ha).bind (.ok _)
  · cases he

theorem carries_conditionalLevel :
    Carries deep tail j (conditionalLevel inner) (conditionalLevel other) := by
  intro cursor e next he
  obtain ⟨⟨e', cursor'⟩, hor, he⟩ := bind_eq_ok.1 he
  refine (carries_orLevel h _ _ _ hor).bind ?_
  have hk : cursor'.operators = cursor'.skipBlanks.operators := rfl
  rw [hk]
  simp only [skipBlanks_enclosed] at he ⊢
  generalize cursor'.skipBlanks = cursor' at he ⊢
  obtain ⟨rest, k⟩ := cursor'
  simp only [Cursor.enclosed, dropPrefix?_close tail (show ')' ∉ ['?'] by decide),
    keyword?_close] at he ⊢
  split at he
  · rename_i after hafter
    rw [hafter]
    exact carries_branches h _ _ _ _ he
  rename_i hbranch
  rw [hbranch]
  split at he
  · rename_i after hafter
    rw [hafter]
    exact carries_condition h _ _ _ _ he
  · rename_i hnone
    obtain ⟨rfl, rfl⟩ := Prod.mk.inj (Except.ok.inj he)
    rw [hnone]
    exact .ok _

end Levels

section Lists

variable {deep : Prop} {tail : List Char} {j : Nat} {item item' : Reader Expr}
  (h : Carries deep tail j item item') (close : Char)
include h

/-- More fuel does no harm. -/
theorem carries_moreItems {fuel fuel' : Nat} (hfuel : fuel ≤ fuel') :
    Carries deep tail j (moreItems item close fuel) (moreItems item' close fuel') := by
  induction fuel generalizing fuel' with
  | zero =>
    intro cursor es next he
    cases he
  | succ fuel ih =>
    intro cursor es next he
    obtain ⟨fuel', rfl⟩ : ∃ f, fuel' = f + 1 := ⟨fuel' - 1, by omega⟩
    obtain ⟨⟨e, cursor₁⟩, hitem, he⟩ := bind_eq_ok.1 he
    refine (h _ _ _ hitem).bind ?_
    have hcomma : Text.dropPrefix? [','] (cursor₁.skipBlanks.enclosed tail j).rest =
        (Text.dropPrefix? [','] cursor₁.skipBlanks.rest).map (· ++ ')' :: tail) :=
      dropPrefix?_close tail (by decide) _
    simp only [skipBlanks_enclosed, hcomma] at he ⊢
    split at he
    · rename_i rest hrest
      obtain ⟨⟨es', cursor₂⟩, hes, he⟩ := bind_eq_ok.1 he
      obtain ⟨rfl, rfl⟩ := Prod.mk.inj (Except.ok.inj he)
      rw [hrest]
      exact (ih (by omega) _ _ _ hes).bind (.ok _)
    · rename_i hnone
      obtain ⟨rest, hrest, he⟩ := bind_eq_ok.1 he
      obtain ⟨rfl, rfl⟩ := Prod.mk.inj (Except.ok.inj he)
      rw [hnone]
      show Reaches _ _ _ (expect close (cursor₁.skipBlanks.rest ++ ')' :: tail) >>= _) _
      rw [expect_append _ hrest]
      exact .ok _

theorem carries_itemList (hempty : ∀ k r, item ⟨[], k⟩ ≠ .ok r) :
    Carries deep tail j (itemList item close) (itemList item' close) := by
  intro cursor es next he
  have hk : cursor.operators = cursor.skipBlanks.operators := rfl
  rw [hk]
  simp only [itemList, skipBlanks_enclosed] at he ⊢
  generalize cursor.skipBlanks = cursor at he ⊢
  obtain ⟨rest, k⟩ := cursor
  simp only [Cursor.enclosed] at he ⊢
  split at he
  · rename_i after hafter
    obtain ⟨rfl, rfl⟩ := Prod.mk.inj (Except.ok.inj he)
    rw [dropPrefix?_append_of_some _ hafter]
    exact .ok _
  · rename_i hnone
    cases rest with
    | nil =>
      -- the closing parenthesis that is added must not close the list
      obtain ⟨r, hr, -⟩ := bind_eq_ok.1 he
      exact absurd hr (hempty k r)
    | cons c cs =>
      have hnone' : Text.dropPrefix? [close] (c :: cs ++ ')' :: tail) = none := by
        rw [Text.dropPrefix?] at hnone
        rw [List.cons_append, Text.dropPrefix?]
        split at hnone
        · cases hnone
        · rename_i hne
          rw [if_neg hne]
      rw [hnone']
      exact carries_moreItems h close (by simp) _ _ _ he

end Lists

/-! ## Nesting -/

theorem conditionalLevel_nil (inner : Nesting) (k : Nat) :
    conditionalLevel inner ⟨[], k⟩ = fail .unexpectedEnd [] := rfl

theorem nestsAlike_deeper {deep : Prop} {tail : List Char} {j : Nat} {inner other : Nesting}
    (h : NestsAlike deep tail j inner other) :
    NestsAlike deep tail j inner.deeper other.deeper where
  conditional := carries_conditionalLevel h
  negation := carries_notLevel h
  unary := carries_unaryLevel h
  items close := by
    refine carries_itemList (carries_conditionalLevel h) close fun k r hr => ?_
    rw [conditionalLevel_nil] at hr
    cases hr

/-- Where nothing may nest, nesting is too deep. -/
theorem carries_forbidden {α : Type} {R : Nat → Nat → α → Nat → Prop} {depth : Nat}
    {reader : Reader α} (h : Builds (Below R depth) reader)
    (hR : ∀ d k a k', R d k a k' → k ≤ k') (tail : List Char) (j : Nat) :
    Carries (0 < depth) tail j reader fun cursor => fail .nestedTooDeeply cursor.rest := by
  intro cursor a next ha
  obtain ⟨d, rfl, hbuilt⟩ := h cursor a next ha
  exact ⟨Nat.add_le_add_right (hR _ _ _ _ hbuilt) j,
    .inr ⟨_, rfl, .inl ⟨rfl, Nat.succ_pos d⟩⟩⟩

theorem nestsAlike_forbidden (tail : List Char) (j depth : Nat) :
    NestsAlike (0 < depth) tail j (.upTo depth) .forbidden := by
  have h := nestsBelow_upTo depth
  have hoperand : ∀ d k e k', Operand d k e k' → k ≤ k' := fun d k e k' hbuilt =>
    hbuilt.counted.1 ▸ Nat.le_add_right k _
  refine ⟨?_, ?_, ?_, fun close => ?_⟩
  · exact carries_forbidden h.conditional
      (fun d k e k' hbuilt => hbuilt.counted.1 ▸ Nat.le_add_right k _) tail j
  · exact carries_forbidden h.negation hoperand tail j
  · exact carries_forbidden h.unary hoperand tail j
  · exact carries_forbidden (h.items close)
      (fun d k es k' hbuilt => hbuilt.counted.1 ▸ Nat.le_add_right k _) tail j

/-- What is read with some depth of nesting is read with another, unless that is less. The induction
    is on the depths, down to where one of them is used up. -/
theorem nestsAlike_upTo (tail : List Char) (j depth other : Nat) :
    NestsAlike (other < depth) tail j (.upTo depth) (.upTo other) := by
  induction other generalizing depth with
  | zero => exact nestsAlike_forbidden tail j depth
  | succ other ih =>
    cases depth with
    | zero =>
      have hfails : ∀ {α : Type} (reader : Reader α), Carries (other + 1 < 0) tail j
          (fun cursor => fail .nestedTooDeeply cursor.rest) reader := by
        intro α reader cursor a next ha
        cases ha
      exact ⟨hfails _, hfails _, hfails _, fun _ => hfails _⟩
    | succ depth =>
      have h := nestsAlike_deeper (ih depth)
      rw [← Nat.succ_lt_succ_iff] at h
      exact h

/-! ## Whole texts -/

/-- The text is read as the expression with at most `depth` levels of nesting, but for blanks. -/
def ReadsWhole (depth : Nat) (cs : List Char) (e : Expr) : Prop :=
  ∃ cursor, conditionalLevel (.upTo depth) ⟨cs, 0⟩ = .ok (e, cursor) ∧ cursor.skipBlanks.rest = []

theorem readsWhole_of_parse {cs : List Char} {e : Expr} (h : parse cs = .ok e) :
    ReadsWhole maxNesting cs e :=
  parse_ok h

theorem operators_of_conditionalLevel {depth : Nat} {cs : List Char} {e : Expr} {cursor : Cursor}
    (h : conditionalLevel (.upTo depth) ⟨cs, 0⟩ = .ok (e, cursor)) :
    cursor.operators = e.operators ∧ e.operators ≤ maxOperators := by
  have hbuilt : Whole depth 0 e cursor.operators :=
    conditionalLevel_builds (nestsBelow_upTo depth) _ _ _ h
  have hcount := hbuilt.counted.1
  rw [Nat.zero_add] at hcount
  exact ⟨hcount, hcount ▸ hbuilt.counted.2 (Nat.zero_le _)⟩

/-- A text in parentheses is an operand, whatever follows. -/
theorem reaches_primary {depth : Nat} {cs : List Char} {e : Expr} (h : ReadsWhole depth cs e)
    (other : Nat) (rest : List Char) (k : Nat) :
    Reaches (other < depth) k (k + e.operators)
      (primary (.upTo (other + 1)) ⟨'(' :: (cs ++ ')' :: rest), k⟩)
      (e, ⟨rest, k + e.operators⟩) := by
  obtain ⟨cursor, hread, hblank⟩ := h
  have hinner := carries_conditionalLevel (nestsAlike_upTo rest k depth other) _ _ _ hread
  simp only [Cursor.enclosed, Nat.zero_add, (operators_of_conditionalLevel hread).1,
    Nat.add_comm e.operators k] at hinner
  have hclose : Text.trimStart (cursor.rest ++ ')' :: rest) = ')' :: rest := by
    rw [trimStart_close, show Text.trimStart cursor.rest = [] from hblank, List.nil_append]
  simp only [primary, skipBlanks_cons _ _ (show isBlank '(' = false by decide)]
  refine hinner.bind ?_
  simp only [Cursor.skipBlanks, hclose]
  exact .ok _

/-- The text is accepted with at most `depth` levels of nesting. -/
def accepts (depth : Nat) (cs : List Char) : Bool :=
  match conditionalLevel (.upTo depth) ⟨cs, 0⟩ with
  | .ok (_, cursor) => cursor.skipBlanks.rest.isEmpty
  | .error _ => false

/-- The levels of nesting that an accepted text takes. -/
def nesting (cs : List Char) : Nat :=
  ((List.range maxNesting).find? (accepts · cs)).getD maxNesting

/-- With fewer levels of nesting the text is read as the same expression, or not at all. -/
theorem readsWhole_unique {depth depth' : Nat} {cs : List Char} {e e' : Expr}
    (h : ReadsWhole depth cs e) (h' : ReadsWhole depth' cs e') : e = e' := by
  have hprimary : ∀ {d : Nat} {e : Expr}, ReadsWhole d cs e → d ≤ max depth depth' →
      primary (.upTo (max depth depth' + 1)) ⟨'(' :: (cs ++ [')']), 0⟩ =
        .ok (e, ⟨[], 0 + e.operators⟩) := by
    intro d e h hd
    rcases (reaches_primary h (max depth depth') [] 0).result with hok | ⟨fault, -, hlimit⟩
    · exact hok
    · obtain ⟨cursor, hread, -⟩ := h
      have hcount := (operators_of_conditionalLevel hread).2
      rcases hlimit with ⟨-, hdeep⟩ | ⟨-, hmany⟩ <;> omega
  have hsame := (hprimary h (Nat.le_max_left _ _)).symm.trans (hprimary h' (Nat.le_max_right _ _))
  exact (Prod.mk.inj (Except.ok.inj hsame)).1

theorem readsWhole_nesting {cs : List Char} {e : Expr} (h : parse cs = .ok e) :
    ReadsWhole (nesting cs) cs e := by
  rw [nesting]
  cases hfind : (List.range maxNesting).find? (accepts · cs) with
  | none => exact readsWhole_of_parse h
  | some depth =>
    have haccepts : accepts depth cs = true := by simpa using List.find?_some hfind
    rw [accepts] at haccepts
    split at haccepts
    · rename_i e' cursor hread
      have hreads : ReadsWhole depth cs e' := ⟨cursor, hread, List.isEmpty_iff.1 haccepts⟩
      rw [readsWhole_unique (readsWhole_of_parse h) hreads]
      exact hreads
    · cases haccepts

end DataBinding.Expr
