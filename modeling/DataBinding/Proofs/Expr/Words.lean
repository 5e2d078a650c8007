import DataBinding.Proofs.Expr.Bracketed
import DataBinding.Proofs.Expr.Level

/-!
# Operators in words and in symbols

An operator between operands in parentheses is read as the same node whether it is spelled as a word
or as a symbol, and so is a conditional in either order of its parts. The operands are any texts
that are accepted alone. This only fails where the whole goes past a limit: parentheses are a level
of nesting, and so are the operand of `not` and the branches of a conditional.

Results:
* `reaches_operand`: an operand in parentheses, at every level of precedence.
* `parsesWithin_operator`, `parsesWithin_not`, `parsesWithin_bang`, `parsesWithin_condition`,
  `parsesWithin_branches`: the ways in which operators stand with their operands.
* `parsesWithin_spellings`: the spellings side by side.
-/

namespace DataBinding.Expr

open Text (isBlank isDigit)

/-- The text is parsed as the expression, unless it nests too deeply, which takes a `depth` above
    the limit, or has too many operators, which takes a number of `operators` above the limit. -/
def ParsesWithin (depth operators : Nat) (text : List Char) (e : Expr) : Prop :=
  parse text = .ok e ∨ ∃ error, parse text = .error error ∧
    (error.cause = .nestedTooDeeply ∧ maxNesting < depth ∨
      error.cause = .tooManyOperators ∧ maxOperators < operators)

theorem ParsesWithin.parse_eq {depth operators : Nat} {text : List Char} {e : Expr}
    (h : ParsesWithin depth operators text e) (hdepth : depth ≤ maxNesting)
    (hoperators : operators ≤ maxOperators) : parse text = .ok e := by
  rcases h with h | ⟨error, -, hlimit⟩
  · exact h
  · rcases hlimit with ⟨-, hdeep⟩ | ⟨-, hmany⟩ <;> omega

theorem parsesWithin_of_reaches {depth n : Nat} {text : List Char} {e : Expr}
    (h : Reaches (maxNesting < depth) 0 n (conditionalLevel (.upTo maxNesting) ⟨text, 0⟩)
      (e, ⟨[], n⟩)) : ParsesWithin depth n text e := by
  rcases h.result with hok | ⟨fault, herror, hlimit⟩
  · refine .inl ?_
    rw [parse, parseText, hok]
    rfl
  · refine .inr ⟨⟨fault.cause, Text.bytes text - Text.bytes fault.rest, String.ofList text⟩, ?_,
      hlimit⟩
    rw [parse, parseText, herror]
    rfl

/-- The text in parentheses. -/
def parenthesized (cs : List Char) : List Char := '(' :: (cs ++ [')'])

/-! ## Levels of precedence -/

/-- At the level and at the tighter ones, reading ends in front of this text, which has no blank in
    front. -/
structure EndsAt (p : Nat) (rest : List Char) : Prop where
  trimmed : Text.trimStart rest = rest
  suffix : ∀ inner e k, suffix? inner e ⟨rest, k⟩ = .ok (none, ⟨rest, k⟩)
  table : ∀ q, p ≤ q → tableAt q rest = none

theorem endsAt_nil (p : Nat) : EndsAt p [] := by
  refine ⟨rfl, fun _ _ _ => rfl, fun q _ => ?_⟩
  unfold tableAt
  split <;> rfl

section Levels

variable {deep : Prop} {inner : Nesting} {k n : Nat} {cs rest : List Char} {e : Expr}

theorem reaches_operatorLevel {operator? : OperatorTable} {operand : Reader Expr}
    (h : Reaches deep k n (operand ⟨cs, k⟩) (e, ⟨rest, n⟩)) (ht : Text.trimStart rest = rest)
    (hstop : operator? rest = none) :
    Reaches deep k n (operatorLevel operator? operand ⟨cs, k⟩) (e, ⟨rest, n⟩) := by
  refine h.bind ?_
  have hnone : operator? (Text.trimStart rest) = none := by rw [ht, hstop]
  show Reaches _ _ _ (chain operator? operand (maxOperators + 1) e ⟨rest, n⟩) _
  rw [chain_stop hnone, ht]
  exact .ok _

/-- Where the text does not start with `not`, a looser level reads what the tighter one reads. -/
theorem reaches_looser {p : Nat} (h2 : 2 ≤ p) (h7 : p ≤ 7) (hcs : Text.trimStart cs = cs)
    (hnot : p = 4 → keyword? "not".toList cs = none)
    (h : Reaches deep k n (levelAt inner (p + 1) ⟨cs, k⟩) (e, ⟨rest, n⟩))
    (ht : Text.trimStart rest = rest) (hstop : tableAt p rest = none) :
    Reaches deep k n (levelAt inner p ⟨cs, k⟩) (e, ⟨rest, n⟩) := by
  by_cases h4 : p = 4
  · subst h4
    show Reaches deep k n (notLevel inner ⟨cs, k⟩) _
    simp only [notLevel, Cursor.skipBlanks, hcs, hnot]
    exact reaches_operatorLevel h ht hstop
  · rw [levelAt_eq inner h2 h7 h4]
    exact reaches_operatorLevel h ht hstop

/-- From a tight level to a loose one, step by step. -/
theorem reaches_loosest {p q : Nat} (h2 : 2 ≤ q) (hqp : q ≤ p) (h8 : p ≤ 8)
    (hcs : Text.trimStart cs = cs) (hnot : q ≤ 4 → 4 < p → keyword? "not".toList cs = none)
    (h : Reaches deep k n (levelAt inner p ⟨cs, k⟩) (e, ⟨rest, n⟩)) (hend : EndsAt q rest) :
    Reaches deep k n (levelAt inner q ⟨cs, k⟩) (e, ⟨rest, n⟩) := by
  obtain ⟨i, rfl⟩ := Nat.exists_eq_add_of_le hqp
  induction i with
  | zero => exact h
  | succ i ih =>
    refine ih (by omega) (by omega) (fun hq hp => hnot hq (by omega)) ?_
    exact reaches_looser (by omega) (by omega) hcs (fun h4 => hnot (by omega) (by omega)) h
      hend.trimmed (hend.table _ (by omega))

theorem reaches_conditionalLevel (h : Reaches deep k n (orLevel inner ⟨cs, k⟩) (e, ⟨rest, n⟩))
    (ht : Text.trimStart rest = rest) (hbranch : Text.dropPrefix? ['?'] rest = none)
    (hif : keyword? "if".toList rest = none) :
    Reaches deep k n (conditionalLevel inner ⟨cs, k⟩) (e, ⟨rest, n⟩) := by
  refine h.bind ?_
  simp only [Cursor.skipBlanks, ht, hbranch, hif]
  exact .ok _

end Levels

/-! ## Operands in parentheses -/

section Operands

variable {depth : Nat} {a : List Char} {A : Expr} (ha : ReadsWhole depth a A) (other k : Nat)
include ha

/-- An operand in parentheses is read at every level that ends in front of what follows. -/
theorem reaches_operand {p : Nat} (h2 : 2 ≤ p) (h8 : p ≤ 8) {after rest : List Char}
    (hafter : Text.trimStart after = rest) (hend : EndsAt p rest) :
    Reaches (other < depth) k (k + A.operators)
      (levelAt (.upTo (other + 1)) p ⟨parenthesized a ++ after, k⟩)
      (A, ⟨rest, k + A.operators⟩) := by
  have hcs : parenthesized a ++ after = '(' :: (a ++ ')' :: after) := by
    simp [parenthesized]
  have hsuffix : suffix? (.upTo (other + 1)) A ⟨after, k + A.operators⟩ =
      .ok (none, ⟨rest, k + A.operators⟩) := by
    rw [← hend.suffix (.upTo (other + 1)) A]
    simp only [suffix?, Cursor.skipBlanks, hafter, hend.trimmed]
  have hsuffixed : Reaches (other < depth) k (k + A.operators)
      (suffixed (.upTo (other + 1)) ⟨'(' :: (a ++ ')' :: after), k⟩)
      (A, ⟨rest, k + A.operators⟩) := by
    refine (reaches_primary ha other after k).bind ?_
    simp only [suffixes, hsuffix, ok_bind]
    exact .ok _
  have hunary : Reaches (other < depth) k (k + A.operators)
      (levelAt (.upTo (other + 1)) 8 ⟨'(' :: (a ++ ')' :: after), k⟩)
      (A, ⟨rest, k + A.operators⟩) := by
    show Reaches _ _ _ (unaryLevel (.upTo (other + 1)) ⟨'(' :: (a ++ ')' :: after), k⟩) _
    simp only [unaryLevel, skipBlanks_cons _ _ (show isBlank '(' = false by decide)]
    exact hsuffixed
  rw [hcs]
  exact reaches_loosest h2 h8 (Nat.le_refl 8) (trimStart_cons _ (by decide)) (fun _ _ => rfl)
    hunary hend

theorem reaches_lastOperand {p : Nat} (h2 : 2 ≤ p) (h8 : p ≤ 8) :
    Reaches (other < depth) k (k + A.operators)
      (levelAt (.upTo (other + 1)) p ⟨parenthesized a, k⟩) (A, ⟨[], k + A.operators⟩) := by
  rw [← List.append_nil (parenthesized a)]
  exact reaches_operand ha other k h2 h8 rfl (endsAt_nil p)

/-- As a branch it may stand in front of the rest of a conditional. -/
theorem reaches_branch {after rest : List Char} (hafter : Text.trimStart after = rest)
    (hend : EndsAt 2 rest) (hbranch : Text.dropPrefix? ['?'] rest = none)
    (hif : keyword? "if".toList rest = none) :
    Reaches (other < depth) k (k + A.operators)
      (conditionalLevel (.upTo (other + 1)) ⟨' ' :: (parenthesized a ++ after), k⟩)
      (A, ⟨rest, k + A.operators⟩) := by
  have hblank := levelAt_blank_cons (.upTo (other + 1)) 0 (parenthesized a ++ after) k
  have hor := reaches_operand ha other k (Nat.le_refl 2) (by decide) hafter hend
  have hlevel := reaches_conditionalLevel hor hend.trimmed hbranch hif
  show Reaches _ _ _ (levelAt (.upTo (other + 1)) 0 _) _
  rw [hblank]
  exact hlevel

theorem reaches_lastBranch :
    Reaches (other < depth) k (k + A.operators)
      (conditionalLevel (.upTo (other + 1)) ⟨' ' :: parenthesized a, k⟩)
      (A, ⟨[], k + A.operators⟩) := by
  rw [← List.append_nil (parenthesized a)]
  exact reaches_branch ha other k rfl (endsAt_nil 2) rfl rfl

end Operands

/-! ## Infix operators -/

/-- The text is an operator of a precedence, and ends the operand in front of it. -/
structure OperatorAt (p : Nat) (w : List Char) (join : Join) : Prop where
  level : 2 ≤ p ∧ p ≤ 7 ∧ p ≠ 4
  found : ∀ rest, tableAt p (w ++ ' ' :: rest) = some (join, ' ' :: rest)
  ends : ∀ rest, EndsAt (p + 1) (w ++ ' ' :: rest)

theorem reaches_turn {deep : Prop} {k m n fuel : Nat} {operator? : OperatorTable}
    {operand : Reader Expr} {rest after after' : List Char} {join : Join} {left right : Expr}
    {result : Expr × Cursor} (h : operator? (Text.trimStart rest) = some (join, after))
    (hright : Reaches deep k m (operand ⟨after, k⟩) (right, ⟨after', m⟩))
    (hnext : Reaches deep (m + 1) n
      (chain operator? operand fuel (join left right) ⟨after', m + 1⟩) result) :
    Reaches deep k n (chain operator? operand (fuel + 1) left ⟨rest, k⟩) result := by
  simp only [chain, Cursor.skipBlanks, h]
  exact hright.bind ((Reaches.countOperator _ _).bind hnext)

section Spellings

variable {a b c : List Char} {A B C : Expr}

theorem reaches_operator {p m l : Nat} {w : List Char} {join : Join} (hw : OperatorAt p w join)
    (ha : ReadsWhole m a A) (hb : ReadsWhole l b B) (other k : Nat) :
    Reaches (other < max m l) k (k + A.operators + B.operators + 1)
      (levelAt (.upTo (other + 1)) p ⟨parenthesized a ++ ' ' :: (w ++ ' ' :: parenthesized b), k⟩)
      (join A B, ⟨[], k + A.operators + B.operators + 1⟩) := by
  obtain ⟨h2, h7, h4⟩ := hw.level
  have hends := hw.ends (parenthesized b)
  have htrim : Text.trimStart (' ' :: (w ++ ' ' :: parenthesized b)) =
      w ++ ' ' :: parenthesized b := (trimStart_blank_cons _).trans hends.trimmed
  have hleft := reaches_operand ha other k (by omega) (by omega) htrim hends
  have hright : Reaches (other < l) (k + A.operators) (k + A.operators + B.operators)
      (levelAt (.upTo (other + 1)) (p + 1) ⟨' ' :: parenthesized b, k + A.operators⟩)
      (B, ⟨[], k + A.operators + B.operators⟩) := by
    rw [levelAt_blank_cons]
    exact reaches_lastOperand hb other _ (by omega) (by omega)
  have hfound : tableAt p (Text.trimStart (w ++ ' ' :: parenthesized b)) =
      some (join, ' ' :: parenthesized b) := by rw [hends.trimmed, hw.found]
  have hstop : tableAt p (Text.trimStart []) = none := (endsAt_nil 0).table p (Nat.zero_le p)
  rw [levelAt_eq _ h2 h7 h4]
  refine (hleft.mono (fun h => Nat.lt_of_lt_of_le h (Nat.le_max_left m l)) (Nat.le_refl _)).bind ?_
  refine reaches_turn hfound
    (hright.mono (fun h => Nat.lt_of_lt_of_le h (Nat.le_max_right m l)) (Nat.le_refl _)) ?_
  rw [show maxOperators = 255 + 1 from rfl, chain_stop hstop]
  exact .ok _

/-- What is left to do for a text that is read to its end. -/
theorem parsesWithin_of_level {p depth n : Nat} {text : List Char} {e : Expr} (h2 : 2 ≤ p)
    (h8 : p ≤ 8) (htext : Text.trimStart text = text)
    (hnot : 4 < p → keyword? "not".toList text = none)
    (h : Reaches (maxNesting < depth) 0 n (levelAt (.upTo maxNesting) p ⟨text, 0⟩) (e, ⟨[], n⟩)) :
    ParsesWithin depth n text e := by
  have hor : Reaches (maxNesting < depth) 0 n (orLevel (.upTo maxNesting) ⟨text, 0⟩)
      (e, ⟨[], n⟩) :=
    reaches_loosest (Nat.le_refl 2) h2 h8 htext (fun _ => hnot) h (endsAt_nil 2)
  exact parsesWithin_of_reaches (reaches_conditionalLevel hor rfl rfl rfl)

theorem parsesWithin_operator {p : Nat} {w : List Char} {join : Join} (hw : OperatorAt p w join)
    (ha : parse a = .ok A) (hb : parse b = .ok B) :
    ParsesWithin (max (nesting a) (nesting b) + 1) (A.operators + B.operators + 1)
      (parenthesized a ++ ' ' :: (w ++ ' ' :: parenthesized b)) (join A B) := by
  obtain ⟨h2, h7, -⟩ := hw.level
  have h := reaches_operator hw (readsWhole_nesting ha) (readsWhole_nesting hb) 63 0
  rw [Nat.zero_add] at h
  exact parsesWithin_of_level h2 (by omega) rfl (fun _ => rfl)
    (h.mono Nat.succ_lt_succ (Nat.le_refl _))

/-! ## Negations -/

theorem parsesWithin_not (ha : parse a = .ok A) :
    ParsesWithin (nesting a + 2) A.operators ("not ".toList ++ parenthesized a)
      (unary .not A) := by
  have hoperand := reaches_lastOperand (readsWhole_nesting ha) 62 0 (p := 4) (by decide) (by decide)
  rw [← levelAt_blank_cons, Nat.zero_add] at hoperand
  have hnot : Reaches (62 < nesting a) 0 A.operators
      (levelAt (.upTo maxNesting) 4 ⟨"not ".toList ++ parenthesized a, 0⟩)
      (unary .not A, ⟨[], A.operators⟩) := hoperand.bind (.ok _)
  exact parsesWithin_of_level (p := 4) (by decide) (by decide) rfl (fun h => absurd h (by decide))
    (hnot.mono (Nat.add_lt_add_right · 2) (Nat.le_refl _))

theorem parsesWithin_bang (ha : parse a = .ok A) :
    ParsesWithin (nesting a + 2) A.operators ('!' :: parenthesized a) (unary .not A) := by
  have hoperand := reaches_lastOperand (readsWhole_nesting ha) 62 0 (p := 8) (by decide) (by decide)
  rw [Nat.zero_add] at hoperand
  have hbang : Reaches (62 < nesting a) 0 A.operators
      (levelAt (.upTo maxNesting) 8 ⟨'!' :: parenthesized a, 0⟩)
      (unary .not A, ⟨[], A.operators⟩) := hoperand.bind (.ok _)
  exact parsesWithin_of_level (p := 8) (by decide) (by decide) rfl (fun _ => rfl)
    (hbang.mono (Nat.add_lt_add_right · 2) (Nat.le_refl _))

/-! ## Conditionals -/

/-- The other parts of a conditional end an operand. -/
theorem endsAt_two {w : List Char} (hw : w ∈ ["if".toList, "else".toList, ['?'], [':']])
    (rest : List Char) : EndsAt 2 (w ++ ' ' :: rest) := by
  simp only [List.mem_cons, List.not_mem_nil, or_false] at hw
  rcases hw with rfl | rfl | rfl | rfl <;> refine ⟨rfl, fun _ _ _ => rfl, fun q _ => ?_⟩ <;>
    (unfold tableAt; split <;> rfl)

theorem parsesWithin_condition (ha : parse a = .ok A) (hb : parse b = .ok B)
    (hc : parse c = .ok C) :
    ParsesWithin (max (max (nesting a) (nesting b) + 1) (nesting c + 2))
      (B.operators + A.operators + C.operators)
      (parenthesized b ++ (" if ".toList ++ (parenthesized a ++
        (" else ".toList ++ parenthesized c)))) (conditional A B C) := by
  have hif : Text.trimStart (" if ".toList ++ (parenthesized a ++
      (" else ".toList ++ parenthesized c))) =
        "if".toList ++ ' ' :: (parenthesized a ++ (" else ".toList ++ parenthesized c)) := rfl
  have helse : Text.trimStart (" else ".toList ++ parenthesized c) =
      "else".toList ++ ' ' :: parenthesized c := rfl
  have hconsequent := reaches_operand (readsWhole_nesting hb) 63 0 (Nat.le_refl 2) (by decide) hif
    (endsAt_two (by decide) _)
  have htest := reaches_operand (readsWhole_nesting ha) 63 B.operators (Nat.le_refl 2) (by decide)
    helse (endsAt_two (by decide) _)
  have halternate := reaches_lastBranch (readsWhole_nesting hc) 62 (B.operators + A.operators)
  rw [Nat.zero_add] at hconsequent
  rw [← levelAt_blank_cons] at htest
  generalize hdepth : max (max (nesting a) (nesting b) + 1) (nesting c + 2) = depth
  have hcondition : Reaches (maxNesting < depth) B.operators
      (B.operators + A.operators + C.operators)
      (condition (.upTo maxNesting) B
        ⟨' ' :: (parenthesized a ++ (" else ".toList ++ parenthesized c)), B.operators⟩)
      (conditional A B C, ⟨[], B.operators + A.operators + C.operators⟩) := by
    refine (htest.mono (fun h => ?_) (Nat.le_refl _)).bind
      ((halternate.mono (fun h => ?_) (Nat.le_refl _)).bind (.ok _)) <;>
    · rw [maxNesting]
      omega
  refine parsesWithin_of_reaches ((hconsequent.mono (fun h => ?_) (Nat.le_refl _)).bind hcondition)
  rw [maxNesting]
  omega

theorem parsesWithin_branches (ha : parse a = .ok A) (hb : parse b = .ok B)
    (hc : parse c = .ok C) :
    ParsesWithin (max (nesting a + 1) (max (nesting b) (nesting c) + 2))
      (A.operators + B.operators + C.operators)
      (parenthesized a ++ (" ? ".toList ++ (parenthesized b ++
        (" : ".toList ++ parenthesized c)))) (conditional A B C) := by
  have hquestion : Text.trimStart (" ? ".toList ++ (parenthesized b ++
      (" : ".toList ++ parenthesized c))) =
        ['?'] ++ ' ' :: (parenthesized b ++ (" : ".toList ++ parenthesized c)) := rfl
  have hcolon : Text.trimStart (" : ".toList ++ parenthesized c) =
      [':'] ++ ' ' :: parenthesized c := rfl
  have htest := reaches_operand (readsWhole_nesting ha) 63 0 (Nat.le_refl 2) (by decide) hquestion
    (endsAt_two (by decide) _)
  have hconsequent := reaches_branch (readsWhole_nesting hb) 62 A.operators hcolon
    (endsAt_two (by decide) _) rfl rfl
  have halternate := reaches_lastBranch (readsWhole_nesting hc) 62 (A.operators + B.operators)
  rw [Nat.zero_add] at htest
  generalize hdepth : max (nesting a + 1) (max (nesting b) (nesting c) + 2) = depth
  have hbranches : Reaches (maxNesting < depth) A.operators
      (A.operators + B.operators + C.operators)
      (branches (.upTo maxNesting) A
        ⟨' ' :: (parenthesized b ++ (" : ".toList ++ parenthesized c)), A.operators⟩)
      (conditional A B C, ⟨[], A.operators + B.operators + C.operators⟩) := by
    refine (hconsequent.mono (fun h => ?_) (Nat.le_refl _)).bind
      ((halternate.mono (fun h => ?_) (Nat.le_refl _)).bind (.ok _)) <;>
    · rw [maxNesting]
      omega
  refine parsesWithin_of_reaches ((htest.mono (fun h => ?_) (Nat.le_refl _)).bind hbranches)
  rw [maxNesting]
  omega

/-! ## The spellings side by side -/

/-- The operators that have a word for a spelling, each at its precedence. -/
def spelledOperators : List (Nat × List Char × Join) :=
  [(3, "and".toList, binary .and), (3, "&&".toList, binary .and), (2, "or".toList, binary .or),
    (2, "||".toList, binary .or), (5, "in".toList, membership false),
    (5, "not in".toList, membership true)]

theorem operatorAt_of_mem {p : Nat} {w : List Char} {join : Join}
    (h : (p, w, join) ∈ spelledOperators) : OperatorAt p w join := by
  simp only [spelledOperators, List.mem_cons, List.not_mem_nil, or_false, Prod.mk.injEq] at h
  rcases h with ⟨rfl, rfl, rfl⟩ | ⟨rfl, rfl, rfl⟩ | ⟨rfl, rfl, rfl⟩ | ⟨rfl, rfl, rfl⟩ |
    ⟨rfl, rfl, rfl⟩ | ⟨rfl, rfl, rfl⟩ <;>
  · refine ⟨by decide, fun _ => rfl, fun _ => ⟨rfl, fun _ _ _ => rfl, fun q hq => ?_⟩⟩
    unfold tableAt
    split <;> first | rfl | omega

/-- For all texts that are accepted alone, the spellings in words and in symbols of an operator
    between them are parsed as the same expression, within the limits of the whole. -/
theorem parsesWithin_spellings (ha : parse a = .ok A) (hb : parse b = .ok B)
    (hc : parse c = .ok C) :
    (∀ w ∈ [" and ", " && "], ParsesWithin (max (nesting a) (nesting b) + 1)
      (A.operators + B.operators + 1) (parenthesized a ++ w.toList ++ parenthesized b)
        (binary .and A B)) ∧
    (∀ w ∈ [" or ", " || "], ParsesWithin (max (nesting a) (nesting b) + 1)
      (A.operators + B.operators + 1) (parenthesized a ++ w.toList ++ parenthesized b)
        (binary .or A B)) ∧
    (∀ w ∈ ["not ", "!"], ParsesWithin (nesting a + 2) A.operators
      (w.toList ++ parenthesized a) (unary .not A)) ∧
    ParsesWithin (max (max (nesting a) (nesting b) + 1) (nesting c + 2))
      (B.operators + A.operators + C.operators)
      (parenthesized b ++ " if ".toList ++ parenthesized a ++ " else ".toList ++ parenthesized c)
      (conditional A B C) ∧
    ParsesWithin (max (nesting a + 1) (max (nesting b) (nesting c) + 2))
      (A.operators + B.operators + C.operators)
      (parenthesized a ++ " ? ".toList ++ parenthesized b ++ " : ".toList ++ parenthesized c)
      (conditional A B C) ∧
    ParsesWithin (max (nesting a) (nesting b) + 1) (A.operators + B.operators + 1)
      (parenthesized a ++ " in ".toList ++ parenthesized b) (membership false A B) ∧
    ParsesWithin (max (nesting a) (nesting b) + 1) (A.operators + B.operators + 1)
      (parenthesized a ++ " not in ".toList ++ parenthesized b) (membership true A B) := by
  have hoperator : ∀ {p w join} (s : String), s.toList = ' ' :: (w ++ [' ']) →
      (p, w, join) ∈ spelledOperators →
        ParsesWithin (max (nesting a) (nesting b) + 1) (A.operators + B.operators + 1)
          (parenthesized a ++ s.toList ++ parenthesized b) (join A B) := by
    intro p w join s hs hw
    rw [hs]
    simpa using parsesWithin_operator (operatorAt_of_mem hw) ha hb
  refine ⟨?_, ?_, ?_, ?_, ?_, ?_, ?_⟩
  · intro w hw
    simp only [List.mem_cons, List.not_mem_nil, or_false] at hw
    rcases hw with rfl | rfl
    · exact hoperator (p := 3) (w := "and".toList) _ rfl (by simp [spelledOperators])
    · exact hoperator (p := 3) (w := "&&".toList) _ rfl (by simp [spelledOperators])
  · intro w hw
    simp only [List.mem_cons, List.not_mem_nil, or_false] at hw
    rcases hw with rfl | rfl
    · exact hoperator (p := 2) (w := "or".toList) _ rfl (by simp [spelledOperators])
    · exact hoperator (p := 2) (w := "||".toList) _ rfl (by simp [spelledOperators])
  · intro w hw
    simp only [List.mem_cons, List.not_mem_nil, or_false] at hw
    rcases hw with rfl | rfl
    · exact parsesWithin_not ha
    · exact parsesWithin_bang ha
  · simpa only [List.append_assoc] using parsesWithin_condition ha hb hc
  · simpa only [List.append_assoc] using parsesWithin_branches ha hb hc
  · exact hoperator (p := 5) (w := "in".toList) _ rfl (by simp [spelledOperators])
  · exact hoperator (p := 5) (w := "not in".toList) _ rfl (by simp [spelledOperators])

end Spellings

theorem parse_spellings_quoted :
    parse "(not x) && (')')".toList =
        .ok (binary .and (unary .not (ident "x")) (literal (.text ")"))) ∧
      parse "(')') if (not x) else (1 or y)".toList =
        .ok (conditional (unary .not (ident "x")) (literal (.text ")"))
          (binary .or (literal (.number (.integer 1))) (ident "y"))) := by
  obtain ⟨hand, -, -, hif, -⟩ := parsesWithin_spellings (a := "not x".toList) (b := "')'".toList)
    (c := "1 or y".toList) rfl rfl rfl
  exact ⟨(hand " && " (by decide)).parse_eq (by decide +kernel) (by decide),
    hif.parse_eq (by decide +kernel) (by decide)⟩

end DataBinding.Expr
