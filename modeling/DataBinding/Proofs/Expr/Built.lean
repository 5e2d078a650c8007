import DataBinding.Expr.Parser

/-!
# How accepted expressions are built

Whatever text it is given, the reader only builds expressions of one kind: their literals are
scalars, every bracket, branch and unary operator lies a level deeper than what is around it, and
every other operator is counted. `Operand`, `Whole` and `Items` list the ways in which it does so,
one for each place in the grammar; a fact about all accepted expressions is an induction on them.

Results:
* `primary_builds`, `operatorLevel_builds`, `conditionalLevel_builds`: the levels of precedence.
* `nestsBelow_upTo`: what may nest, by induction on the depth.
* `whole_of_parse`: an accepted expression is built within both limits.
-/

namespace DataBinding.Expr

/-! ## Built expressions -/

mutual

/-- The expression can be an operand that has `depth` levels of nesting in it. Reading it takes the
    number of operators from `before` to `after`. -/
inductive Operand : (depth before : Nat) → Expr → (after : Nat) → Prop
  | literal {d k : Nat} {v : Value} (h : v.isContainer = false) : Operand d k (literal v) k
  | undefined {d k : Nat} : Operand d k undefined k
  | ident {d k : Nat} (name : String) : Operand d k (ident name) k
  | bracket {d k k' : Nat} {e : Expr} (h : Whole d k e k') : Operand (d + 1) k e k'
  | array {d k k' : Nat} {items : List Expr} (h : Items d k items k') :
      Operand (d + 1) k (array items) k'
  | member {d k k' : Nat} {object : Expr} (property : String) (h : Operand d k object k')
      (hk : k' < maxOperators) : Operand d k (member object property) (k' + 1)
  | index {d k m k' : Nat} {object key : Expr} (ho : Operand (d + 1) k object m)
      (hkey : Whole d m key k') (hk : k' < maxOperators) :
      Operand (d + 1) k (index object key) (k' + 1)
  | call {d k m k' : Nat} {callee : Expr} {args : List Expr} (hc : Operand (d + 1) k callee m)
      (ha : Items d m args k') (hk : k' < maxOperators) :
      Operand (d + 1) k (call callee args) (k' + 1)
  | unary {d k k' : Nat} {operand : Expr} (op : UnaryOp) (h : Operand d k operand k') :
      Operand (d + 1) k (unary op operand) k'
  | binary {d k m k' : Nat} {left right : Expr} (op : BinaryOp) (hl : Operand d k left m)
      (hr : Operand d m right k') (hk : k' < maxOperators) :
      Operand d k (binary op left right) (k' + 1)
  | membership {d k m k' : Nat} {needle haystack : Expr} (negated : Bool)
      (hn : Operand d k needle m) (hh : Operand d m haystack k') (hk : k' < maxOperators) :
      Operand d k (membership negated needle haystack) (k' + 1)

/-- The expression can stand alone: it is an operand, or a conditional in either order. -/
inductive Whole : (depth before : Nat) → Expr → (after : Nat) → Prop
  | operand {d k k' : Nat} {e : Expr} (h : Operand d k e k') : Whole d k e k'
  | branches {d k m n k' : Nat} {test consequent alternate : Expr}
      (ht : Operand (d + 1) k test m) (hc : Whole d m consequent n)
      (ha : Whole d n alternate k') : Whole (d + 1) k (conditional test consequent alternate) k'
  | condition {d k m n k' : Nat} {test consequent alternate : Expr}
      (hc : Operand (d + 1) k consequent m) (ht : Operand (d + 1) m test n)
      (ha : Whole d n alternate k') : Whole (d + 1) k (conditional test consequent alternate) k'

/-- The expressions can stand in a list, in this order. -/
inductive Items : (depth before : Nat) → List Expr → (after : Nat) → Prop
  | nil {d k : Nat} : Items d k [] k
  | cons {d k m k' : Nat} {e : Expr} {rest : List Expr} (h : Whole d k e m)
      (hs : Items d m rest k') : Items d k (e :: rest) k'

end

/-! ## Readers that build -/

/-- What the reader gives stands in a relation to the numbers of operators before and after. -/
def Builds {α : Type} (R : (before : Nat) → α → (after : Nat) → Prop) (reader : Reader α) :
    Prop :=
  ∀ cursor a next, reader cursor = .ok (a, next) → R cursor.operators a next.operators

/-- The relation holds with one level of nesting less. -/
def Below {α : Type} (R : (depth before : Nat) → α → (after : Nat) → Prop) (depth before : Nat)
    (a : α) (after : Nat) : Prop :=
  ∃ d, depth = d + 1 ∧ R d before a after

/-- What may nest is built with one level of nesting less. -/
structure NestsBelow (depth : Nat) (inner : Nesting) : Prop where
  conditional : Builds (Below Whole depth) inner.conditional
  negation : Builds (Below Operand depth) inner.negation
  unary : Builds (Below Operand depth) inner.unary
  items : ∀ close, Builds (Below Items depth) (inner.items close)

/-! ## Literals, names and counts -/

theorem isContainer_floatLiteral (d : Decimal) : (floatLiteral d).isContainer = false := by
  rw [floatLiteral]
  split <;> rfl

theorem isContainer_numberLiteral (whole fraction : List Char) :
    (numberLiteral whole fraction).isContainer = false := by
  rw [numberLiteral]
  split
  · rfl
  · exact isContainer_floatLiteral _

theorem isContainer_takeNumber (cs : List Char) : (takeNumber cs).1.isContainer = false := by
  simp only [takeNumber]
  split
  · split <;> exact isContainer_numberLiteral _ _
  · exact isContainer_numberLiteral _ _

theorem operand_of_wordExpr? {word : String} {e : Expr} (h : wordExpr? word = some e)
    (d k : Nat) : Operand d k e k := by
  rw [wordExpr?] at h
  split at h
  · rw [← Option.some.inj h]
    exact .literal rfl
  split at h
  · rw [← Option.some.inj h]
    exact .literal rfl
  split at h
  · rw [← Option.some.inj h]
    exact .literal rfl
  split at h
  · rw [← Option.some.inj h]
    exact .undefined
  split at h
  · cases h
  · rw [← Option.some.inj h]
    exact .ident word

theorem countOperator_ok {cursor next : Cursor} (h : cursor.countOperator = .ok next) :
    cursor.operators < maxOperators ∧ next.operators = cursor.operators + 1 := by
  rw [Cursor.countOperator] at h
  split at h
  · rename_i hk
    rw [← Except.ok.inj h]
    exact ⟨hk, rfl⟩
  · cases h

theorem countOperator_rest {cursor next : Cursor} (h : cursor.countOperator = .ok next) :
    next.rest = cursor.rest := by
  rw [Cursor.countOperator] at h
  split at h
  · rw [← Except.ok.inj h]
  · cases h

theorem counted_ok {α : Type} {x a : α} {cursor next : Cursor}
    (h : (cursor.countOperator >>= fun counted => .ok (x, counted)) = .ok (a, next)) :
    x = a ∧ cursor.operators < maxOperators ∧ next.operators = cursor.operators + 1 := by
  obtain ⟨counted, hcount, h⟩ := bind_eq_ok.1 h
  obtain ⟨rfl, rfl⟩ := Prod.mk.inj (Except.ok.inj h)
  exact ⟨rfl, countOperator_ok hcount⟩

/-- After a branch and `if` come the condition, the word `else` and the other branch. -/
theorem condition_ok {inner : Nesting} {consequent e : Expr} {cursor next : Cursor}
    (h : condition inner consequent cursor = .ok (e, next)) :
    ∃ test cursor₁ back alternate, orLevel inner cursor = .ok (test, cursor₁) ∧
      keyword? "else".toList cursor₁.skipBlanks.rest = some back ∧
      inner.conditional { cursor₁.skipBlanks with rest := back } = .ok (alternate, next) ∧
      e = .conditional test consequent alternate := by
  obtain ⟨⟨test, cursor₁⟩, htest, h⟩ := bind_eq_ok.1 h
  simp only at h
  split at h
  · rename_i back hkeyword
    obtain ⟨⟨alternate, cursor₂⟩, halternate, h⟩ := bind_eq_ok.1 h
    obtain ⟨rfl, rfl⟩ := Prod.mk.inj (Except.ok.inj h)
    exact ⟨test, cursor₁, back, alternate, htest, hkeyword, halternate, rfl⟩
  · cases h

/-! ## Operands -/

section Levels

variable {d : Nat} {inner : Nesting} (h : NestsBelow d inner)
include h

theorem primary_builds : Builds (Operand d) (primary inner) := by
  intro cursor e next he
  simp only [primary] at he
  split at he
  · cases he
  split at he
  · -- a text in quotes
    split at he
    · obtain ⟨rfl, rfl⟩ := Prod.mk.inj (Except.ok.inj he)
      exact .literal rfl
    · cases he
  split at he
  · -- a number
    obtain ⟨rfl, rfl⟩ := Prod.mk.inj (Except.ok.inj he)
    exact .literal (isContainer_takeNumber _)
  split at he
  · -- parentheses, which leave no node
    obtain ⟨⟨e', cursor'⟩, hinner, he⟩ := bind_eq_ok.1 he
    obtain ⟨rest, -, he⟩ := bind_eq_ok.1 he
    obtain ⟨rfl, rfl⟩ := Prod.mk.inj (Except.ok.inj he)
    obtain ⟨d, rfl, hbuilt⟩ := h.conditional _ _ _ hinner
    exact .bracket hbuilt
  split at he
  · -- an array
    obtain ⟨⟨items, cursor'⟩, hinner, he⟩ := bind_eq_ok.1 he
    obtain ⟨rfl, rfl⟩ := Prod.mk.inj (Except.ok.inj he)
    obtain ⟨d, rfl, hbuilt⟩ := h.items _ _ _ _ hinner
    exact .array hbuilt
  split at he
  · -- a word
    split at he
    · rename_i hword
      obtain ⟨rfl, rfl⟩ := Prod.mk.inj (Except.ok.inj he)
      exact operand_of_wordExpr? hword d _
    · cases he
  · cases he

/-- A suffix is counted; where there is none only blanks are passed. -/
theorem suffix?_builds {k : Nat} {object : Expr} {e? : Option Expr} {cursor next : Cursor}
    (he : suffix? inner object cursor = .ok (e?, next))
    (ho : Operand d k object cursor.operators) : Operand d k (e?.getD object) next.operators := by
  simp only [suffix?] at he
  split at he
  · -- a member
    split at he
    · cases he
    · obtain ⟨rfl, hk, hnext⟩ := counted_ok he
      rw [hnext]
      exact .member _ ho hk
  · -- an index
    obtain ⟨⟨key, cursor'⟩, hkey, he⟩ := bind_eq_ok.1 he
    obtain ⟨rest, -, he⟩ := bind_eq_ok.1 he
    obtain ⟨rfl, hk, hnext⟩ := counted_ok he
    obtain ⟨d, rfl, hbuilt⟩ := h.conditional _ _ _ hkey
    rw [hnext]
    exact .index ho hbuilt hk
  · -- arguments
    obtain ⟨⟨args, cursor'⟩, hargs, he⟩ := bind_eq_ok.1 he
    obtain ⟨rfl, hk, hnext⟩ := counted_ok he
    obtain ⟨d, rfl, hbuilt⟩ := h.items _ _ _ _ hargs
    rw [hnext]
    exact .call ho hbuilt hk
  · obtain ⟨rfl, rfl⟩ := Prod.mk.inj (Except.ok.inj he)
    exact ho

theorem suffixes_builds {k fuel : Nat} {object e : Expr} {cursor next : Cursor}
    (he : suffixes inner fuel object cursor = .ok (e, next))
    (ho : Operand d k object cursor.operators) : Operand d k e next.operators := by
  induction fuel generalizing object cursor with
  | zero => cases he
  | succ fuel ih =>
    obtain ⟨⟨e?, cursor'⟩, hsuffix, he⟩ := bind_eq_ok.1 he
    have hbuilt := suffix?_builds h hsuffix ho
    cases e? with
    | none =>
      obtain ⟨rfl, rfl⟩ := Prod.mk.inj (Except.ok.inj he)
      exact hbuilt
    | some e' => exact ih he hbuilt

theorem suffixed_builds : Builds (Operand d) (suffixed inner) := by
  intro cursor e next he
  obtain ⟨⟨e', cursor'⟩, hprimary, he⟩ := bind_eq_ok.1 he
  exact suffixes_builds h he (primary_builds h _ _ _ hprimary)

theorem unaryLevel_builds : Builds (Operand d) (unaryLevel inner) := by
  intro cursor e next he
  simp only [unaryLevel] at he
  split at he
  · obtain ⟨⟨operand, cursor'⟩, hinner, he⟩ := bind_eq_ok.1 he
    obtain ⟨rfl, rfl⟩ := Prod.mk.inj (Except.ok.inj he)
    obtain ⟨d, rfl, hbuilt⟩ := h.unary _ _ _ hinner
    exact .unary _ hbuilt
  · have hbuilt := suffixed_builds h _ e next he
    exact hbuilt

end Levels

/-! ## Operators -/

/-- An operator that joins two operands gives an operand, and counts once. -/
def Joins (join : Join) : Prop :=
  ∀ {d k m k' left right}, Operand d k left m → Operand d m right k' → k' < maxOperators →
    Operand d k (join left right) (k' + 1)

/-- The table only holds operators that join operands. -/
def JoinsAll (operator? : OperatorTable) : Prop :=
  ∀ cs join rest, operator? cs = some (join, rest) → Joins join

theorem joinsAll_symbols (ops : List (List Char × BinaryOp)) : JoinsAll (symbols ops) := by
  intro cs join rest hop
  obtain ⟨⟨symbol, op⟩, -, hop⟩ := List.exists_of_findSome?_eq_some hop
  obtain ⟨rest', -, hop⟩ := Option.map_eq_some_iff.1 hop
  rw [← (Prod.mk.inj hop).1]
  exact .binary op

/-- A table with one operator, whatever stands for it. -/
theorem joinsAll_map (spelling? : List Char → Option (List Char)) {join : Join}
    (hj : Joins join) : JoinsAll fun cs => (spelling? cs).map fun rest => (join, rest) := by
  intro cs join' rest hop
  obtain ⟨rest', -, hop⟩ := Option.map_eq_some_iff.1 hop
  rw [← (Prod.mk.inj hop).1]
  exact hj

theorem JoinsAll.or {first second : OperatorTable} (h₁ : JoinsAll first) (h₂ : JoinsAll second) :
    JoinsAll fun cs => (first cs).or (second cs) := by
  intro cs join rest hop
  rcases Option.or_eq_some_iff.1 hop with hop | ⟨-, hop⟩
  · exact h₁ cs join rest hop
  · exact h₂ cs join rest hop

theorem chain_builds {d k : Nat} {operator? : OperatorTable} {operand : Reader Expr}
    (hj : JoinsAll operator?) (ho : Builds (Operand d) operand) {fuel : Nat} {left e : Expr}
    {cursor next : Cursor} (he : chain operator? operand fuel left cursor = .ok (e, next))
    (hl : Operand d k left cursor.operators) : Operand d k e next.operators := by
  induction fuel generalizing left cursor with
  | zero => cases he
  | succ fuel ih =>
    simp only [chain] at he
    split at he
    · obtain ⟨rfl, rfl⟩ := Prod.mk.inj (Except.ok.inj he)
      exact hl
    · rename_i join rest hop
      obtain ⟨⟨right, cursor₁⟩, hright, he⟩ := bind_eq_ok.1 he
      obtain ⟨cursor₂, hcount, he⟩ := bind_eq_ok.1 he
      obtain ⟨hk, hnext⟩ := countOperator_ok hcount
      have hr := ho _ _ _ hright
      have hbuilt := hj _ _ _ hop hl hr hk
      rw [← hnext] at hbuilt
      exact ih he hbuilt

theorem operatorLevel_builds {d : Nat} {operator? : OperatorTable} {operand : Reader Expr}
    (hj : JoinsAll operator?) (ho : Builds (Operand d) operand) :
    Builds (Operand d) (operatorLevel operator? operand) := by
  intro cursor e next he
  obtain ⟨⟨left, cursor'⟩, hleft, he⟩ := bind_eq_ok.1 he
  exact chain_builds hj ho he (ho _ _ _ hleft)

theorem joinsAll_relationOperator? : JoinsAll relationOperator? :=
  ((joinsAll_symbols _).or (joinsAll_map _ (.membership false))).or
    (joinsAll_map _ (.membership true))

theorem joinsAll_andOperator? : JoinsAll andOperator? :=
  (joinsAll_symbols _).or (joinsAll_map _ (.binary .and))

theorem joinsAll_orOperator? : JoinsAll orOperator? :=
  (joinsAll_symbols _).or (joinsAll_map _ (.binary .or))

section Levels

variable {d : Nat} {inner : Nesting} (h : NestsBelow d inner)
include h

theorem equalityLevel_builds : Builds (Operand d) (equalityLevel inner) := by
  have hproduct : Builds (Operand d) (productLevel inner) :=
    operatorLevel_builds (joinsAll_symbols _) (unaryLevel_builds h)
  have hsum : Builds (Operand d) (sumLevel inner) :=
    operatorLevel_builds (joinsAll_symbols _) hproduct
  have hrelation : Builds (Operand d) (relationLevel inner) :=
    operatorLevel_builds joinsAll_relationOperator? hsum
  exact operatorLevel_builds (joinsAll_symbols _) hrelation

theorem notLevel_builds : Builds (Operand d) (notLevel inner) := by
  intro cursor e next he
  simp only [notLevel] at he
  split at he
  · obtain ⟨⟨operand, cursor'⟩, hinner, he⟩ := bind_eq_ok.1 he
    obtain ⟨rfl, rfl⟩ := Prod.mk.inj (Except.ok.inj he)
    obtain ⟨d, rfl, hbuilt⟩ := h.negation _ _ _ hinner
    exact .unary .not hbuilt
  · have hbuilt := equalityLevel_builds h _ e next he
    exact hbuilt

theorem orLevel_builds : Builds (Operand d) (orLevel inner) := by
  have hand : Builds (Operand d) (andLevel inner) :=
    operatorLevel_builds joinsAll_andOperator? (notLevel_builds h)
  exact operatorLevel_builds joinsAll_orOperator? hand

/-! ## Conditionals and lists -/

theorem branches_builds {k : Nat} {test e : Expr} {cursor next : Cursor}
    (he : branches inner test cursor = .ok (e, next))
    (ht : Operand d k test cursor.operators) : Whole d k e next.operators := by
  obtain ⟨⟨consequent, cursor₁⟩, hc, he⟩ := bind_eq_ok.1 he
  obtain ⟨rest, -, he⟩ := bind_eq_ok.1 he
  obtain ⟨⟨alternate, cursor₂⟩, ha, he⟩ := bind_eq_ok.1 he
  obtain ⟨rfl, rfl⟩ := Prod.mk.inj (Except.ok.inj he)
  obtain ⟨d, rfl, hconsequent⟩ := h.conditional _ _ _ hc
  obtain ⟨_, hd, halternate⟩ := h.conditional _ _ _ ha
  rw [← Nat.succ.inj hd] at halternate
  exact .branches ht hconsequent halternate

theorem condition_builds {k : Nat} {consequent e : Expr} {cursor next : Cursor}
    (he : condition inner consequent cursor = .ok (e, next))
    (hc : Operand d k consequent cursor.operators) : Whole d k e next.operators := by
  obtain ⟨test, cursor₁, back, alternate, ht, -, ha, rfl⟩ := condition_ok he
  have htest := orLevel_builds h _ _ _ ht
  obtain ⟨d, rfl, halternate⟩ := h.conditional _ _ _ ha
  exact .condition hc htest halternate

theorem conditionalLevel_builds : Builds (Whole d) (conditionalLevel inner) := by
  intro cursor e next he
  obtain ⟨⟨e', cursor'⟩, hor, he⟩ := bind_eq_ok.1 he
  have hoperand := orLevel_builds h _ _ _ hor
  simp only at he
  split at he
  · exact branches_builds h he hoperand
  split at he
  · exact condition_builds h he hoperand
  · obtain ⟨rfl, rfl⟩ := Prod.mk.inj (Except.ok.inj he)
    exact .operand hoperand

end Levels

theorem moreItems_builds {d : Nat} {item : Reader Expr} (hi : Builds (Whole d) item)
    (close : Char) (fuel : Nat) : Builds (Items d) (moreItems item close fuel) := by
  induction fuel with
  | zero =>
    intro cursor es next he
    cases he
  | succ fuel ih =>
    intro cursor es next he
    obtain ⟨⟨e, cursor₁⟩, hitem, he⟩ := bind_eq_ok.1 he
    have hwhole := hi _ _ _ hitem
    simp only at he
    split at he
    · obtain ⟨⟨rest, cursor₂⟩, hrest, he⟩ := bind_eq_ok.1 he
      obtain ⟨rfl, rfl⟩ := Prod.mk.inj (Except.ok.inj he)
      have hitems := ih _ _ _ hrest
      exact .cons hwhole hitems
    · obtain ⟨rest, -, he⟩ := bind_eq_ok.1 he
      obtain ⟨rfl, rfl⟩ := Prod.mk.inj (Except.ok.inj he)
      exact .cons hwhole .nil

theorem itemList_builds {d : Nat} {item : Reader Expr} (hi : Builds (Whole d) item)
    (close : Char) : Builds (Items d) (itemList item close) := by
  intro cursor es next he
  simp only [itemList] at he
  split at he
  · obtain ⟨rfl, rfl⟩ := Prod.mk.inj (Except.ok.inj he)
    exact .nil
  · have hitems := moreItems_builds hi close _ _ es next he
    exact hitems

/-! ## Nesting -/

theorem Builds.below {α : Type} {R : Nat → Nat → α → Nat → Prop} {d : Nat} {reader : Reader α}
    (h : Builds (R d) reader) : Builds (Below R (d + 1)) reader := by
  intro cursor a next ha
  exact ⟨d, rfl, h cursor a next ha⟩

theorem nestsBelow_deeper {d : Nat} {inner : Nesting} (h : NestsBelow d inner) :
    NestsBelow (d + 1) inner.deeper where
  conditional := (conditionalLevel_builds h).below
  negation := (notLevel_builds h).below
  unary := (unaryLevel_builds h).below
  items close := (itemList_builds (conditionalLevel_builds h) close).below

theorem nestsBelow_upTo (depth : Nat) : NestsBelow depth (.upTo depth) := by
  induction depth with
  | zero =>
    refine ⟨?_, ?_, ?_, ?_⟩
    · intro _ _ _ he
      cases he
    · intro _ _ _ he
      cases he
    · intro _ _ _ he
      cases he
    · intro _ _ _ _ he
      cases he
  | succ depth ih => exact nestsBelow_deeper ih

/-- The reader builds what it accepts, starting from no operator and with the nesting allowed. -/
theorem whole_of_parse {input : List Char} {e : Expr} (h : parse input = .ok e) :
    ∃ operators, Whole maxNesting 0 e operators := by
  obtain ⟨cursor, hlevel, -⟩ := parse_ok h
  exact ⟨cursor.operators, conditionalLevel_builds (nestsBelow_upTo maxNesting) _ _ _ hlevel⟩

end DataBinding.Expr
