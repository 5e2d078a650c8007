import DataBinding.Proofs.Expr.Built
import DataBinding.Proofs.Expr.Tracking

/-!
# Scans end where readers do

The levels of precedence are read alike by offsets and by what is left of the text. The loops of a
scan go on for as long as they find something, and those of a reader have fuel; but every turn of
the loops for operators and for suffixes counts an operator, and every turn of the loop for items
takes a comma. Nesting counts its depth. So a scan always ends, with what the reader gives.

Results:
* `finds_symbol`, `finds_notIn`, `finds_operator`: the operators of each level.
* `tracks_joined`, `tracks_suffixed`, `tracks_list`: the three loops.
* `tracks_conditional`: what a level deeper may nest, all levels of precedence may hold.
* `follows_upTo`: what may nest, by induction on the depth that is left.
* `Scan.parse_eq`: a scan of any text ends with what the reader gives.
-/

namespace DataBinding.Expr

open Text (isBlank isDigit)

section Steps

variable {α β : Type} {source : Source} {depth : Nat} {cursor : Cursor}

/-! ## Operators -/

/-- What a table finds at the front of a text, and the place after it. -/
def found (cursor : Cursor) : Option (α × List Char) → Option α × Cursor
  | none => (none, cursor)
  | some (a, rest) => (some a, { cursor with rest := rest })

/-- From every place the scan finds what the table does. -/
def Finds (source : Source) (scan : Scan (Option α))
    (table : List Char → Option (α × List Char)) : Prop :=
  ∀ depth cursor, Agrees source depth cursor scan (.ok (found cursor (table cursor.rest)))

theorem finds_symbol (ops : List (List Char × BinaryOp)) :
    Finds source (source.symbol ops) (symbols ops) := by
  intro depth cursor
  induction ops with
  | nil => exact agrees_pure none
  | cons entry others ih =>
    obtain ⟨symbol, op⟩ := entry
    rw [Source.symbol, symbols, List.findSome?_cons]
    refine .consume (fun rest hrest => ?_) (fun hnone => ?_)
    · simp only [hrest, Option.map_some]
      exact agrees_pure _
    · simp only [hnone, Option.map_none]
      exact ih

theorem finds_word (w : String) (join : Join) :
    Finds source (source.word w join) (word w join) := by
  intro depth cursor
  rw [Source.word, word]
  have h := agrees_keyword source depth cursor w.toList
  cases hword : keyword? w.toList cursor.rest with
  | some rest =>
    rw [hword] at h
    exact h.step (agrees_pure _)
  | none =>
    rw [hword] at h
    exact h.step (agrees_pure _)

theorem Finds.orElse {first second : Scan (Option α)}
    {table table' : List Char → Option (α × List Char)} (h : Finds source first table)
    (h' : Finds source second table') :
    Finds source (Scan.orElse first second) fun cs => (table cs).or (table' cs) := by
  intro depth cursor
  have hfirst := h depth cursor
  show Agrees source depth cursor (Scan.orElse first second)
    (.ok (found cursor ((table cursor.rest).or (table' cursor.rest))))
  rw [Scan.orElse]
  cases htable : table cursor.rest with
  | some r =>
    rw [htable] at hfirst
    rw [Option.some_or]
    exact hfirst.step (agrees_pure _)
  | none =>
    rw [htable] at hfirst
    rw [Option.none_or]
    exact hfirst.step (h' depth cursor)

/-- Where nothing is found, the cursor goes back to where it was. -/
theorem Agrees.rewind {scan : Scan Bool} {next : Cursor}
    (h : Agrees source depth cursor scan (.ok (false, next)))
    (hk : next.operators = cursor.operators) :
    Agrees source depth cursor
      (scan >>= fun passed => if passed = true then pure true
        else
          source.moveTo (Text.bytes source.text - Text.bytes cursor.rest) >>= fun _ => pure false)
      (.ok (false, cursor)) := by
  intro hcursor
  refine ⟨?_, .refl cursor⟩
  obtain ⟨before, hbefore⟩ := hcursor
  have hback : source.moveTo (Text.bytes source.text - Text.bytes cursor.rest)
      (next.scanner source depth) = some (.ok ((), cursor.scanner source depth)) := by
    rw [offset_eq hbefore.symm, moveTo_eq hbefore.symm, Cursor.scanner, Cursor.scanner, hk]
  rw [Scan.bind_of_ok (h ⟨before, hbefore⟩).1, if_neg (by decide), Scan.bind_of_ok hback]
  rfl

theorem notIn?_eq (cs : List Char) :
    notIn? cs = (keyword? "not".toList cs).bind fun rest =>
      keyword? "in".toList (Text.trimStart rest) := rfl

theorem agrees_notThenIn_of_some {rest : List Char} (h : notIn? cursor.rest = some rest) :
    Agrees source depth cursor source.notThenIn (.ok (true, { cursor with rest := rest })) := by
  obtain ⟨back, hnot, hin⟩ := Option.bind_eq_some_iff.1 h
  have hkeyword :=
    agrees_keyword source depth ⟨Text.trimStart back, cursor.operators⟩ "in".toList
  rw [hin] at hkeyword
  refine .keyword (fun rest' hrest => ?_) (fun hnone => ?_)
  · rw [hnot] at hrest
    obtain rfl := Option.some.inj hrest
    exact .step agrees_skipBlanks hkeyword
  · rw [hnot] at hnone
    cases hnone

/-- The word `not` may have been passed even so. -/
theorem agrees_notThenIn_of_none (source : Source) (depth : Nat) (h : notIn? cursor.rest = none) :
    ∃ next, next.operators = cursor.operators ∧
      Agrees source depth cursor source.notThenIn (.ok (false, next)) := by
  rw [notIn?_eq] at h
  cases hnot : keyword? "not".toList cursor.rest with
  | none =>
    refine ⟨cursor, rfl, .keyword (fun rest hrest => ?_) fun _ => agrees_pure _⟩
    rw [hnot] at hrest
    cases hrest
  | some back =>
    rw [hnot, Option.bind_some] at h
    have hkeyword :=
      agrees_keyword source depth ⟨Text.trimStart back, cursor.operators⟩ "in".toList
    rw [h] at hkeyword
    refine ⟨⟨Text.trimStart back, cursor.operators⟩, rfl, .keyword (fun rest hrest => ?_)
      (fun hnone => ?_)⟩
    · rw [hnot] at hrest
      obtain rfl := Option.some.inj hrest
      exact .step agrees_skipBlanks hkeyword
    · rw [hnot] at hnone
      cases hnone

theorem finds_notIn (join : Join) :
    Finds source (do return if ← source.notIn then some join else none)
      fun cs => (notIn? cs).map fun rest => (join, rest) := by
  intro depth cursor
  show Agrees source depth cursor _ (.ok (found cursor ((notIn? cursor.rest).map _)))
  cases h : notIn? cursor.rest with
  | some rest =>
    have hnotIn : Agrees source depth cursor source.notIn
        (.ok (true, { cursor with rest := rest })) :=
      .step agrees_offset ((agrees_notThenIn_of_some h).step (agrees_pure _))
    exact hnotIn.step (agrees_pure _)
  | none =>
    obtain ⟨next, hk, hthen⟩ := agrees_notThenIn_of_none source depth h
    have hnotIn : Agrees source depth cursor source.notIn (.ok (false, cursor)) :=
      .step agrees_offset (hthen.rewind hk)
    exact hnotIn.step (agrees_pure _)

/-- The table of the operators of a level. -/
def Scan.Level.table : Scan.Level → OperatorTable
  | .or => orOperator?
  | .and => andOperator?
  | .equality => equalityOperator?
  | .relation => relationOperator?
  | .sum => sumOperator?
  | .product => productOperator?

theorem finds_operator (source : Source) (level : Scan.Level) :
    Finds source (source.operator level) level.table := by
  cases level with
  | or => exact (finds_symbol _).orElse (finds_word _ _)
  | and => exact (finds_symbol _).orElse (finds_word _ _)
  | equality => exact finds_symbol _
  | relation => exact ((finds_symbol _).orElse (finds_word _ _)).orElse (finds_notIn _)
  | sum => exact finds_symbol _
  | product => exact finds_symbol _

theorem finds_unaryOperator (source : Source) :
    Finds source source.unaryOperator unaryOperator? := by
  intro depth cursor
  obtain ⟨rest, k⟩ := cursor
  refine .consume (fun tail htail => ?_) (fun hnot => ?_)
  · obtain rfl := Text.eq_append_of_dropPrefix? htail
    exact agrees_pure _
  refine .consume (fun tail htail => ?_) (fun hneg => ?_)
  · obtain rfl := Text.eq_append_of_dropPrefix? htail
    exact agrees_pure _
  refine .consume (fun tail htail => ?_) (fun hplus => ?_)
  · obtain rfl := Text.eq_append_of_dropPrefix? htail
    exact agrees_pure _
  · have hnone : unaryOperator? rest = none := by
      unfold unaryOperator?
      split
      · cases hnot
      · cases hneg
      · cases hplus
      · rfl
    show Agrees source depth ⟨rest, k⟩ _ (.ok (found _ (unaryOperator? rest)))
    rw [hnone]
    exact agrees_pure _

/-! ## Counting -/

theorem Agrees.countOperator {f : Unit → Scan β} {g : Cursor → Except Fault (β × Cursor)}
    (hf : ∀ counted, cursor.countOperator = .ok counted →
      Agrees source depth counted (f ()) (g counted)) :
    Agrees source depth cursor (source.countOperator >>= f) (cursor.countOperator >>= g) := by
  have hcount : Agrees source depth cursor source.countOperator
      (cursor.countOperator.map fun counted => ((), counted)) := by
    have hrun : source.countOperator (cursor.scanner source depth) =
        (if maxOperators < cursor.operators + 1 then source.fault .tooManyOperators
          else pure ())
          (Cursor.scanner source depth { cursor with operators := cursor.operators + 1 }) := rfl
    rw [Cursor.countOperator]
    split
    · rename_i hk
      rw [if_neg (by omega)] at hrun
      exact fun _ => ⟨hrun, List.suffix_refl _, Nat.le_succ _⟩
    · rename_i hk
      rw [if_pos (by omega)] at hrun
      exact fun _ => ⟨hrun, List.suffix_refl _⟩
  cases h : cursor.countOperator with
  | ok counted =>
    rw [h] at hcount
    exact hcount.step (hf counted h)
  | error fault =>
    rw [h] at hcount
    exact hcount.stop f

/-! ## Loops -/

/-- Every turn counts an operator, so the fuel of the reader lasts. -/
theorem agrees_turns {level : Scan.Level} {reader : Reader Expr}
    (h : Tracks source depth (source.operand level) reader) {fuel : Nat} (left : Expr)
    (cursor : Cursor) (hpos : 0 < fuel) (hfuel : maxOperators < fuel + cursor.operators) :
    Agrees source depth cursor (source.turns level left)
      (chain level.table reader fuel left cursor) := by
  induction fuel generalizing left cursor with
  | zero => exact absurd hpos (Nat.lt_irrefl 0)
  | succ fuel ih =>
    have hop := finds_operator source level depth cursor.skipBlanks
    rw [Source.turns.eq_1]
    simp only [chain]
    refine .step agrees_skipBlanks ?_
    cases htable : level.table cursor.skipBlanks.rest with
    | none =>
      rw [htable] at hop
      exact hop.step (agrees_pure _)
    | some r =>
      obtain ⟨join, rest⟩ := r
      rw [htable] at hop
      refine hop.step ?_
      refine (h _).bind fun right next _ honward => .countOperator fun counted hcounted => ?_
      obtain ⟨hlt, hnext⟩ := countOperator_ok hcounted
      have hle : cursor.operators ≤ next.operators := honward.operators
      exact ih _ _ (by omega) (by omega)

theorem tracks_joined {level : Scan.Level} {reader : Reader Expr}
    (h : Tracks source depth (source.operand level) reader) :
    Tracks source depth (source.joined level) (operatorLevel level.table reader) := by
  intro cursor
  rw [Source.joined.eq_1]
  exact (h cursor).bind fun left next _ _ =>
    agrees_turns h left next (Nat.succ_pos _) (by omega)

/-- Every turn takes a comma, so the fuel of the reader lasts. -/
theorem agrees_items {item : Reader Expr} (h : Tracks source depth source.conditional item)
    (close : Char) {fuel : Nat} (cursor : Cursor) (hfuel : cursor.rest.length < fuel) :
    Agrees source depth cursor (source.items close) (moreItems item close fuel cursor) := by
  induction fuel generalizing cursor with
  | zero => exact absurd hfuel (Nat.not_lt_zero _)
  | succ fuel ih =>
    rw [Source.items.eq_1]
    refine (h cursor).bind fun e next _ honward => .step agrees_skipBlanks ?_
    refine .consume (fun rest hrest => ?_) (fun hnone => ?_)
    · have hshort : rest.length < fuel := by
        have hnext := congrArg List.length (Text.eq_append_of_dropPrefix? hrest)
        have hblanks := (Text.trimStart_suffix next.rest).length_le
        have hitem := honward.rest.length_le
        simp only [Cursor.skipBlanks, List.length_append, List.length_singleton] at hnext
        omega
      simp only [hrest]
      exact (ih ⟨rest, next.operators⟩ hshort).bind fun es last _ _ => agrees_pure _
    · simp only [hnone]
      exact .require fun rest _ => agrees_pure _

theorem tracks_list {item : Reader Expr} (h : Tracks source depth source.conditional item)
    (close : Char) : Tracks source depth (source.list close) (itemList item close) := by
  intro cursor
  rw [Source.list.eq_1]
  refine .step agrees_skipBlanks (.consume (fun rest hrest => ?_) (fun hnone => ?_))
  · simp only [itemList, hrest]
    exact agrees_pure _
  · simp only [itemList, hnone]
    exact agrees_items h close _ (Nat.lt_succ_self _)

/-! ## What may nest -/

/-- A level deeper, the scans do what `inner` allows to nest. -/
structure Follows (source : Source) (depth : Nat) (inner : Nesting) : Prop where
  conditional : Tracks source depth (source.nested source.conditional) inner.conditional
  negation : Tracks source depth (source.nested source.negation) inner.negation
  unary : Tracks source depth (source.nested source.unary) inner.unary
  items : ∀ close, Tracks source depth (source.nested (source.list close)) (inner.items close)

variable {inner : Nesting} (h : Follows source depth inner)
include h

theorem tracks_primary : Tracks source depth source.primary (primary inner) := by
  intro cursor
  rw [Source.primary.eq_1]
  refine .step agrees_skipBlanks (.step agrees_peek ?_)
  simp only [primary]
  generalize cursor.skipBlanks = cursor
  obtain ⟨rest, k⟩ := cursor
  cases rest with
  | nil => exact agrees_fault _
  | cons c tail =>
    simp only [List.head?_cons]
    by_cases hquote : c = '\'' ∨ c = '"'
    · rw [if_pos hquote, if_pos hquote]
      have hwidth : c.utf8Size = 1 := by rcases hquote with rfl | rfl <;> rfl
      have hquoted := agrees_quoted source depth hwidth tail k
      cases htext : takeQuoted c tail with
      | none =>
        rw [htext] at hquoted
        exact hquoted.stop _
      | some r =>
        rw [htext] at hquoted
        exact hquoted.step (agrees_pure _)
    rw [if_neg hquote, if_neg hquote]
    by_cases hdigit : isDigit c = true
    · rw [if_pos hdigit, if_pos hdigit]
      exact .step agrees_number (agrees_pure _)
    rw [if_neg hdigit, if_neg hdigit]
    refine .consume (fun rest hrest => ?_) (fun hparen => ?_)
    · obtain ⟨rfl, rfl⟩ := List.cons.inj (Text.eq_append_of_dropPrefix? hrest)
      rw [if_pos rfl]
      exact (h.conditional _).bind fun e next _ _ => .step agrees_skipBlanks
        (.require fun rest _ => agrees_pure _)
    have hne : c ≠ '(' := by
      rintro rfl
      cases hparen
    rw [if_neg hne]
    refine .consume (fun rest hrest => ?_) (fun hbracket => ?_)
    · obtain ⟨rfl, rfl⟩ := List.cons.inj (Text.eq_append_of_dropPrefix? hrest)
      rw [if_pos rfl]
      exact (h.items ']' _).bind fun es next _ _ => agrees_pure _
    have hne : c ≠ '[' := by
      rintro rfl
      cases hbracket
    rw [if_neg hne]
    by_cases hname : isNameStart c = true
    · rw [if_pos hname, if_pos hname]
      have hne : (takeName (c :: tail)).1 ≠ [] := by
        simp [takeName, isNameChar_of_isNameStart hname]
      refine .step (agrees_name_of_ne_nil hne) ?_
      simp only
      cases wordExpr? (String.ofList (takeName (c :: tail)).1) with
      | some e => exact agrees_pure e
      | none => exact agrees_fault _
    · rw [if_neg hname, if_neg hname]
      exact agrees_fault _

omit h in
/-- One turn of the loop for members, indices and argument lists. -/
theorem suffixes_succ (fuel : Nat) (object : Expr) (rest : List Char) (k : Nat) :
    suffixes inner (fuel + 1) object ⟨rest, k⟩ =
      match Text.trimStart rest with
      | '.' :: tail =>
        if (takeName (Text.trimStart tail)).1.isEmpty then
          fail .nameExpected (takeName (Text.trimStart tail)).2
        else
          Cursor.countOperator ⟨(takeName (Text.trimStart tail)).2, k⟩ >>=
            suffixes inner fuel (member object (String.ofList (takeName (Text.trimStart tail)).1))
      | '[' :: tail =>
        inner.conditional ⟨tail, k⟩ >>= fun read =>
          expect ']' read.2.skipBlanks.rest >>= fun rest =>
            Cursor.countOperator ⟨rest, read.2.operators⟩ >>=
              suffixes inner fuel (index object read.1)
      | '(' :: tail =>
        inner.items ')' ⟨tail, k⟩ >>= fun read =>
          read.2.countOperator >>= suffixes inner fuel (call object read.1)
      | cs => .ok (object, ⟨cs, k⟩) := by
  rw [suffixes]
  simp only [suffix?, Cursor.skipBlanks]
  generalize Text.trimStart rest = cs
  split
  · rename_i tail
    by_cases hnil : (takeName (Text.trimStart tail)).1.isEmpty = true
    · simp only [if_pos hnil]
      rfl
    · simp only [if_neg hnil, bind_assoc, ok_bind]
  · simp only [bind_assoc, ok_bind]
  · simp only [bind_assoc, ok_bind]
  · simp only [ok_bind]

/-- Every turn counts an operator, so the fuel of the reader lasts. -/
theorem agrees_suffixes {fuel : Nat} (object : Expr) (cursor : Cursor) (hpos : 0 < fuel)
    (hfuel : maxOperators < fuel + cursor.operators) :
    Agrees source depth cursor (source.suffixes object)
      (suffixes inner fuel object cursor) := by
  induction fuel generalizing object cursor with
  | zero => exact absurd hpos (Nat.lt_irrefl 0)
  | succ fuel ih =>
    obtain ⟨rest, k⟩ := cursor
    have hturn : ∀ (e : Expr) (cursor : Cursor), k ≤ cursor.operators →
        Agrees source depth cursor (source.countOperator >>= fun _ => source.suffixes e)
          (cursor.countOperator >>= suffixes inner fuel e) := by
      intro e cursor hle
      refine .countOperator fun counted hcounted => ?_
      obtain ⟨hlt, hnext⟩ := countOperator_ok hcounted
      have hfuel : maxOperators < fuel + 1 + k := hfuel
      exact ih e counted (by omega) (by omega)
    rw [Source.suffixes.eq_1, suffixes_succ]
    refine .step agrees_skipBlanks ?_
    rw [Cursor.skipBlanks]
    generalize Text.trimStart rest = rest
    refine .consume (fun tail htail => ?_) (fun hpoint => ?_)
    · obtain rfl := Text.eq_append_of_dropPrefix? htail
      refine .step agrees_skipBlanks ?_
      simp only [List.singleton_append]
      by_cases hnil : (takeName (Text.trimStart tail)).1 = []
      · rw [if_pos (by rw [hnil]; rfl)]
        exact (agrees_name_of_nil hnil).stop _
      · rw [if_neg (by simpa using hnil)]
        exact (agrees_name_of_ne_nil hnil).step (hturn _ _ (Nat.le_refl k))
    refine .consume (fun tail htail => ?_) (fun hbracket => ?_)
    · obtain rfl := Text.eq_append_of_dropPrefix? htail
      exact (h.conditional _).bind fun key next _ honward => .step agrees_skipBlanks
        (.require fun rest _ => hturn _ _ honward.operators)
    refine .consume (fun tail htail => ?_) (fun hparen => ?_)
    · obtain rfl := Text.eq_append_of_dropPrefix? htail
      exact (h.items ')' _).bind fun args next _ honward => hturn _ _ honward.operators
    · split
      · cases hpoint
      · cases hbracket
      · cases hparen
      · exact agrees_pure _

theorem tracks_suffixed : Tracks source depth source.suffixed (suffixed inner) := by
  intro cursor
  rw [Source.suffixed.eq_1]
  exact (tracks_primary h cursor).bind fun e next _ _ =>
    agrees_suffixes h e next (Nat.succ_pos _) (by omega)

theorem tracks_unary : Tracks source depth source.unary (unaryLevel inner) := by
  intro cursor
  rw [Source.unary.eq_1]
  refine .step agrees_skipBlanks ?_
  have hop := finds_unaryOperator source depth cursor.skipBlanks
  simp only [unaryLevel]
  cases hunary : unaryOperator? cursor.skipBlanks.rest with
  | some r =>
    rw [hunary] at hop
    exact hop.step ((h.unary _).bind fun e next _ _ => agrees_pure _)
  | none =>
    rw [hunary] at hop
    exact hop.step (tracks_suffixed h _)

theorem tracks_equality :
    Tracks source depth (source.joined .equality) (equalityLevel inner) := by
  have hproduct : Tracks source depth (source.joined .product) (productLevel inner) :=
    tracks_joined (by rw [Source.operand.eq_6]; exact tracks_unary h)
  have hsum : Tracks source depth (source.joined .sum) (sumLevel inner) :=
    tracks_joined (by rw [Source.operand.eq_5]; exact hproduct)
  have hrelation : Tracks source depth (source.joined .relation) (relationLevel inner) :=
    tracks_joined (by rw [Source.operand.eq_4]; exact hsum)
  exact tracks_joined (by rw [Source.operand.eq_3]; exact hrelation)

theorem tracks_negation : Tracks source depth source.negation (notLevel inner) := by
  intro cursor
  rw [Source.negation.eq_1]
  simp only [notLevel]
  refine .step agrees_skipBlanks (.keyword (fun rest hrest => ?_) (fun hnone => ?_))
  · simp only [hrest]
    exact (h.negation _).bind fun e next _ _ => agrees_pure _
  · simp only [hnone]
    exact tracks_equality h _

theorem tracks_or : Tracks source depth (source.joined .or) (orLevel inner) := by
  have hand : Tracks source depth (source.joined .and) (andLevel inner) :=
    tracks_joined (by rw [Source.operand.eq_2]; exact tracks_negation h)
  exact tracks_joined (by rw [Source.operand.eq_1]; exact hand)

theorem tracks_conditional :
    Tracks source depth source.conditional (conditionalLevel inner) := by
  intro cursor
  rw [Source.conditional.eq_1]
  simp only [conditionalLevel]
  refine (tracks_or h cursor).bind fun e next _ _ => .step agrees_skipBlanks ?_
  refine .consume (fun rest hrest => ?_) fun hnone => .keyword (fun rest hrest => ?_) fun hif => ?_
  · simp only [hrest, branches]
    refine (h.conditional _).bind fun consequent next _ _ => .step agrees_skipBlanks ?_
    exact .require fun rest _ => (h.conditional _).bind fun alternate next _ _ => agrees_pure _
  · simp only [hnone, hrest, condition]
    refine (tracks_or h _).bind fun test next _ _ => .step agrees_skipBlanks ?_
    refine .keyword (fun rest hrest => ?_) fun helse => ?_
    · simp only [hrest]
      exact (h.conditional _).bind fun alternate next _ _ => agrees_pure _
    · simp only [helse]
      exact agrees_fault _
  · simp only [hnone, hif]
    exact agrees_pure _

end Steps

/-! ## Nesting -/

section Nesting

variable {α : Type} {source : Source} {depth : Nat}

theorem tracks_nested {scan : Scan α} {reader : Reader α} (hdepth : depth < maxNesting)
    (h : Tracks source (depth + 1) scan reader) :
    Tracks source depth (source.nested scan) reader := by
  intro cursor
  have henter : source.enter (cursor.scanner source depth) =
      some (.ok ((), cursor.scanner source (depth + 1))) := by
    have hrun : source.enter (cursor.scanner source depth) =
        (if maxNesting ≤ depth then source.fault .nestedTooDeeply
          else modify fun scanner => { scanner with depth := scanner.depth + 1 })
          (cursor.scanner source depth) := rfl
    rw [hrun, if_neg (Nat.not_le_of_lt hdepth)]
    rfl
  have hscan := h cursor
  cases hread : reader cursor with
  | error fault =>
    rw [hread] at hscan
    intro hcursor
    obtain ⟨herror, hrest⟩ := hscan hcursor
    exact ⟨by rw [Source.nested, Scan.bind_of_ok henter, Scan.bind_of_error herror], hrest⟩
  | ok r =>
    obtain ⟨a, next⟩ := r
    rw [hread] at hscan
    intro hcursor
    obtain ⟨hok, honward⟩ := hscan hcursor
    exact ⟨by rw [Source.nested, Scan.bind_of_ok henter, Scan.bind_of_ok hok]; rfl, honward⟩

theorem tracks_forbidden (scan : Scan α) :
    Tracks source maxNesting (source.nested scan)
      fun cursor => fail .nestedTooDeeply cursor.rest := by
  intro cursor
  have henter : Agrees source maxNesting cursor source.enter
      (fail .nestedTooDeeply cursor.rest) := fun _ => ⟨rfl, List.suffix_refl _⟩
  exact henter.stop _

/-- The induction is on the depth that is left. -/
theorem follows_upTo (source : Source) {depth left : Nat} (hdepth : depth + left = maxNesting) :
    Follows source depth (.upTo left) := by
  induction left generalizing depth with
  | zero =>
    obtain rfl : depth = maxNesting := hdepth
    exact ⟨tracks_forbidden _, tracks_forbidden _, tracks_forbidden _, fun _ => tracks_forbidden _⟩
  | succ left ih =>
    have hbelow : Follows source (depth + 1) (.upTo left) := ih (by omega)
    have hlt : depth < maxNesting := by omega
    exact ⟨tracks_nested hlt (tracks_conditional hbelow),
      tracks_nested hlt (tracks_negation hbelow), tracks_nested hlt (tracks_unary hbelow),
      fun close => tracks_nested hlt (tracks_list (tracks_conditional hbelow) close)⟩

end Nesting

theorem bytes_le_offset_iff {source : Source} {rest : List Char} (h : rest <:+ source.text) :
    Text.bytes source.text ≤ Text.bytes source.text - Text.bytes rest ↔ rest = [] := by
  obtain ⟨front, hfront⟩ := h
  rw [offset_eq hfront.symm, ← hfront, Text.bytes_append]
  constructor
  · intro hle
    cases rest with
    | nil => rfl
    | cons c cs =>
      have hpos : 0 < Text.bytes (c :: cs) := Text.bytes_pos (by simp)
      omega
  · rintro rfl
    exact Nat.le_refl _

/-- The expression at the front of a text that has only blanks after it, and the place after
    these. -/
def readWhole (text : List Char) : Except Fault (Expr × Cursor) :=
  conditionalLevel (.upTo maxNesting) ⟨text, 0⟩ >>= fun read =>
    if read.2.skipBlanks.rest.isEmpty then .ok (read.1, read.2.skipBlanks)
    else fail .trailingInput read.2.skipBlanks.rest

theorem parseText_eq (text : List Char) : parseText text = (readWhole text).map (·.1) := by
  rw [parseText, readWhole]
  cases conditionalLevel (.upTo maxNesting) ⟨text, 0⟩ with
  | error fault => rfl
  | ok read =>
    rw [ok_bind, ok_bind]
    cases h : read.2.skipBlanks.rest.isEmpty with
    | true => simp [h, Except.map]
    | false => simp [h, Except.map, fail]

theorem agrees_whole (source : Source) :
    Agrees source 0 ⟨source.text, 0⟩ source.whole (readWhole source.text) := by
  have h : Follows source 0 (.upTo maxNesting) := follows_upTo source (Nat.zero_add _)
  refine .assume fun hcursor => (tracks_conditional h _).bind fun e next _ honward =>
    .step agrees_skipBlanks (.step agrees_offset ?_)
  have hrest : next.skipBlanks.rest <:+ source.text :=
    (Text.trimStart_suffix _).trans honward.rest
  simp only
  by_cases hnil : next.skipBlanks.rest = []
  · rw [if_pos ((bytes_le_offset_iff hrest).2 hnil), if_pos (by rw [hnil]; rfl)]
    exact agrees_pure e
  · rw [if_neg (mt (bytes_le_offset_iff hrest).1 hnil), if_neg (by simpa using hnil)]
    exact agrees_fault _

/-- A scan of any text ends, with the expression or the error that the reader gives. -/
theorem Scan.parse_eq (input : List Char) : Scan.parse input = some (Expr.parse input) := by
  have hstart : (⟨input, 0⟩ : Cursor).scanner ⟨input⟩ 0 = ⟨0, 0, 0⟩ := by
    rw [Cursor.scanner, Nat.sub_self]
  have hparse : Scan.parse input =
      Option.map (Except.map Prod.fst) (Source.whole ⟨input⟩ ⟨0, 0, 0⟩) := rfl
  have hwhole := agrees_whole ⟨input⟩
  rw [Expr.parse, parseText_eq]
  cases h : readWhole input with
  | error fault =>
    rw [h] at hwhole
    obtain ⟨hscan, -⟩ := hwhole (List.suffix_refl _)
    rw [hstart] at hscan
    rw [hparse, hscan]
    rfl
  | ok read =>
    rw [h] at hwhole
    obtain ⟨hscan, -⟩ := hwhole (List.suffix_refl _)
    rw [hstart] at hscan
    rw [hparse, hscan]
    rfl

end DataBinding.Expr
