import DataBinding.Proofs.Text.Classes
import DataBinding.Proofs.Double.Integral
import DataBinding.Proofs.Expr.Desugar

/-!
# Literals, names and brackets read back

What the printer writes for a literal or a name is read as that literal or name, whatever follows,
unless the text that follows would carry on the name or the number.

Results:
* `takeName_append_of_delimited`, `takeNumber_append`: names and numbers end where they should.
* `takeQuoted_quotedText`: quoting is undone by reading.
* `primary_quotedText`, `primary_digits`, `primary_word`, `primary_parenthesis`: the ways in which
  a primary expression is read.
-/

namespace DataBinding.Expr

open Text (isBlank isDigit)

/-! ## What may follow -/

/-- No character of a name comes first. -/
def Delimited (rest : List Char) : Prop := ∀ c ∈ rest.head?, isNameChar c = false

/-- No point with a digit after it comes first. -/
def NoFraction (rest : List Char) : Prop := ∀ c tail, rest = '.' :: c :: tail → isDigit c = false

theorem delimited_nil : Delimited [] := by simp [Delimited]

theorem delimited_cons {c : Char} (rest : List Char) (h : isNameChar c = false) :
    Delimited (c :: rest) := by simpa [Delimited] using h

theorem noFraction_cons {c : Char} (rest : List Char) (h : c ≠ '.') : NoFraction (c :: rest) := by
  intro d tail he
  exact absurd (List.cons.inj he).1 h

theorem takeWhile_append_of_head {p : Char → Bool} {cs rest : List Char}
    (hcs : ∀ c ∈ cs, p c = true) (hrest : ∀ c ∈ rest.head?, p c = false) :
    (cs ++ rest).takeWhile p = cs ∧ (cs ++ rest).dropWhile p = rest := by
  rw [List.takeWhile_append_of_pos hcs, List.dropWhile_append_of_pos hcs]
  cases rest with
  | nil => simp
  | cons c rest => simp [hrest c (by simp)]

theorem takeName_append_of_delimited {name rest : List Char}
    (hn : ∀ c ∈ name, isNameChar c = true) (hr : Delimited rest) :
    takeName (name ++ rest) = (name, rest) := by
  obtain ⟨ht, hd⟩ := takeWhile_append_of_head hn hr
  rw [takeName, ht, hd]

theorem keyword?_of_delimited {word rest : List Char} (hw : word ≠ []) (hr : Delimited rest) :
    keyword? word rest = none := by
  have h : takeName ([] ++ rest) = ([], rest) := takeName_append_of_delimited (by simp) hr
  rw [List.nil_append] at h
  rw [keyword?, h, if_neg (Ne.symm hw)]

/-! ## Blanks -/

theorem trimStart_cons {c : Char} (rest : List Char) (h : isBlank c = false) :
    Text.trimStart (c :: rest) = c :: rest := by simp [Text.trimStart, h]

theorem trimStart_trimStart (cs : List Char) :
    Text.trimStart (Text.trimStart cs) = Text.trimStart cs := by
  cases h : Text.trimStart cs with
  | nil => rfl
  | cons c rest => exact trimStart_cons rest (Text.trimStart_head h)

theorem trimStart_blank_cons (cs : List Char) :
    Text.trimStart (' ' :: cs) = Text.trimStart cs := by
  rw [Text.trimStart, List.dropWhile_cons_of_pos (by decide), Text.trimStart]

theorem skipBlanks_cons {c : Char} (rest : List Char) (k : Nat) (h : isBlank c = false) :
    Cursor.skipBlanks ⟨c :: rest, k⟩ = ⟨c :: rest, k⟩ := by
  rw [Cursor.skipBlanks, trimStart_cons rest h]

theorem skipBlanks_skipBlanks (cursor : Cursor) :
    cursor.skipBlanks.skipBlanks = cursor.skipBlanks := by
  simp only [Cursor.skipBlanks, trimStart_trimStart]

/-! ## Numbers -/

theorem takeDigits_append_of_delimited {digits rest : List Char}
    (hd : ∀ c ∈ digits, isDigit c = true) (hr : Delimited rest) :
    Decimal.takeDigits (digits ++ rest) = (digits, rest) := by
  have hr' : ∀ c ∈ rest.head?, isDigit c = false := by
    intro c hc
    rw [Bool.eq_false_iff]
    intro h
    exact absurd (isNameChar_of_isDigit h) (by simp [hr c hc])
  obtain ⟨ht, hd⟩ := takeWhile_append_of_head hd hr'
  rw [Decimal.takeDigits, ht, hd]

theorem takeNumber_append {digits rest : List Char} (hd : ∀ c ∈ digits, isDigit c = true)
    (hr : Delimited rest) (hf : NoFraction rest) :
    takeNumber (digits ++ rest) = (numberLiteral digits [], rest) := by
  simp only [takeNumber, takeDigits_append_of_delimited hd hr]
  split
  · rename_i tail
    have hfraction : (Decimal.takeDigits tail).1 = [] := by
      cases tail with
      | nil => rfl
      | cons c tail => simp [Decimal.takeDigits, hf c tail rfl]
    simp [hfraction]
  · rfl

theorem numberLiteral_of_lt {digits : List Char} (h : Text.digitsValue digits < signBit) :
    literal (numberLiteral digits []) = digitsLiteral digits := by
  simp [numberLiteral, h, digitsLiteral, Value.ofNat]

/-! ## Text literals -/

theorem takeQuoted_escapedChar (c : Char) (cs : List Char) :
    takeQuoted '\'' (escapedChar c ++ cs) =
      (takeQuoted '\'' cs).map fun (text, rest) => (c :: text, rest) := by
  unfold escapedChar
  split
  · subst_vars; simp [takeQuoted, unescaped]
  split
  · subst_vars; simp [takeQuoted, unescaped]
  split
  · subst_vars; simp [takeQuoted, unescaped]
  split
  · subst_vars; simp [takeQuoted, unescaped]
  split
  · subst_vars; simp [takeQuoted, unescaped]
  · rename_i hq hb _ _ _
    rw [List.singleton_append, takeQuoted.eq_def]
    simp only [hq, hb, if_false]

theorem takeQuoted_quotedText (cs rest : List Char) :
    takeQuoted '\'' (cs.flatMap escapedChar ++ '\'' :: rest) = some (cs, rest) := by
  induction cs with
  | nil =>
    rw [List.flatMap_nil, List.nil_append, takeQuoted.eq_def]
    simp only [if_true]
  | cons c cs ih => rw [List.flatMap_cons, List.append_assoc, takeQuoted_escapedChar, ih]; rfl

/-! ## The first character -/

/-- The character may start an expression that is no unary operator. -/
def isOperandStart (c : Char) : Bool :=
  c == '\'' || isDigit c || c == '(' || c == '[' || isNameStart c

/-- The character may start an expression. -/
def isFront (c : Char) : Bool := isOperandStart c || c == '!' || c == '-' || c == '+'

theorem isFront_of_isOperandStart {c : Char} (h : isOperandStart c = true) :
    isFront c = true := by simp [isFront, h]

theorem isBlank_of_isFront {c : Char} (h : isFront c = true) : isBlank c = false := by
  simp only [isFront, isOperandStart, Bool.or_eq_true, beq_iff_eq] at h
  rcases h with ((((((rfl | h) | rfl) | rfl) | h) | rfl) | rfl) | rfl
  all_goals first | decide | skip
  · exact isBlank_of_isNameChar (isNameChar_of_isDigit h)
  · exact isBlank_of_isNameChar (isNameChar_of_isNameStart h)

/-- Brackets and commas start no expression. -/
theorem ne_of_isFront {c d : Char} (h : isFront c = true) (hd : isFront d = false) : c ≠ d := by
  rintro rfl
  rw [h] at hd
  exact absurd hd (by decide)

theorem unaryOperator?_of_isOperandStart {c : Char} (rest : List Char)
    (h : isOperandStart c = true) : unaryOperator? (c :: rest) = none := by
  unfold unaryOperator?
  split
  · rename_i he; rw [(List.cons.inj he).1] at h; exact absurd h (by decide)
  · rename_i he; rw [(List.cons.inj he).1] at h; exact absurd h (by decide)
  · rename_i he; rw [(List.cons.inj he).1] at h; exact absurd h (by decide)
  · rfl

/-! ## Primary expressions -/

variable (inner : Nesting) (rest : List Char) (k : Nat)

theorem primary_quotedText (cs : List Char) :
    primary inner ⟨quotedText cs ++ rest, k⟩ =
      .ok (literal (.text (String.ofList cs)), ⟨rest, k⟩) := by
  have h : quotedText cs ++ rest = '\'' :: (cs.flatMap escapedChar ++ '\'' :: rest) := by
    simp [quotedText]
  rw [h, primary, skipBlanks_cons _ _ (by decide)]
  simp [takeQuoted_quotedText]

theorem primary_digits {digits : List Char} (hne : digits ≠ [])
    (hd : ∀ c ∈ digits, isDigit c = true) (hlt : Text.digitsValue digits < signBit)
    (hr : Delimited rest) (hf : NoFraction rest) :
    primary inner ⟨digits ++ rest, k⟩ = .ok (digitsLiteral digits, ⟨rest, k⟩) := by
  obtain ⟨c, cs, rfl⟩ := List.exists_cons_of_ne_nil hne
  have hc : isDigit c = true := hd c (by simp)
  have hb : isBlank c = false := isBlank_of_isNameChar (isNameChar_of_isDigit hc)
  have hq : ¬(c = '\'' ∨ c = '"') := by
    rintro (rfl | rfl) <;> exact absurd hc (by decide)
  have hn := takeNumber_append hd hr hf
  rw [List.cons_append] at hn ⊢
  rw [primary, skipBlanks_cons _ _ hb]
  simp only [hq, hc, if_true, if_false, hn, numberLiteral_of_lt hlt]

theorem primary_word {word : List Char} {e : Expr} {c : Char} {cs : List Char}
    (hw : word = c :: cs) (hc : isNameStart c = true) (hcs : ∀ d ∈ cs, isNameChar d = true)
    (he : wordExpr? (String.ofList word) = some e) (hr : Delimited rest) :
    primary inner ⟨word ++ rest, k⟩ = .ok (e, ⟨rest, k⟩) := by
  have hq : ¬(c = '\'' ∨ c = '"') := by
    rintro (rfl | rfl) <;> exact absurd hc (by decide)
  have hd : ¬isDigit c = true := fun h => absurd hc (by simp [isNameStart_of_isDigit h])
  have hp : c ≠ '(' := by rintro rfl; exact absurd hc (by decide)
  have hb : c ≠ '[' := by rintro rfl; exact absurd hc (by decide)
  have hn : ∀ d ∈ word, isNameChar d = true := by
    intro d hdw
    rw [hw] at hdw
    rcases List.mem_cons.1 hdw with rfl | h
    · exact isNameChar_of_isNameStart hc
    · exact hcs d h
  have hblank := isBlank_of_isNameChar (isNameChar_of_isNameStart hc)
  have ht := takeName_append_of_delimited hn hr
  rw [hw] at ht he ⊢
  rw [List.cons_append] at ht ⊢
  rw [primary, skipBlanks_cons _ _ hblank]
  simp only [hq, hd, hp, hb, hc, if_true, if_false, Bool.false_eq_true, ht, he]

variable {rest k}

theorem primary_parenthesis {text : List Char} {e : Expr} {n : Nat}
    (h : inner.conditional ⟨text ++ ')' :: rest, k⟩ = .ok (e, ⟨')' :: rest, n⟩)) :
    primary inner ⟨'(' :: text ++ ')' :: rest, k⟩ = .ok (e, ⟨rest, n⟩) := by
  rw [List.cons_append, primary, skipBlanks_cons _ _ (by decide)]
  simp [h, bind, Except.bind, isDigit, skipBlanks_cons rest n (show isBlank ')' = false by decide),
    expect, Text.dropPrefix?]

theorem primary_array {text : List Char} {items : List Expr} {n : Nat}
    (h : inner.items ']' ⟨text ++ ']' :: rest, k⟩ = .ok (items, ⟨rest, n⟩)) :
    primary inner ⟨'[' :: text ++ ']' :: rest, k⟩ = .ok (array items, ⟨rest, n⟩) := by
  rw [List.cons_append, primary, skipBlanks_cons _ _ (by decide)]
  simp [h, bind, Except.bind, isDigit]

end DataBinding.Expr
