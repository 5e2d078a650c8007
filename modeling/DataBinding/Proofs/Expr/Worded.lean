import DataBinding.Proofs.Expr.Built
import DataBinding.Proofs.Expr.Token
import DataBinding.Reference.Basic

/-!
# Texts without symbols

In a text without operator characters there are no brackets, quotes or symbols, so an expression is
made of names, numbers and members, joined by the words that are operators. Such a word stands after
an operand and before another one. Between a word and its neighbours there are blanks, except that a
number may run into the word that follows it.

Results:
* `AfterOperand.exists_spaced`: where blanks are plain spaces, an operator word is set off by them.
* `chain_words`, `operatorLevel_words`: the levels of operators, by induction on the operators read.
* `conditionalLevel_words`: a conditional has its two words in order.
* `nestsWords_upTo`: the same for whatever may nest, by induction on the depth.
* `wordReading_of_parse`: what is known of an expression that makes up such a text.
-/

namespace DataBinding.Expr

open Text (isBlank isDigit)

/-! ## Trees -/

/-- The tree has a node other than a name, a member and a literal that is no text. Below a member
    the object is searched; any other node counts itself. -/
def hasOperation : Expr → Bool
  | literal v => v.text?.isSome
  | undefined => false
  | ident _ => false
  | member object _ => object.hasOperation
  | array _ => true
  | index _ _ => true
  | call _ _ => true
  | unary _ _ => true
  | binary _ _ _ => true
  | membership _ _ _ => true
  | conditional _ _ _ => true

/-- Every node of the tree can be spelled without symbols other than the point of a member. -/
def isWorded : Expr → Bool
  | literal v => v.text?.isNone
  | undefined => true
  | ident _ => true
  | member object _ => object.isWorded
  | unary op operand => op == .not && operand.isWorded
  | binary op left right => (op == .and || op == .or) && left.isWorded && right.isWorded
  | membership _ needle haystack => needle.isWorded && haystack.isWorded
  | conditional test consequent alternate =>
    test.isWorded && consequent.isWorded && alternate.isWorded
  | array _ => false
  | index _ _ => false
  | call _ _ => false

theorem text?_floatLiteral (d : Decimal) : (floatLiteral d).text? = none := by
  rw [floatLiteral]
  split <;> rfl

theorem text?_numberLiteral (whole fraction : List Char) :
    (numberLiteral whole fraction).text? = none := by
  rw [numberLiteral]
  split
  · rfl
  · exact text?_floatLiteral _

theorem text?_takeNumber (cs : List Char) : (takeNumber cs).1.text? = none := by
  simp only [takeNumber]
  split
  · split <;> exact text?_numberLiteral _ _
  · exact text?_numberLiteral _ _

theorem isWorded_of_wordExpr? {word : String} {e : Expr} (h : wordExpr? word = some e) :
    e.isWorded = true ∧ e.hasOperation = false := by
  unfold wordExpr? at h
  repeat' split at h
  all_goals cases h
  all_goals exact ⟨rfl, rfl⟩

/-! ## Words in their places -/

/-- No character of a name comes last. -/
def EndsWord (front : List Char) : Prop := ∀ c ∈ front.getLast?, isNameChar c = false

/-- Wherever an operator word stands in the text as a word, no digits run into it, and a blank right
    before it or right after it is a plain space. -/
def SpacedWords (text : List Char) : Prop :=
  ∀ word ∈ operatorWords, ∀ front digits back,
    text = front ++ (digits ++ (word.toList ++ back)) → (∀ c ∈ digits, isDigit c = true) →
    EndsWord front → Delimited back →
      digits = [] ∧ (∀ c ∈ front.getLast?, isBlank c = true → c = ' ') ∧
        ∀ c ∈ back.head?, isBlank c = true → c = ' '

/-- An operator word stands between plain spaces: one that joins two operands, or both words of a
    conditional one after the other. -/
inductive SetOff (text : List Char) : Prop
  | operator {word : String} (hword : word ∈ ["in", "and", "or"])
      (h : ' ' :: (word.toList ++ [' ']) <:+: text)
  | branches {rest : List Char} (h : rest <:+ text) (hif : " if ".toList <+: rest)
      (helse : " else ".toList <:+: rest)

/-- The text starts with the word `not` and a blank, other blanks aside. -/
def StartsNot (rest : List Char) : Prop :=
  ∃ c back, Text.trimStart rest = "not".toList ++ c :: back ∧ isBlank c = true

/-- All blanks in the text are plain spaces, and no digits occur. -/
def plainlySpaced (text : List Char) : Bool :=
  text.all fun c => !isDigit c && (!isBlank c || c == ' ')

theorem spacedWords_of_plainlySpaced {text : List Char} (h : plainlySpaced text = true) :
    SpacedWords text := by
  have hchar : ∀ c ∈ text, isDigit c = false ∧ (isBlank c = true → c = ' ') := by
    intro c hc
    have hboth := List.all_eq_true.1 h c hc
    simpa [Bool.or_eq_true, Decidable.imp_iff_not_or] using hboth
  rintro word - front digits back rfl hdigits - -
  refine ⟨?_, ?_, ?_⟩
  · rw [List.eq_nil_iff_forall_not_mem]
    intro c hc
    have hno := (hchar c (by simp [hc])).1
    rw [hdigits c hc] at hno
    cases hno
  · intro c hc
    exact (hchar c (by simp [List.mem_of_getLast? hc])).2
  · intro c hc
    exact (hchar c (by simp [List.mem_of_mem_head? hc])).2

theorem EndsWord.append {front more : List Char} (h : EndsWord front) (h' : EndsWord more) :
    EndsWord (front ++ more) := by
  intro c hc
  rw [List.getLast?_append] at hc
  rcases Option.or_eq_some_iff.1 hc with hmore | ⟨-, hfront⟩
  · exact h' c hmore
  · exact h c hfront

theorem endsWord_of_isBlank {front : List Char} (h : ∃ c ∈ front.getLast?, isBlank c = true) :
    EndsWord front := by
  obtain ⟨c, hc, hblank⟩ := h
  intro d hd
  rw [Option.mem_unique hd hc]
  exact isNameChar_of_isBlank hblank

theorem not_delimited_word {word : String} (h : word ∈ operatorWords) (back : List Char) :
    ¬Delimited (word.toList ++ back) := by
  simp only [operatorWords, List.mem_cons, List.not_mem_nil, or_false] at h
  intro hback
  rcases h with rfl | rfl | rfl | rfl | rfl | rfl <;>
    exact absurd (hback _ rfl) (by decide)

theorem delimited_takeName (cs : List Char) : Delimited (takeName cs).2 := by
  intro c hc
  cases h : cs.dropWhile isNameChar with
  | nil =>
    rw [takeName, h] at hc
    cases hc
  | cons d rest =>
    have hd := List.head?_dropWhile_not isNameChar cs
    rw [takeName, h] at hc
    obtain rfl := Option.some.inj hc
    simpa [h] using hd

theorem delimited_of_keyword? {word cs back : List Char} (h : keyword? word cs = some back) :
    cs = word ++ back ∧ Delimited back := by
  refine ⟨keyword?_eq_some h, ?_⟩
  rw [keyword?] at h
  split at h
  · rw [← Option.some.inj h]
    exact delimited_takeName cs
  · cases h

/-- An operand does not start right after a word, so there is a blank in between. -/
theorem exists_blank_cons {back : List Char} (hback : Delimited back)
    (hopens : ∃ c ∈ (Text.trimStart back).head?, isNameChar c = true) :
    ∃ c rest, back = c :: rest ∧ isBlank c = true := by
  obtain ⟨d, hd, hname⟩ := hopens
  cases back with
  | nil => cases hd
  | cons c rest =>
    refine ⟨c, rest, rfl, ?_⟩
    cases hblank : isBlank c with
    | true => rfl
    | false =>
      rw [trimStart_cons rest hblank] at hd
      rw [hback d hd] at hname
      cases hname

/-! ## Places in the text -/

/-- No word goes on where this is left of the text. -/
def AtWord (text rest : List Char) : Prop :=
  ∃ front, text = front ++ rest ∧ (Delimited rest ∨ EndsWord front)

/-- What is left of the text after an operand. Another word starts there only after a blank, unless
    a number runs into it. -/
def AfterOperand (text rest : List Char) : Prop :=
  ∃ front digits, text = front ++ (digits ++ rest) ∧ (∀ c ∈ digits, isDigit c = true) ∧
    (Delimited rest ∨
      EndsWord front ∧ (digits = [] → ∃ c ∈ front.getLast?, isBlank c = true))

section Places

variable {text rest : List Char}

theorem getLast?_append_blanks (front : List Char) {blanks : List Char} (hne : blanks ≠ [])
    (h : ∀ c ∈ blanks, isBlank c = true) :
    ∃ c ∈ (front ++ blanks).getLast?, isBlank c = true := by
  have hlast := List.getLast?_eq_some_getLast hne
  refine ⟨blanks.getLast hne, ?_, h _ (List.getLast_mem hne)⟩
  rw [List.getLast?_append, hlast]
  rfl

theorem AtWord.suffix (h : AtWord text rest) : rest <:+ text := by
  obtain ⟨front, rfl, -⟩ := h
  exact List.suffix_append front rest

theorem atWord_of_delimited (h : rest <:+ text) (hd : Delimited rest) : AtWord text rest := by
  obtain ⟨front, rfl⟩ := h
  exact ⟨front, rfl, .inl hd⟩

theorem AtWord.skipBlanks (h : AtWord text rest) : AtWord text (Text.trimStart rest) := by
  obtain ⟨blanks, hrest, hblank⟩ := Text.exists_append_trimStart rest
  by_cases hne : blanks = []
  · rw [hne, List.nil_append] at hrest
    rwa [← hrest]
  · obtain ⟨front, htext, -⟩ := h
    refine ⟨front ++ blanks, by rw [List.append_assoc, ← hrest, htext], .inr ?_⟩
    exact endsWord_of_isBlank (getLast?_append_blanks front hne hblank)

theorem AfterOperand.suffix (h : AfterOperand text rest) : rest <:+ text := by
  obtain ⟨front, digits, rfl, -⟩ := h
  rw [← List.append_assoc]
  exact List.suffix_append _ rest

theorem afterOperand_of_delimited (h : rest <:+ text) (hd : Delimited rest) :
    AfterOperand text rest := by
  obtain ⟨front, rfl⟩ := h
  exact ⟨front, [], rfl, by simp, .inl hd⟩

theorem AfterOperand.skipBlanks (h : AfterOperand text rest) :
    AfterOperand text (Text.trimStart rest) := by
  obtain ⟨blanks, hrest, hblank⟩ := Text.exists_append_trimStart rest
  by_cases hne : blanks = []
  · rw [hne, List.nil_append] at hrest
    rwa [← hrest]
  · obtain ⟨front, digits, htext, -⟩ := h
    have hlast := getLast?_append_blanks (front ++ digits) hne hblank
    refine ⟨front ++ digits ++ blanks, [], ?_, by simp, .inr ⟨endsWord_of_isBlank hlast, ?_⟩⟩
    · rw [List.nil_append, List.append_assoc, List.append_assoc, ← hrest, htext]
    · exact fun _ => hlast

/-- Between the operand and an operator word there may be another word and a blank. -/
theorem AfterOperand.passWord {front back : List Char} (h : AfterOperand text (front ++ back))
    (hfront : front = [] ∨ ∃ c ∈ front.getLast?, isBlank c = true) : AfterOperand text back := by
  rcases hfront with rfl | ⟨c, hc, hblank⟩
  · exact h
  · obtain ⟨before, htext⟩ := h.suffix
    have hlast : ∃ d ∈ (before ++ front).getLast?, isBlank d = true := by
      refine ⟨c, ?_, hblank⟩
      rw [List.getLast?_append, hc]
      rfl
    refine ⟨before ++ front, [], by rw [← htext]; simp, by simp, ?_⟩
    exact .inr ⟨endsWord_of_isBlank hlast, fun _ => hlast⟩

/-- An operator word after an operand, with a blank behind it, is set off by plain spaces. -/
theorem AfterOperand.exists_spaced {word : String} {c : Char} {back : List Char}
    (h : AfterOperand text (word.toList ++ c :: back)) (hword : word ∈ operatorWords)
    (hblank : isBlank c = true) (hspaced : SpacedWords text) :
    c = ' ' ∧ ∃ front, text = front ++ ' ' :: (word.toList ++ c :: back) := by
  obtain ⟨front, digits, htext, hdigits, hplace⟩ := h
  obtain ⟨hends, hbefore⟩ := hplace.resolve_left (not_delimited_word hword _)
  have hback : Delimited (c :: back) := delimited_cons back (isNameChar_of_isBlank hblank)
  obtain ⟨rfl, hleft, hright⟩ := hspaced word hword front digits _ htext hdigits hends hback
  refine ⟨hright c rfl hblank, ?_⟩
  obtain ⟨d, hd, hdblank⟩ := hbefore rfl
  obtain ⟨front, rfl⟩ := List.getLast?_eq_some_iff.1 hd
  refine ⟨front, ?_⟩
  rw [hleft d hd hdblank] at htext
  simpa using htext

end Places

/-! ## Readers -/

/-- What is known of an expression that was read from `rest`, where `left` is left of the text. -/
structure WordReading (text rest : List Char) (e : Expr) (left : List Char) : Prop where
  suffix : left <:+ rest
  opens : ∃ c ∈ (Text.trimStart rest).head?, isNameChar c = true
  after : AfterOperand text left
  worded : e.isWorded = true
  found : SpacedWords text → e.hasOperation = false ∨ SetOff text ∨ StartsNot rest

/-- Whatever is read at a word boundary of the text is known. -/
def ReadsWords (text : List Char) (reader : Reader Expr) : Prop :=
  ∀ cursor e next, AtWord text cursor.rest → reader cursor = .ok (e, next) →
    WordReading text cursor.rest e next.rest

theorem WordReading.ofTrimmed {text rest left : List Char} {e : Expr}
    (h : WordReading text (Text.trimStart rest) e left) : WordReading text rest e left where
  suffix := h.suffix.trans (Text.trimStart_suffix rest)
  opens := by simpa only [trimStart_trimStart] using h.opens
  after := h.after
  worded := h.worded
  found := by simpa only [StartsNot, trimStart_trimStart] using h.found

/-- A number is digits, which may stand after a point. -/
theorem exists_split_takeNumber {c : Char} (hc : isDigit c = true) (cs : List Char) :
    ∃ front digits, c :: cs = front ++ (digits ++ (takeNumber (c :: cs)).2) ∧
      (∀ d ∈ digits, isDigit d = true) ∧ digits ≠ [] ∧ EndsWord front := by
  have hall : ∀ (l : List Char), ∀ d ∈ (Decimal.takeDigits l).1, isDigit d = true :=
    fun l => List.all_eq_true.1 List.all_takeWhile
  have hwhole := Decimal.takeDigits_append (c :: cs)
  have hne : (Decimal.takeDigits (c :: cs)).1 ≠ [] := by simp [Decimal.takeDigits, hc]
  have hnone : ∃ front digits, c :: cs = front ++ (digits ++ (Decimal.takeDigits (c :: cs)).2) ∧
      (∀ d ∈ digits, isDigit d = true) ∧ digits ≠ [] ∧ EndsWord front :=
    ⟨[], _, hwhole.symm, hall _, hne, by simp [EndsWord]⟩
  simp only [takeNumber]
  split
  · rename_i tail hrest
    split
    · exact hnone
    · rename_i hfraction
      have hpoint : EndsWord ((Decimal.takeDigits (c :: cs)).1 ++ ['.']) := by
        intro d hd
        rw [List.getLast?_concat] at hd
        rw [← Option.some.inj hd]
        decide
      refine ⟨_, (Decimal.takeDigits tail).1, ?_, hall _, by simpa using hfraction, hpoint⟩
      rw [Decimal.takeDigits_append, List.append_assoc, List.singleton_append, ← hrest, hwhole]
  · exact hnone

section Levels

variable {text : List Char} (hplain : ∀ c ∈ text, c ∉ Reference.operatorChars)
  {inner : Nesting}
include hplain

theorem primary_words : ReadsWords text (primary inner) := by
  intro cursor e next hat he
  refine WordReading.ofTrimmed ?_
  replace hat : AtWord text cursor.skipBlanks.rest := hat.skipBlanks
  show WordReading text cursor.skipBlanks.rest e next.rest
  simp only [primary] at he
  generalize cursor.skipBlanks = cursor at hat he ⊢
  split at he
  · cases he
  rename_i c tail hrest
  rw [hrest] at hat ⊢
  have hmem : c ∈ text := hat.suffix.subset List.mem_cons_self
  have hsymbol : ∀ d ∈ Reference.operatorChars, c ≠ d := by
    rintro d hd rfl
    exact hplain c hmem hd
  have hopens : isNameChar c = true →
      ∃ d ∈ (Text.trimStart (c :: tail)).head?, isNameChar d = true := by
    intro hname
    rw [trimStart_cons tail (isBlank_of_isNameChar hname)]
    exact ⟨c, rfl, hname⟩
  split at he
  · -- quotes are symbols
    rename_i hquote
    rcases hquote with hquote | hquote
    · exact absurd hquote (hsymbol _ (by decide))
    · exact absurd hquote (hsymbol _ (by decide))
  split at he
  · -- a number
    rename_i hdigit
    obtain ⟨rfl, rfl⟩ := Prod.mk.inj (Except.ok.inj he)
    have hname := isNameChar_of_isDigit hdigit
    obtain ⟨front, digits, hsplit, hdigits, hne, hfront⟩ := exists_split_takeNumber hdigit tail
    obtain ⟨before, htext, hplace⟩ := hat
    have hbefore : EndsWord before := by
      refine hplace.resolve_left fun hdelimited => ?_
      rw [hdelimited c rfl] at hname
      cases hname
    have hnumber := text?_takeNumber (c :: tail)
    exact {
      suffix := ⟨front ++ digits, by rw [List.append_assoc, ← hsplit]⟩
      opens := hopens hname
      after := ⟨before ++ front, digits, by rw [List.append_assoc, ← hsplit, htext], hdigits,
        .inr ⟨hbefore.append hfront, fun hnil => absurd hnil hne⟩⟩
      worded := by rw [isWorded, hnumber]; rfl
      found := fun _ => .inl (by rw [hasOperation, hnumber]; rfl) }
  split at he
  · rename_i hbracket
    exact absurd hbracket (hsymbol _ (by decide))
  split at he
  · rename_i hbracket
    exact absurd hbracket (hsymbol _ (by decide))
  split at he
  · -- a word
    rename_i hstart
    split at he
    · rename_i hword
      obtain ⟨rfl, rfl⟩ := Prod.mk.inj (Except.ok.inj he)
      obtain ⟨hworded, hnone⟩ := isWorded_of_wordExpr? hword
      have hsuffix : (takeName (c :: tail)).2 <:+ c :: tail := List.dropWhile_suffix _
      exact {
        suffix := hsuffix
        opens := hopens (isNameChar_of_isNameStart hstart)
        after := afterOperand_of_delimited (hsuffix.trans hat.suffix) (delimited_takeName _)
        worded := hworded
        found := fun _ => .inl hnone }
    · cases he
  · cases he

theorem suffix?_words {object : Expr} {e? : Option Expr} {cursor next : Cursor}
    (he : suffix? inner object cursor = .ok (e?, next)) (hafter : AfterOperand text cursor.rest) :
    next.rest <:+ cursor.rest ∧ AfterOperand text next.rest ∧
      ∀ e ∈ e?, ∃ property, e = member object property := by
  have htrim : cursor.skipBlanks.rest <:+ cursor.rest := Text.trimStart_suffix _
  replace hafter : AfterOperand text cursor.skipBlanks.rest := hafter.skipBlanks
  simp only [suffix?] at he
  have hsymbol : ∀ c tail, cursor.skipBlanks.rest = c :: tail → c ∉ Reference.operatorChars := by
    intro c tail hrest
    exact hplain c (hafter.suffix.subset (hrest ▸ List.mem_cons_self))
  split at he
  · -- a member
    rename_i tail hrest
    split at he
    · cases he
    · obtain ⟨counted, hcount, he⟩ := bind_eq_ok.1 he
      obtain ⟨rfl, rfl⟩ := Prod.mk.inj (Except.ok.inj he)
      have hnext : counted.rest = (takeName (Text.trimStart tail)).2 := countOperator_rest hcount
      have hsuffix : counted.rest <:+ cursor.skipBlanks.rest := by
        rw [hnext, hrest]
        exact ((List.dropWhile_suffix _).trans (Text.trimStart_suffix tail)).trans
          (List.suffix_cons '.' tail)
      refine ⟨hsuffix.trans htrim, ?_, ?_⟩
      · refine afterOperand_of_delimited (hsuffix.trans hafter.suffix) ?_
        rw [hnext]
        exact delimited_takeName _
      · intro e he
        exact ⟨_, (Option.some.inj he).symm⟩
  · rename_i tail hrest
    exact absurd (by decide) (hsymbol '[' tail hrest)
  · rename_i tail hrest
    exact absurd (by decide) (hsymbol '(' tail hrest)
  · obtain ⟨rfl, rfl⟩ := Prod.mk.inj (Except.ok.inj he)
    exact ⟨htrim, hafter, by simp⟩

theorem suffixes_words {fuel : Nat} {object e : Expr} {cursor next : Cursor}
    (he : suffixes inner fuel object cursor = .ok (e, next))
    (hafter : AfterOperand text cursor.rest) :
    next.rest <:+ cursor.rest ∧ AfterOperand text next.rest ∧ e.isWorded = object.isWorded ∧
      e.hasOperation = object.hasOperation := by
  induction fuel generalizing object cursor with
  | zero => cases he
  | succ fuel ih =>
    obtain ⟨⟨e?, cursor'⟩, hsuffix, he⟩ := bind_eq_ok.1 he
    obtain ⟨hleft, hafter', hmember⟩ := suffix?_words hplain hsuffix hafter
    cases e? with
    | none =>
      obtain ⟨rfl, rfl⟩ := Prod.mk.inj (Except.ok.inj he)
      exact ⟨hleft, hafter', rfl, rfl⟩
    | some e' =>
      obtain ⟨property, rfl⟩ := hmember e' rfl
      obtain ⟨hleft', hafter, hworded, hoperation⟩ := ih he hafter'
      exact ⟨hleft'.trans hleft, hafter, hworded, hoperation⟩

theorem unaryLevel_words : ReadsWords text (unaryLevel inner) := by
  intro cursor e next hat he
  refine WordReading.ofTrimmed ?_
  replace hat : AtWord text cursor.skipBlanks.rest := hat.skipBlanks
  show WordReading text cursor.skipBlanks.rest e next.rest
  simp only [unaryLevel] at he
  generalize cursor.skipBlanks = cursor at hat he ⊢
  split at he
  · -- the other unary operators are symbols
    rename_i op rest hop
    have hfront : ∃ c ∈ Reference.operatorChars, ∃ tail, cursor.rest = c :: tail := by
      unfold unaryOperator? at hop
      split at hop
      · rename_i hrest; exact ⟨'!', by decide, _, hrest⟩
      · rename_i hrest; exact ⟨'-', by decide, _, hrest⟩
      · rename_i hrest; exact ⟨'+', by decide, _, hrest⟩
      · cases hop
    obtain ⟨c, hc, tail, hrest⟩ := hfront
    exact absurd hc (hplain c (hat.suffix.subset (hrest ▸ List.mem_cons_self)))
  · obtain ⟨⟨object, cursor'⟩, hprimary, he⟩ := bind_eq_ok.1 he
    have hobject := primary_words hplain cursor object cursor' hat hprimary
    obtain ⟨hleft, hafter, hworded, hoperation⟩ := suffixes_words hplain he hobject.after
    exact {
      suffix := hleft.trans hobject.suffix
      opens := hobject.opens
      after := hafter
      worded := hworded.trans hobject.worded
      found := by rw [hoperation]; exact hobject.found }

end Levels

/-! ## Operators -/

/-- The operators that the table finds in the text are words, which may come after the word `not`,
    and give worded expressions. -/
def FindsWords (text : List Char) (operator? : OperatorTable) : Prop :=
  ∀ rest join back, rest <:+ text → operator? rest = some (join, back) →
    (∃ word ∈ ["in", "and", "or"], ∃ front, rest = front ++ (word.toList ++ back) ∧
      Delimited back ∧ (front = [] ∨ ∃ c ∈ front.getLast?, isBlank c = true)) ∧
    ∀ left right, isWorded left = true → isWorded right = true →
      isWorded (join left right) = true

section Operators

variable {text : List Char}

theorem FindsWords.or {first second : OperatorTable} (h₁ : FindsWords text first)
    (h₂ : FindsWords text second) : FindsWords text fun cs => (first cs).or (second cs) := by
  intro rest join back hrest hop
  rcases Option.or_eq_some_iff.1 hop with hop | ⟨-, hop⟩
  · exact h₁ rest join back hrest hop
  · exact h₂ rest join back hrest hop

theorem findsWords_word {w : String} (hw : w ∈ ["in", "and", "or"]) {join : Join}
    (hjoin : ∀ left right, isWorded left = true → isWorded right = true →
      isWorded (join left right) = true) : FindsWords text (word w join) := by
  intro rest join' back _ hop
  obtain ⟨back', hkeyword, heq⟩ := Option.map_eq_some_iff.1 hop
  obtain ⟨rfl, rfl⟩ := Prod.mk.inj heq
  obtain ⟨hrest, hback⟩ := delimited_of_keyword? hkeyword
  exact ⟨⟨w, hw, [], hrest, hback, .inl rfl⟩, hjoin⟩

theorem findsWords_notIn : FindsWords text fun cs =>
    (notIn? cs).map fun rest => (membership true, rest) := by
  intro rest join back _ hop
  obtain ⟨back', hnotIn, heq⟩ := Option.map_eq_some_iff.1 hop
  obtain ⟨rfl, rfl⟩ := Prod.mk.inj heq
  obtain ⟨middle, hnot, hin⟩ := Option.bind_eq_some_iff.1 hnotIn
  obtain ⟨hrest, hmiddle⟩ := delimited_of_keyword? hnot
  obtain ⟨htrim, hback⟩ := delimited_of_keyword? hin
  obtain ⟨blanks, hblanks, hblank⟩ := Text.exists_append_trimStart middle
  rw [htrim] at hblanks
  have hne : blanks ≠ [] := by
    rintro rfl
    rw [hblanks] at hmiddle
    exact not_delimited_word (show "in" ∈ operatorWords by decide) back' hmiddle
  refine ⟨⟨"in", by decide, "not".toList ++ blanks, ?_, hback, .inr ?_⟩, ?_⟩
  · rw [hrest, hblanks, List.append_assoc]
  · exact getLast?_append_blanks _ hne hblank
  · intro left right hleft hright
    rw [isWorded, hleft, hright]
    rfl

variable (hplain : ∀ c ∈ text, c ∉ Reference.operatorChars)
include hplain

theorem findsWords_symbols {ops : List (List Char × BinaryOp)}
    (hops : (ops.all fun op => op.1.head?.any (Reference.operatorChars.contains ·)) = true) :
    FindsWords text (symbols ops) := by
  intro rest join back hrest hop
  exfalso
  obtain ⟨⟨symbol, op⟩, hmem, hop⟩ := List.exists_of_findSome?_eq_some hop
  obtain ⟨back', hdrop, -⟩ := Option.map_eq_some_iff.1 hop
  obtain ⟨c, hc, hsymbol⟩ := (Option.any_eq_true _ _).1 (List.all_eq_true.1 hops _ hmem)
  have hmem : c ∈ rest := by
    rw [Text.eq_append_of_dropPrefix? hdrop]
    exact List.mem_append_left _ (List.mem_of_mem_head? hc)
  exact hplain c (hrest.subset hmem) (List.contains_iff_mem.1 hsymbol)

theorem findsWords_relationOperator? : FindsWords text relationOperator? :=
  ((findsWords_symbols hplain (by decide)).or
    (findsWords_word (by decide) fun _ _ hl hr => by rw [isWorded, hl, hr]; rfl)).or
      findsWords_notIn

theorem findsWords_andOperator? : FindsWords text andOperator? :=
  (findsWords_symbols hplain (by decide)).or
    (findsWords_word (by decide) fun _ _ hl hr => by rw [isWorded, hl, hr]; rfl)

theorem findsWords_orOperator? : FindsWords text orOperator? :=
  (findsWords_symbols hplain (by decide)).or
    (findsWords_word (by decide) fun _ _ hl hr => by rw [isWorded, hl, hr]; rfl)

omit hplain

/-- The induction is on the operators read. The first of them is set off, if any is. -/
theorem chain_words {operator? : OperatorTable} {operand : Reader Expr}
    (hop : FindsWords text operator?) (hoperand : ReadsWords text operand) {fuel : Nat}
    {left e : Expr} {cursor next : Cursor}
    (he : chain operator? operand fuel left cursor = .ok (e, next))
    (hafter : AfterOperand text cursor.rest) (hleft : left.isWorded = true) :
    next.rest <:+ cursor.rest ∧ AfterOperand text next.rest ∧ e.isWorded = true ∧
      (SpacedWords text → e = left ∨ SetOff text) := by
  induction fuel generalizing left cursor with
  | zero => cases he
  | succ fuel ih =>
    have htrim : cursor.skipBlanks.rest <:+ cursor.rest := Text.trimStart_suffix _
    replace hafter : AfterOperand text cursor.skipBlanks.rest := hafter.skipBlanks
    simp only [chain] at he
    split at he
    · obtain ⟨rfl, rfl⟩ := Prod.mk.inj (Except.ok.inj he)
      exact ⟨htrim, hafter, hleft, fun _ => .inl rfl⟩
    · rename_i join back hfound
      obtain ⟨⟨word, hword, front, hrest, hback, hfront⟩, hjoin⟩ :=
        hop _ join back hafter.suffix hfound
      have hsuffix : back <:+ cursor.skipBlanks.rest :=
        ⟨front ++ word.toList, by rw [hrest, List.append_assoc]⟩
      obtain ⟨⟨right, cursor₁⟩, hright, he⟩ := bind_eq_ok.1 he
      obtain ⟨cursor₂, hcount, he⟩ := bind_eq_ok.1 he
      have hat := atWord_of_delimited (hsuffix.trans hafter.suffix) hback
      have hreading := hoperand _ right cursor₁ hat hright
      have hcounted : cursor₂.rest = cursor₁.rest := countOperator_rest hcount
      have hnext := ih he (by rw [hcounted]; exact hreading.after)
        (hjoin left right hleft hreading.worded)
      rw [hcounted] at hnext
      obtain ⟨hleft', hafter', hworded, -⟩ := hnext
      refine ⟨((hleft'.trans hreading.suffix).trans hsuffix).trans htrim, hafter', hworded, ?_⟩
      intro hspaced
      obtain ⟨c, tail, rfl, hblank⟩ := exists_blank_cons hback hreading.opens
      rw [hrest] at hafter
      have hoperators : ∀ w ∈ ["in", "and", "or"], w ∈ operatorWords := by decide
      obtain ⟨rfl, before, htext⟩ :=
        (hafter.passWord hfront).exists_spaced (hoperators word hword) hblank hspaced
      exact .inr (.operator hword ⟨before, tail, by rw [htext]; simp⟩)

theorem operatorLevel_words {operator? : OperatorTable} {operand : Reader Expr}
    (hop : FindsWords text operator?) (hoperand : ReadsWords text operand) :
    ReadsWords text (operatorLevel operator? operand) := by
  intro cursor e next hat he
  obtain ⟨⟨left, cursor'⟩, hleft, he⟩ := bind_eq_ok.1 he
  have hfirst := hoperand cursor left cursor' hat hleft
  obtain ⟨hsuffix, hafter, hworded, hset⟩ := chain_words hop hoperand he hfirst.after hfirst.worded
  refine ⟨hsuffix.trans hfirst.suffix, hfirst.opens, hafter, hworded, fun hspaced => ?_⟩
  rcases hset hspaced with rfl | hset
  · exact hfirst.found hspaced
  · exact .inr (.inl hset)

end Operators

/-! ## Negations and conditionals -/

/-- The words of a conditional, one after the other, each between plain spaces. -/
theorem setOff_of_branches {text before tail before' tail' : List Char}
    (hif : text = before ++ ' ' :: ("if".toList ++ ' ' :: tail))
    (helse : text = before' ++ ' ' :: ("else".toList ++ ' ' :: tail'))
    (hinside : "else".toList ++ ' ' :: tail' <:+ ' ' :: tail) : SetOff text := by
  have hafter : ' ' :: tail <:+ ' ' :: ("if".toList ++ ' ' :: tail) := ⟨[' ', 'i', 'f'], rfl⟩
  have hstart : ' ' :: ("if".toList ++ ' ' :: tail) <:+ text := ⟨before, hif.symm⟩
  have hspace : ' ' :: ("else".toList ++ ' ' :: tail') <:+ ' ' :: tail := by
    have hend : ' ' :: ("else".toList ++ ' ' :: tail') <:+ text := ⟨before', helse.symm⟩
    refine List.suffix_of_suffix_length_le hend (hafter.trans hstart) ?_
    rcases List.suffix_cons_iff.1 hinside with heq | hin
    · -- the word does not start with a space
      exact absurd (List.cons.inj heq).1 (by decide)
    · exact Nat.succ_le_succ hin.length_le
  have hword : " else ".toList <+: ' ' :: ("else".toList ++ ' ' :: tail') := ⟨tail', rfl⟩
  exact .branches hstart ⟨tail, rfl⟩
    ((hword.isInfix.trans hspace.isInfix).trans hafter.isInfix)

/-- What may nest in a text without symbols. -/
structure NestsWords (text : List Char) (inner : Nesting) : Prop where
  conditional : ReadsWords text inner.conditional
  negation : ReadsWords text inner.negation

section Nested

variable {text : List Char} (hplain : ∀ c ∈ text, c ∉ Reference.operatorChars)
  {inner : Nesting} (h : NestsWords text inner)
include hplain h

theorem notLevel_words : ReadsWords text (notLevel inner) := by
  have hproduct : ReadsWords text (productLevel inner) :=
    operatorLevel_words (findsWords_symbols hplain (by decide)) (unaryLevel_words hplain)
  have hsum : ReadsWords text (sumLevel inner) :=
    operatorLevel_words (findsWords_symbols hplain (by decide)) hproduct
  have hrelation : ReadsWords text (relationLevel inner) :=
    operatorLevel_words (findsWords_relationOperator? hplain) hsum
  have hequality : ReadsWords text (equalityLevel inner) :=
    operatorLevel_words (findsWords_symbols hplain (by decide)) hrelation
  intro cursor e next hat he
  refine WordReading.ofTrimmed ?_
  replace hat : AtWord text cursor.skipBlanks.rest := hat.skipBlanks
  have htrim : Text.trimStart cursor.skipBlanks.rest = cursor.skipBlanks.rest :=
    trimStart_trimStart cursor.rest
  show WordReading text cursor.skipBlanks.rest e next.rest
  simp only [notLevel] at he
  generalize cursor.skipBlanks = cursor at hat htrim he ⊢
  split at he
  · rename_i back hnot
    obtain ⟨hrest, hback⟩ := delimited_of_keyword? hnot
    obtain ⟨⟨operand, cursor'⟩, hinner, he⟩ := bind_eq_ok.1 he
    obtain ⟨rfl, rfl⟩ := Prod.mk.inj (Except.ok.inj he)
    have hsuffix : back <:+ cursor.rest := by
      rw [hrest]
      exact List.suffix_append _ back
    have hat' := atWord_of_delimited (hsuffix.trans hat.suffix) hback
    have hoperand := h.negation _ operand cursor' hat' hinner
    obtain ⟨c, tail, rfl, hblank⟩ := exists_blank_cons hback hoperand.opens
    exact {
      suffix := hoperand.suffix.trans hsuffix
      opens := by rw [htrim, hrest]; exact ⟨'n', rfl, by decide⟩
      after := hoperand.after
      worded := hoperand.worded
      found := fun _ => .inr (.inr ⟨c, tail, htrim.trans hrest, hblank⟩) }
  · exact hequality cursor e next hat he

theorem orLevel_words : ReadsWords text (orLevel inner) :=
  operatorLevel_words (findsWords_orOperator? hplain)
    (operatorLevel_words (findsWords_andOperator? hplain) (notLevel_words hplain h))

/-- The words of a conditional stand in order, with its test between them. -/
theorem condition_words {consequent e : Expr} {cursor next : Cursor}
    (he : condition inner consequent cursor = .ok (e, next))
    (hif : AfterOperand text ("if".toList ++ cursor.rest)) (hback : Delimited cursor.rest)
    (hconsequent : consequent.isWorded = true) :
    next.rest <:+ cursor.rest ∧ AfterOperand text next.rest ∧ e.isWorded = true ∧
      (SpacedWords text → SetOff text) := by
  have hsuffix : cursor.rest <:+ text := (List.suffix_append _ _).trans hif.suffix
  obtain ⟨test, cursor₁, back, alternate, htest, hkeyword, halternate, rfl⟩ := condition_ok he
  obtain ⟨hrest, hback'⟩ := delimited_of_keyword? hkeyword
  have htest := orLevel_words hplain h cursor test cursor₁ (atWord_of_delimited hsuffix hback) htest
  have htrim : cursor₁.skipBlanks.rest <:+ cursor₁.rest := Text.trimStart_suffix _
  have helse : AfterOperand text cursor₁.skipBlanks.rest := htest.after.skipBlanks
  rw [hrest] at helse htrim
  have hsuffix' : back <:+ text := (List.suffix_append _ back).trans helse.suffix
  have halternate := h.conditional _ alternate next (atWord_of_delimited hsuffix' hback')
    halternate
  have hinside : "else".toList ++ back <:+ cursor.rest := htrim.trans htest.suffix
  refine ⟨(halternate.suffix.trans (List.suffix_append _ back)).trans hinside, halternate.after,
    ?_, ?_⟩
  · rw [isWorded, htest.worded, hconsequent, halternate.worded]
    rfl
  · intro hspaced
    obtain ⟨c, tail, hcursor, hblank⟩ := exists_blank_cons hback htest.opens
    obtain ⟨d, tail', rfl, hblank'⟩ := exists_blank_cons hback' halternate.opens
    rw [hcursor] at hif hinside
    obtain ⟨rfl, before, htext⟩ := hif.exists_spaced (by decide) hblank hspaced
    obtain ⟨rfl, before', htext'⟩ := helse.exists_spaced (by decide) hblank' hspaced
    exact setOff_of_branches htext htext' hinside

theorem conditionalLevel_words : ReadsWords text (conditionalLevel inner) := by
  intro cursor e next hat he
  obtain ⟨⟨first, cursor₁⟩, hfirst, he⟩ := bind_eq_ok.1 he
  have hfirst := orLevel_words hplain h cursor first cursor₁ hat hfirst
  have htrim : cursor₁.skipBlanks.rest <:+ cursor₁.rest := Text.trimStart_suffix _
  have hafter : AfterOperand text cursor₁.skipBlanks.rest := hfirst.after.skipBlanks
  simp only at he
  split at he
  · -- a question mark is a symbol
    rename_i rest hmark
    have hmem : '?' ∈ cursor₁.skipBlanks.rest := by
      rw [Text.eq_append_of_dropPrefix? hmark]
      simp
    exact absurd (by decide) (hplain '?' (hafter.suffix.subset hmem))
  split at he
  · rename_i rest hkeyword
    obtain ⟨hrest, hback⟩ := delimited_of_keyword? hkeyword
    rw [hrest] at hafter htrim
    obtain ⟨hsuffix, hnext, hworded, hset⟩ :=
      condition_words hplain h he hafter hback hfirst.worded
    refine ⟨?_, hfirst.opens, hnext, hworded, fun hspaced => .inr (.inl (hset hspaced))⟩
    exact ((hsuffix.trans (List.suffix_append _ rest)).trans htrim).trans hfirst.suffix
  · obtain ⟨rfl, rfl⟩ := Prod.mk.inj (Except.ok.inj he)
    exact ⟨htrim.trans hfirst.suffix, hfirst.opens, hafter, hfirst.worded, hfirst.found⟩

end Nested

theorem nestsWords_upTo {text : List Char} (hplain : ∀ c ∈ text, c ∉ Reference.operatorChars)
    (depth : Nat) : NestsWords text (.upTo depth) := by
  induction depth with
  | zero =>
    constructor
    · intro cursor e next _ he
      cases he
    · intro cursor e next _ he
      cases he
  | succ depth ih => exact ⟨conditionalLevel_words hplain ih, notLevel_words hplain ih⟩

/-- A text without symbols that is accepted is made of words, which stand after their operands. -/
theorem wordReading_of_parse {text : List Char} {e : Expr}
    (hplain : ∀ c ∈ text, c ∉ Reference.operatorChars) (h : parse text = .ok e) :
    ∃ left, WordReading text text e left := by
  obtain ⟨cursor, hlevel, -⟩ := parse_ok h
  have hat : AtWord text text := ⟨[], rfl, .inr (by simp [EndsWord])⟩
  exact ⟨cursor.rest,
    conditionalLevel_words hplain (nestsWords_upTo hplain maxNesting) ⟨text, 0⟩ e cursor hat hlevel⟩

end DataBinding.Expr
