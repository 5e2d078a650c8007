import DataBinding.Proofs.Expr.Readable

/-!
# Every node reads back, given that its parts do

There is one lemma for each kind of node: its text is read as its plain form as soon as the texts
of its parts are. The three spellings of a call are told apart by its callee.

Results:
* `readsItems`: the texts of arguments or elements are read in order.
* `readable_literal`, `readable_member`, `readable_call`, `readable_membership`: the nodes whose
  text is not simply made of the texts of their parts.
-/

namespace DataBinding.Expr

open Text (isBlank isDigit digitsOf)

/-! ## Literals and names -/

theorem readable_of_primary {e : Expr} (hp : suffixPrecedence ≤ e.precedence)
    (hs : StartsAt e.precedence e.text)
    (h : ∀ inner rest k, MayFollow e.desugar rest →
      primary inner ⟨e.text ++ rest, k⟩ = .ok (e.desugar, ⟨rest, k + e.desugar.operators⟩)) :
    Readable e :=
  readable_of_suffix hp hs fun d _ =>
    opensSuffix_of_primary fun rest k hf _ => h (.upTo d) rest k hf

theorem readable_of_word {e : Expr} {word : List Char} {c : Char} {cs : List Char}
    (hp : suffixPrecedence ≤ e.precedence) (ht : e.text = word) (hw : word = c :: cs)
    (hc : isNameStart c = true) (hcs : ∀ d ∈ cs, isNameChar d = true)
    (he : wordExpr? (String.ofList word) = some e.desugar) (h0 : e.desugar.operators = 0) :
    Readable e := by
  have hnot : c :: cs ≠ "not".toList := by
    intro h
    have hnone : wordExpr? (String.ofList "not".toList) = none := rfl
    rw [hw, h, hnone] at he
    cases he
  refine readable_of_primary hp ?_ ?_
  · rw [ht, hw]
    refine startsAt_name _ (by simp [isOperandStart, hc]) ?_ hnot
    intro d hd
    rcases List.mem_cons.1 hd with rfl | hd
    · exact isNameChar_of_isNameStart hc
    · exact hcs d hd
  · intro inner rest k hf
    rw [ht, h0]
    exact primary_word inner rest k hw hc hcs he hf.1

theorem readable_undefined : Readable undefined :=
  readable_of_word suffix_le_primary rfl rfl rfl (List.all_eq_true.1 rfl) rfl rfl

theorem readable_ident {name : String} (h : isVariable name = true) : Readable (ident name) := by
  obtain ⟨c, cs, hcs, hc, hn⟩ := exists_cons_of_isVariable h
  have hword : name ∉ reservedWords := by
    simp only [isVariable, Bool.and_eq_true, decide_eq_true_eq] at h
    exact h.1
  have he : wordExpr? (String.ofList name.toList) = some (ident name) := by
    simp only [reservedWords, List.mem_append, List.mem_cons, List.not_mem_nil, not_or] at hword
    simp [wordExpr?, hword]
  exact readable_of_word suffix_le_primary rfl hcs hc
    (fun d hd => hn d (List.mem_cons_of_mem c hd)) he rfl

theorem readable_integer {n : Nat} (h : n ≤ significandBound) :
    Readable (literal (.number (.integer n))) := by
  have ht : (literal (.number (.integer n))).text = digitsOf n := displayText_ofNat h
  have hd : ∀ c ∈ digitsOf n, isDigit c = true := fun c hc => Text.isDigit_of_mem_digitsOf hc
  have hv : digitsLiteral (digitsOf n) = literal (.number (.integer n)) := by
    rw [digitsLiteral, Text.digitsValue_digitsOf, Value.ofNat]
  have hlt : Text.digitsValue (digitsOf n) < signBit := by
    rw [Text.digitsValue_digitsOf]
    exact Nat.lt_of_le_of_lt h (by decide)
  refine readable_of_primary suffix_le_primary ?_ ?_
  · obtain ⟨c, cs, hcs⟩ := List.exists_cons_of_ne_nil (Text.digitsOf_ne_nil n)
    rw [ht, hcs]
    rw [hcs] at hd
    refine startsAt_name _ (by simp [isOperandStart, hd c]) (fun d hm => ?_) ?_
    · exact isNameChar_of_isDigit (hd d hm)
    · intro he
      have := hd c (by simp)
      rw [(List.cons.inj he).1] at this
      exact absurd this (by decide)
  · intro inner rest k hf
    rw [ht, desugar]
    rw [primary_digits inner rest k (Text.digitsOf_ne_nil n) hd hlt hf.1 (hf.2 rfl), hv]
    rfl

theorem readable_literal {v : Value} (h : isLiteral v = true) : Readable (literal v) := by
  cases v with
  | null => exact readable_of_word suffix_le_primary rfl rfl rfl (List.all_eq_true.1 rfl) rfl rfl
  | bool b =>
    cases b <;>
      exact readable_of_word suffix_le_primary rfl rfl rfl (List.all_eq_true.1 rfl) rfl rfl
  | text s =>
    refine readable_of_primary suffix_le_primary ?_ ?_
    · exact startsAt_symbol _ (by decide) (by decide) fun _ => by decide
    · intro inner rest k _
      rw [text_literal_text, primary_quotedText, String.ofList_toList]
      rfl
  | number m =>
    cases m with
    | integer n =>
      obtain ⟨m, rfl, hm⟩ := exists_nat_of_isLiteral h
      exact readable_integer hm
    | float x => simp [isLiteral] at h
  | array items => simp [isLiteral] at h
  | object fields => simp [isLiteral] at h

/-! ## Arguments and elements -/

section Items

variable {close : Char} {d : Nat}

theorem moreItems_blank (inner : Nesting) (close : Char) (fuel : Nat) (cs : List Char) (k : Nat) :
    moreItems (conditionalLevel inner) close fuel ⟨' ' :: cs, k⟩ =
      moreItems (conditionalLevel inner) close fuel ⟨cs, k⟩ ∨ fuel = 0 := by
  cases fuel with
  | zero => exact .inr rfl
  | succ fuel =>
    have h : conditionalLevel inner ⟨' ' :: cs, k⟩ = conditionalLevel inner ⟨cs, k⟩ :=
      levelAt_blank_cons inner 0 cs k
    exact .inl (by simp only [moreItems, h])

/-- The induction is on the items after the first; each turn of the reader takes one of them. -/
theorem moreItems_argsText (hclose : close = ')' ∨ close = ']') :
    ∀ (es : List Expr) (e : Expr) (fuel : Nat), (∀ x ∈ e :: es, Readable x) →
      depthAll (e :: es) ≤ d → es.length < fuel → ∀ rest k,
      k + operatorsAll (desugarAll (e :: es)) ≤ maxOperators →
        moreItems (conditionalLevel (.upTo d)) close fuel
            ⟨argsText (e :: es) ++ close :: rest, k⟩ =
          .ok (desugarAll (e :: es), ⟨rest, k + operatorsAll (desugarAll (e :: es))⟩) := by
  have hb : isBlank close = false := by rcases hclose with rfl | rfl <;> decide
  intro es
  induction es with
  | nil =>
    intro e fuel hr hd hf rest k hk
    obtain ⟨fuel, rfl⟩ : ∃ f, fuel = f + 1 := ⟨fuel - 1, by omega⟩
    simp only [desugarAll, operatorsAll, depthAll] at hd hk ⊢
    have he := (hr e (by simp)).readsAt_zero (d := d) (by omega) (close :: rest) k
      (.close rest (by rcases hclose with rfl | rfl <;> simp)) (by omega)
    rw [trimStart_cons rest hb] at he
    have he : conditionalLevel (.upTo d) ⟨e.text ++ close :: rest, k⟩ = _ := he
    have hcomma : Text.dropPrefix? [','] (close :: rest) = none := by
      rcases hclose with rfl | rfl <;> rfl
    simp only [argsText, moreItems, he, ok_bind, skipBlanks_cons rest _ hb, hcomma, expect,
      Text.dropPrefix?, if_true, Nat.add_zero]
  | cons e' es ih =>
    intro e fuel hr hd hf rest k hk
    rw [List.length_cons] at hf
    obtain ⟨fuel, rfl⟩ : ∃ f, fuel = f + 1 := ⟨fuel - 1, by omega⟩
    rw [desugarAll, operatorsAll] at hk ⊢
    rw [depthAll] at hd
    have hrest : argsText (e :: e' :: es) ++ close :: rest =
        e.text ++ ',' :: ' ' :: (argsText (e' :: es) ++ close :: rest) := by
      simp [argsText]
    have he := (hr e (by simp)).readsAt_zero (d := d) (by omega)
      (',' :: ' ' :: (argsText (e' :: es) ++ close :: rest)) k (.close _ (by simp)) (by omega)
    rw [trimStart_cons _ (by decide)] at he
    have he : conditionalLevel (.upTo d) ⟨e.text ++ _, k⟩ = _ := he
    have hmore := ih e' fuel (fun x hx => hr x (List.mem_cons_of_mem _ hx)) (by omega) (by omega)
      rest (k + e.desugar.operators) (by omega)
    have hblank := (moreItems_blank (.upTo d) close fuel (argsText (e' :: es) ++ close :: rest)
      (k + e.desugar.operators)).resolve_right (by omega)
    rw [hrest]
    simp only [moreItems, he, ok_bind, skipBlanks_cons _ _ (show isBlank ',' = false by decide),
      Text.dropPrefix?, if_true, hblank, hmore, Nat.add_assoc]

theorem length_le_argsText (es : List Expr) (e : Expr) :
    es.length ≤ (argsText (e :: es)).length := by
  induction es generalizing e with
  | nil => simp
  | cons e' es ih =>
    have h := ih e'
    simp only [argsText, List.length_append, List.length_cons] at h ⊢
    omega

theorem front_argsText {e : Expr} (he : Readable e) (es : List Expr) :
    ∃ c cs, argsText (e :: es) = c :: cs ∧ isFront c = true := by
  obtain ⟨c, cs, ht, hc⟩ := he.starts.front
  cases es with
  | nil => exact ⟨c, cs, ht, hc⟩
  | cons e' es => exact ⟨c, cs ++ ',' :: ' ' :: argsText (e' :: es), by simp [argsText, ht], hc⟩

theorem readsItems (hclose : close = ')' ∨ close = ']') {es : List Expr}
    (hr : ∀ x ∈ es, Readable x) (hd : depthAll es ≤ d) :
    ReadsItems (.upTo d) close (argsText es) (desugarAll es) := by
  have hb : isBlank close = false := by rcases hclose with rfl | rfl <;> decide
  intro rest k hk
  cases es with
  | nil =>
    simp only [argsText, List.nil_append, itemList, skipBlanks_cons rest k hb, Text.dropPrefix?,
      if_true, desugarAll, operatorsAll, Nat.add_zero]
  | cons e es =>
    obtain ⟨c, cs, ht, hc⟩ := front_argsText (hr e (by simp)) es
    have hne : c ≠ close := ne_of_isFront hc (by rcases hclose with rfl | rfl <;> decide)
    have hlen := length_le_argsText es e
    have hmore := moreItems_argsText hclose es e ((argsText (e :: es) ++ close :: rest).length + 1)
      hr hd (by rw [List.length_append]; omega) rest k hk
    rw [ht, List.cons_append] at hmore ⊢
    simp only [itemList, skipBlanks_cons _ k (isBlank_of_isFront hc), Text.dropPrefix?, hne.symm,
      if_false]
    exact hmore

end Items

/-! ## Brackets and suffixes -/

/-- Where something nests, one level of nesting is left for it. -/
theorem exists_upTo_deeper {n d : Nat} (h : n + 1 ≤ d) :
    ∃ d', n ≤ d' ∧ Nesting.upTo d = (Nesting.upTo d').deeper := by
  obtain ⟨d', rfl⟩ : ∃ d', d = d' + 1 := ⟨d - 1, by omega⟩
  exact ⟨d', by omega, rfl⟩

theorem readable_array {items : List Expr} (h : ∀ x ∈ items, Readable x) :
    Readable (array items) := by
  refine readable_of_suffix suffix_le_primary ?_ ?_
  · exact startsAt_symbol _ (by decide) (by decide) fun _ => by decide
  · intro d hd
    rw [depth] at hd
    obtain ⟨d', hd', hdeeper⟩ := exists_upTo_deeper hd
    rw [hdeeper]
    exact (readsItems (.inr rfl) h hd').array

theorem readsAt_digits {digits : List Char} (inner : Nesting) (hne : digits ≠ [])
    (hd : ∀ c ∈ digits, isDigit c = true) (hlt : Text.digitsValue digits < signBit) :
    ReadsAt inner 0 digits (digitsLiteral digits) := by
  obtain ⟨c, cs, hcs⟩ := List.exists_cons_of_ne_nil hne
  have hc : isDigit c = true := hd c (by simp [hcs])
  have hs : StartsAt suffixPrecedence digits := by
    rw [hcs] at hd ⊢
    refine startsAt_name _ (by simp [isOperandStart, hc])
      (fun x hx => isNameChar_of_isDigit (hd x hx)) ?_
    rintro h
    rw [(List.cons.inj h).1] at hc
    exact absurd hc (by decide)
  have hsuffix : OpensSuffix inner digits (digitsLiteral digits) :=
    opensSuffix_of_primary fun rest k hf _ => primary_digits inner rest k hne hd hlt hf.1 (hf.2 rfl)
  have h8 := hsuffix.readsAt.eight hcs (by simp [isOperandStart, hc])
  exact (h8.descend hs.toLeads (Nat.le_refl 2) (by decide) (Nat.le_refl 8)).zero

theorem readable_member {object : Expr} {property : String} (h : Readable object)
    (hp : isProperty object property = true) : Readable (member object property) := by
  refine readable_of_suffix (Nat.le_refl suffixPrecedence) ?_ ?_
  · rw [text]
    refine (h.starts.enclose suffixPrecedence).append ?_
    rw [propertyText]
    split <;> exact delimited_cons _ (by decide)
  · intro d hd
    have hp' : isProperty object.desugar property = true := by
      simpa only [isProperty, isNumber_desugar] using hp
    rw [depth] at hd
    rw [text, propertyText, desugar, plainMember]
    split
    · rename_i hdigits
      rw [if_pos hdigits] at hd
      obtain ⟨d', -, hdeeper⟩ := exists_upTo_deeper (n := 0) (show 0 + 1 ≤ d by omega)
      simp only [isProperty, hdigits, if_true, Bool.and_eq_true, Bool.not_eq_true',
        List.isEmpty_eq_false_iff, decide_eq_true_eq] at hp
      have hkey := readsAt_digits (.upTo d') hp.1.1 (List.all_eq_true.1 hdigits) hp.2
      have hobject := h.enclosed_suffix (d := d) (by omega)
      rw [hdeeper] at hobject ⊢
      simpa using hobject.index hkey
    · rename_i hdigits
      exact (h.enclosed_suffix (by omega)).member hp' (Bool.eq_false_iff.2 hdigits)

theorem readable_index {object key : Expr} (ho : Readable object) (hk : Readable key) :
    Readable (index object key) := by
  refine readable_of_suffix (Nat.le_refl suffixPrecedence) ?_ ?_
  · rw [text, List.append_assoc]
    exact (ho.starts.enclose suffixPrecedence).append (delimited_cons _ (by decide))
  · intro d hd
    rw [depth] at hd
    obtain ⟨d', hd', hdeeper⟩ := exists_upTo_deeper (n := key.depth) (d := d) (by omega)
    have hobject := ho.enclosed_suffix (d := d) (by omega)
    rw [hdeeper] at hobject ⊢
    exact hobject.index (hk.readsAt_zero hd')

/-! ## Calls -/

theorem callText_length (t a : List Char) :
    callText (ident "len") t 1 a = '(' :: a ++ [')'] ++ '.' :: "length".toList := by
  simp [callText.eq_def]

theorem callText_string (t a : List Char) (count : Nat) :
    callText (ident "str") t count a = "String".toList ++ ('(' :: a ++ [')']) := by
  simp only [callText.eq_def]
  simp

/-- The spellings of a call. -/
inductive CallForm : Expr → List Expr → Prop
  | length (e : Expr) : CallForm (ident "len") [e]
  | string (args : List Expr) : CallForm (ident "str") args
  | other {callee : Expr} {args : List Expr}
      (ht : ∀ t a, callText callee t args.length a =
        enclose suffixPrecedence callee t ++ '(' :: a ++ [')'])
      (hp : ∀ plain as, as.length = args.length → plainCall callee plain as = call plain as) :
      CallForm callee args

theorem callForm_len {args : List Expr} (h : args.length ≠ 1) : CallForm (ident "len") args := by
  refine .other (fun t a => ?_) (fun plain as hl => ?_)
  · have henclose : enclose suffixPrecedence (ident "len") t = t := rfl
    simp only [callText.eq_def, if_neg h, henclose]
  · match as with
    | [] => rfl
    | [_] => exact absurd hl.symm h
    | _ :: _ :: _ => rfl

theorem callForm_other {callee : Expr} (hlen : callee ≠ ident "len") (hstr : callee ≠ ident "str")
    (args : List Expr) : CallForm callee args := by
  refine .other (fun t a => ?_) (fun plain as _ => ?_)
  · rw [callText.eq_def]
    split
    · exact absurd rfl hlen
    · exact absurd rfl hstr
    · rfl
  · exact plainCall.eq_3 callee plain as hstr (fun _ h _ => hlen h)

theorem callForm (callee : Expr) (args : List Expr) : CallForm callee args := by
  by_cases hlen : callee = ident "len"
  · subst hlen
    match args with
    | [e] => exact .length e
    | [] => exact callForm_len (by simp)
    | _ :: _ :: _ => exact callForm_len (by simp)
  by_cases hstr : callee = ident "str"
  · subst hstr
    exact .string args
  · exact callForm_other hlen hstr args

/-- A call with its callee in front and its arguments in parentheses. -/
theorem OpensSuffix.arguments {callee : List Char} {plain : Expr} {args : List Expr} {d : Nat}
    (hc : OpensSuffix (.upTo d) callee plain) (ha : ∀ x ∈ args, Readable x)
    (hd : depthAll args + 1 ≤ d) :
    OpensSuffix (.upTo d) (callee ++ '(' :: argsText args ++ [')'])
      (Expr.call plain (desugarAll args)) := by
  obtain ⟨d', hd', hdeeper⟩ := exists_upTo_deeper hd
  rw [hdeeper] at hc ⊢
  exact hc.call (readsItems (.inl rfl) ha hd')

theorem isProperty_name (object : Expr) {property : String} {c : Char} {cs : List Char}
    (hp : property.toList = c :: cs) (hc : isDigit c = false)
    (hn : ∀ d ∈ c :: cs, isNameChar d = true) : isProperty object property = true := by
  have hall : (c :: cs).all isNameChar = true := List.all_eq_true.2 hn
  simp [isProperty, hp, hc, hall]

theorem readable_call {callee : Expr} {args : List Expr} (hc : Readable callee)
    (ha : ∀ x ∈ args, Readable x) : Readable (call callee args) := by
  refine readable_of_suffix (Nat.le_refl suffixPrecedence) ?_ ?_
  · rw [text]
    cases callForm callee args with
    | length e => exact startsAt_parenthesis _ _
    | string args =>
      have hs : StartsAt suffixPrecedence "String".toList :=
        startsAt_name _ rfl (List.all_eq_true.1 rfl) (by decide)
      rw [callText_string]
      exact hs.append (delimited_cons _ (by decide))
    | other ht hp =>
      rw [ht, List.append_assoc]
      exact (hc.starts.enclose suffixPrecedence).append (delimited_cons _ (by decide))
  · intro d hd
    rw [depth] at hd
    rw [text, desugar]
    cases callForm callee args with
    | length e =>
      simp only [depthAll] at hd
      have hlength : isProperty e.desugar "length" = true :=
        isProperty_name _ rfl rfl (List.all_eq_true.1 rfl)
      rw [List.length_singleton, callText_length]
      exact ((ha e (by simp)).parenthesized (by omega)).member hlength (by decide)
    | string args =>
      have hv : isVariable "String" = true := by decide
      have hs : OpensSuffix (.upTo d) "String".toList (ident "String") :=
        ((readable_ident hv).own d (Nat.zero_le d)).suffix (by decide)
      rw [callText_string, ← List.append_assoc]
      exact hs.arguments ha (by omega)
    | other ht hp =>
      rw [ht, hp _ _ (length_desugarAll args)]
      exact (hc.enclosed_suffix (d := d) (by omega)).arguments ha (by omega)

/-! ## Operators -/

theorem readable_unary (op : UnaryOp) {operand : Expr} (h : Readable operand) :
    Readable (unary op operand) where
  starts := startsAt_symbol _ (by cases op <;> decide) (by cases op <;> decide)
    fun h9 => absurd h9 (Nat.not_le_of_lt unary_lt_suffix)
  own d hd := by
    rw [depth] at hd
    obtain ⟨d', hd', hdeeper⟩ := exists_upTo_deeper hd
    refine ⟨fun h9 => absurd h9 (Nat.not_le_of_lt unary_lt_suffix), fun _ => ?_,
      fun h7 => absurd h7 (Nat.lt_irrefl unaryPrecedence)⟩
    rw [hdeeper]
    exact (h.enclosed hd' (by decide) (Nat.le_refl _)).unary op

theorem precedence_le_seven (op : BinaryOp) : 2 ≤ op.precedence ∧ op.precedence ≤ 7 := by
  cases op <;> decide

theorem readable_binary (op : BinaryOp) {left right : Expr} (hl : Readable left)
    (hr : Readable right) : Readable (binary op left right) where
  starts := by
    rw [text, precedence, List.append_assoc]
    exact (hl.starts.enclose op.precedence).append (delimited_cons _ (by decide))
  own d hd := by
    obtain ⟨h2, h7⟩ := precedence_le_seven op
    rw [depth] at hd
    refine ⟨fun h9 => absurd h9 (by simp only [precedence, suffixPrecedence]; omega),
      fun h8 => absurd h8 (by simp only [precedence, unaryPrecedence]; omega), fun _ => ?_⟩
    exact (hl.enclosed_opens (by omega) h2 (by simp only [unaryPrecedence]; omega)).binary
      (hr.enclosed (by omega) (by omega) (by simp only [unaryPrecedence]; omega))

/-- Membership as a call of `includes`. -/
theorem opensSuffix_includes {needle haystack : Expr} (hn : Readable needle)
    (hh : Readable haystack) {d : Nat} (hd : max haystack.depth needle.depth + 1 ≤ d) :
    OpensSuffix (.upTo d) ('(' :: haystack.text ++ includesText ++ needle.text ++ [')'])
      (.call (.member haystack.desugar "includes") [needle.desugar]) := by
  have hincludes : isProperty haystack.desugar "includes" = true :=
    isProperty_name _ rfl rfl (List.all_eq_true.1 rfl)
  have hcallee := (hh.parenthesized (d := d) (by omega)).member hincludes (by decide)
  have hone : ∀ x ∈ [needle], Readable x := by simpa using hn
  have hcall := hcallee.arguments hone (by simp only [depthAll]; omega)
  have ht : '(' :: haystack.text ++ includesText ++ needle.text ++ [')'] =
      '(' :: haystack.text ++ [')'] ++ '.' :: "includes".toList ++
        '(' :: argsText [needle] ++ [')'] := by
    have hargs : argsText [needle] = needle.text := rfl
    have hincludes : includesText = [')', '.'] ++ "includes".toList ++ ['('] := by decide
    rw [hargs, hincludes]
    simp
  rw [ht]
  exact hcall

theorem readable_membership (negated : Bool) {needle haystack : Expr} (hn : Readable needle)
    (hh : Readable haystack) : Readable (membership negated needle haystack) := by
  cases negated with
  | false =>
    refine readable_of_suffix (Nat.le_refl suffixPrecedence) (startsAt_parenthesis _ _)
      fun d hd => ?_
    rw [depth] at hd
    exact opensSuffix_includes hn hh hd
  | true =>
    refine ⟨startsAt_symbol _ (by decide) (by decide)
      fun h9 => absurd h9 (Nat.not_le_of_lt unary_lt_suffix),
      fun d hd => ⟨fun h9 => absurd h9 (Nat.not_le_of_lt unary_lt_suffix), fun _ => ?_,
        fun h7 => absurd h7 (Nat.lt_irrefl unaryPrecedence)⟩⟩
    rw [depth] at hd
    obtain ⟨d', hd', hdeeper⟩ := exists_upTo_deeper (n := max haystack.depth needle.depth + 1) hd
    have hcall := (opensSuffix_includes hn hh hd').readsAt.eight rfl (by decide)
    rw [hdeeper]
    exact hcall.unary .not

theorem readable_conditional {test consequent alternate : Expr} (ht : Readable test)
    (hc : Readable consequent) (ha : Readable alternate) :
    Readable (conditional test consequent alternate) := by
  refine readable_of_suffix suffix_le_primary
    (startsAt_parenthesis _ _) fun d hd => ?_
  rw [depth] at hd
  obtain ⟨d', hd', hdeeper⟩ := exists_upTo_deeper hd
  obtain ⟨d'', hd'', hdeeper'⟩ :=
    exists_upTo_deeper (n := max consequent.depth alternate.depth) (d := d') (by omega)
  have htest := ht.enclosed (p := BinaryOp.or.precedence) (d := d') (by omega) (by decide)
    (by decide)
  rw [hdeeper'] at htest
  have hall := htest.conditional (hc.readsAt_zero (d := d'') (by omega))
    (ha.readsAt_zero (d := d'') (by omega))
  rw [← hdeeper'] at hall
  rw [hdeeper, text, desugar]
  exact hall.parenthesis

end DataBinding.Expr
