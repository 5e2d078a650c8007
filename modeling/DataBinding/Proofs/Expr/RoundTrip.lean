import DataBinding.Proofs.Expr.Nodes

/-!
# What is printed is read back

The text of an expression that can be written is read as the plain form of the expression. Only
the two limits of the reader have to be kept: on the depth of nesting and on the number of
operators.

Results:
* `readable`: every expression that can be written is readable.
* `ReadsAt.parse`, `parse_text`: its text is parsed as its plain form, within the limits.
* `Closed.trim_eq`, `trim_text`: its text neither starts nor ends with a blank.
* `parse_text_of_height`: the limit on nesting is kept by every tree that is not too high.
-/

namespace DataBinding.Expr

open Text (isBlank)

mutual

theorem readable : ∀ e : Expr, e.wellFormed = true → Readable e
  | literal v, h => readable_literal (by simpa [wellFormed] using h)
  | undefined, _ => readable_undefined
  | array items, h => readable_array (readableAll items (by simpa [wellFormed] using h))
  | ident name, h => readable_ident (by simpa [wellFormed] using h)
  | member object property, h => by
    simp only [wellFormed, Bool.and_eq_true] at h
    exact readable_member (readable object h.1) h.2
  | index object key, h => by
    simp only [wellFormed, Bool.and_eq_true] at h
    exact readable_index (readable object h.1) (readable key h.2)
  | call callee args, h => by
    simp only [wellFormed, Bool.and_eq_true] at h
    exact readable_call (readable callee h.1) (readableAll args h.2)
  | unary op operand, h => readable_unary op (readable operand (by simpa [wellFormed] using h))
  | binary op left right, h => by
    simp only [wellFormed, Bool.and_eq_true] at h
    exact readable_binary op (readable left h.1) (readable right h.2)
  | membership negated needle haystack, h => by
    simp only [wellFormed, Bool.and_eq_true] at h
    exact readable_membership negated (readable needle h.1) (readable haystack h.2)
  | conditional test consequent alternate, h => by
    simp only [wellFormed, Bool.and_eq_true] at h
    exact readable_conditional (readable test h.1.1) (readable consequent h.1.2)
      (readable alternate h.2)

theorem readableAll : ∀ es : List Expr, wellFormedAll es = true → ∀ x ∈ es, Readable x
  | [], _ => by simp
  | e :: rest, h => by
    simp only [wellFormedAll, Bool.and_eq_true] at h
    intro x hx
    rcases List.mem_cons.1 hx with hx | hx
    · rw [hx]
      exact readable e h.1
    · exact readableAll rest h.2 x hx

end

/-- What is read in the loosest place, with the nesting allowed, is parsed. -/
theorem ReadsAt.parse {text : List Char} {e : Expr} (h : ReadsAt (.upTo maxNesting) 0 text e)
    (ho : e.operators ≤ maxOperators) : parse text = .ok e := by
  have hread : conditionalLevel (.upTo maxNesting) ⟨text ++ [], 0⟩ =
      .ok (e, ⟨Text.trimStart [], 0 + e.operators⟩) := h [] 0 .done (by omega)
  rw [List.append_nil] at hread
  have htext : parseText text = .ok e := by
    rw [parseText, hread]
    rfl
  rw [Expr.parse, htext]

/-- The text is parsed as the plain form, if the reader may nest so deep and count so far. -/
theorem parse_text {e : Expr} (h : e.wellFormed = true) (hd : e.depth ≤ maxNesting)
    (ho : e.desugar.operators ≤ maxOperators) : parse e.text = .ok e.desugar :=
  ((readable e h).readsAt_zero hd).parse ho

theorem depth_le_maxNesting {e : Expr} (h : 3 * e.height < maxNesting) : e.depth ≤ maxNesting := by
  have hle := depth_le_height e
  omega

/-- A tree lower than a third of the depth of nesting keeps the limit on nesting, whatever brackets
    its text needs. -/
theorem parse_text_of_height {e : Expr} (h : e.wellFormed = true) (hh : 3 * e.height < maxNesting)
    (ho : e.desugar.operators ≤ maxOperators) : parse e.text = .ok e.desugar :=
  parse_text h (depth_le_maxNesting hh) ho

/-- A tree with all the texts that differ from their nodes. -/
theorem parse_text_branches :
    parse "(!(xs[10].f).includes((a).length) ? a - (b - c) : String(-(x * y), 'it\\'s'))".toList =
      .ok (conditional
        (unary .not
          (.call (.member (.member (.index (ident "xs") (digitsLiteral ['1', '0'])) "f")
            "includes") [.member (ident "a") "length"]))
        (binary .sub (ident "a") (binary .sub (ident "b") (ident "c")))
        (.call (ident "String")
          [unary .neg (binary .mul (ident "x") (ident "y")), literal (.text "it's")])) :=
  parse_text_of_height (e := conditional
    (membership true (.call (ident "len") [ident "a"])
      (.member (.member (ident "xs") "10") "f"))
    (binary .sub (ident "a") (binary .sub (ident "b") (ident "c")))
    (.call (ident "str")
      [unary .neg (binary .mul (ident "x") (ident "y")), literal (.text "it's")]))
    (by decide) (by decide) (by decide)

/-! ## Blanks around a text -/

/-- The last character is no blank. -/
def Closed (text : List Char) : Prop := ∃ cs c, text = cs ++ [c] ∧ isBlank c = false

theorem Closed.append {text : List Char} (h : Closed text) (front : List Char) :
    Closed (front ++ text) := by
  obtain ⟨cs, c, rfl, hc⟩ := h
  exact ⟨front ++ cs, c, by simp, hc⟩

theorem closed_concat (front : List Char) {c : Char} (h : isBlank c = false) :
    Closed (front ++ [c]) := ⟨front, c, rfl, h⟩

theorem Closed.cons {text : List Char} (h : Closed text) (c : Char) : Closed (c :: text) :=
  h.append [c]

theorem Closed.enclose {e : Expr} {text : List Char} (h : Closed text) (p : Nat) :
    Closed (enclose p e text) := by
  rw [Expr.enclose]
  split
  · exact closed_concat _ (by decide)
  · exact h

theorem closed_name {name : List Char} (hne : name ≠ [])
    (h : ∀ c ∈ name, isNameChar c = true) : Closed name := by
  refine ⟨name.dropLast, name.getLast hne, (List.dropLast_concat_getLast hne).symm, ?_⟩
  exact isBlank_of_isNameChar (h _ (List.getLast_mem hne))

theorem closed_literal {v : Value} (h : isLiteral v = true) : Closed (literal v).text := by
  cases v with
  | null => exact closed_name (by decide) (List.all_eq_true.1 rfl)
  | bool b => cases b <;> exact closed_name (by decide) (List.all_eq_true.1 rfl)
  | text s =>
    rw [text_literal_text]
    exact closed_concat _ (by decide)
  | number m =>
    cases m with
    | integer n =>
      obtain ⟨m, rfl, hm⟩ := exists_nat_of_isLiteral h
      have ht : (literal (.number (.integer m))).text = Text.digitsOf m := displayText_ofNat hm
      rw [ht]
      exact closed_name (Text.digitsOf_ne_nil m)
        fun c hc => isNameChar_of_isDigit (Text.isDigit_of_mem_digitsOf hc)
    | float x => simp [isLiteral] at h
  | array items => simp [isLiteral] at h
  | object fields => simp [isLiteral] at h

theorem closed_ident {name : String} (h : isVariable name = true) : Closed name.toList := by
  obtain ⟨c, cs, hcs, -, hn⟩ := exists_cons_of_isVariable h
  rw [hcs]
  exact closed_name (by simp) hn

/-- Only operands that a text ends with are looked at: every other text ends with a bracket, a
    quote or a name. -/
theorem closed_text : ∀ e : Expr, e.wellFormed = true → Closed e.text
  | literal v, h => closed_literal (by simpa [wellFormed] using h)
  | undefined, _ => closed_name (by decide) (List.all_eq_true.1 rfl)
  | array items, _ => closed_concat _ (by decide)
  | ident name, h => closed_ident (by simpa [wellFormed] using h)
  | member object property, h => by
    simp only [wellFormed, isProperty, Bool.and_eq_true, Bool.not_eq_true',
      List.isEmpty_eq_false_iff, List.all_eq_true] at h
    obtain ⟨-, ⟨hne, hname⟩, -⟩ := h
    rw [text, propertyText]
    split
    · exact (closed_concat ('[' :: property.toList) (by decide)).append _
    · exact ((closed_name hne hname).cons '.').append _
  | index object key, _ => closed_concat _ (by decide)
  | call callee args, _ => by
    rw [text]
    cases callForm callee args with
    | length e =>
      rw [List.length_singleton, callText_length]
      have hlength : Closed "length".toList := closed_name (by decide) (List.all_eq_true.1 rfl)
      exact (hlength.cons '.').append _
    | string args =>
      rw [callText_string]
      exact (closed_concat ('(' :: argsText args) (by decide)).append _
    | other ht _ =>
      rw [ht]
      exact closed_concat _ (by decide)
  | unary op operand, h => by
    have ho := closed_text operand (by simpa [wellFormed] using h)
    exact (ho.enclose unaryPrecedence).cons op.symbol
  | binary op left right, h => by
    simp only [wellFormed, Bool.and_eq_true] at h
    have hr := closed_text right h.2
    exact ((hr.enclose (op.precedence + 1)).cons ' ').append _
  | membership negated needle haystack, _ => by
    rw [text]
    exact closed_concat _ (by decide)
  | conditional test consequent alternate, _ => closed_concat _ (by decide)

/-- Nothing is trimmed from a text that neither starts nor ends with a blank. -/
theorem Closed.trim_eq {text : List Char} (hback : Closed text)
    (hfront : ∃ c cs, text = c :: cs ∧ isFront c = true) : Text.trim text = text := by
  obtain ⟨c, cs, hfront, hc⟩ := hfront
  obtain ⟨ds, d, hback, hd⟩ := hback
  refine Text.trim_of_ends (fun first hfirst => ?_) fun last hlast => ?_
  · rw [hfront] at hfirst
    obtain rfl := Option.some.inj hfirst
    exact isBlank_of_isFront hc
  · rw [hback, List.getLast?_concat] at hlast
    obtain rfl := Option.some.inj hlast
    exact hd

theorem trim_text {e : Expr} (h : e.wellFormed = true) : Text.trim e.text = e.text :=
  (closed_text e h).trim_eq (readable e h).starts.front

end DataBinding.Expr
