import DataBinding.Proofs.Expr.Worded
import DataBinding.Reference.Basic

/-!
# References that are expressions

A reference is told to be an expression by its characters and words, before it is parsed. Whatever
needs a symbol is recognised by it. An expression in words alone is recognised if its operator words
stand between plain spaces; the parser also accepts other blanks there, and a number that runs into
the word.

Results:
* `looksLikeExpression_iff`: what the recogniser looks for.
* `looksLikeExpression_of_parse`: an expression with an operation in it is recognised, unless other
  blanks or numbers touch its words.
-/

namespace DataBinding.Reference

theorem hasBranches_iff {cs : List Char} : hasBranches cs = true ↔
    ∃ rest, rest <:+ cs ∧ " if ".toList <+: rest ∧ " else ".toList <:+: rest := by
  unfold hasBranches
  constructor
  · intro h
    cases hfound : Text.findFrom? " if ".toList cs with
    | none =>
      rw [hfound] at h
      cases h
    | some found =>
      rw [hfound] at h
      obtain ⟨hsuffix, hif⟩ := Text.suffix_of_findFrom? hfound
      exact ⟨found, hsuffix, hif, Text.occursIn_iff.1 h⟩
  · rintro ⟨rest, hsuffix, hif, helse⟩
    obtain ⟨found, hfound, hrest⟩ := Text.suffix_findFrom?_of_suffix hsuffix hif
    rw [hfound]
    exact Text.occursIn_iff.2 (helse.trans hrest.isInfix)

/-- A marker is a call, which has a parenthesis, or an operator word between spaces. -/
theorem exists_marker_iff {cs : List Char} (hplain : ∀ c ∈ cs, c ∉ operatorChars) :
    markers.any (Text.occursIn · cs) = true ↔
      ∃ word ∈ ["in", "and", "or"], ' ' :: (word.toList ++ [' ']) <:+: cs := by
  have hcall : ∀ name : List Char, ¬name ++ ['('] <:+: cs :=
    fun name h => hplain '(' (h.subset (by simp)) (by decide)
  have hstr := hcall "str".toList
  have hlen := hcall "len".toList
  simp only [List.any_eq_true, markers, List.map_cons, List.map_nil, List.mem_cons,
    List.not_mem_nil, or_false, exists_eq_or_imp, exists_eq_left, Text.occursIn_iff]
  constructor
  · rintro (h | h | h)
    · exact absurd h hstr
    · exact absurd h hlen
    · exact h
  · exact fun h => .inr (.inr h)

/-- The recogniser looks for a symbol, for operator words between plain spaces, or for a leading
    `not` with a plain space. -/
theorem looksLikeExpression_iff {cs : List Char} : looksLikeExpression cs = true ↔
    (∃ c ∈ cs, c ∈ operatorChars) ∨ Expr.SetOff cs ∨ "not ".toList <+: cs := by
  have hsymbols : cs.any (operatorChars.contains ·) = true ↔ ∃ c ∈ cs, c ∈ operatorChars := by
    simp
  by_cases hplain : ∃ c ∈ cs, c ∈ operatorChars
  · simp [looksLikeExpression, hplain]
  · have hnone : ∀ c ∈ cs, c ∉ operatorChars := fun c hc hop => hplain ⟨c, hc, hop⟩
    have hmarkers := exists_marker_iff hnone
    simp only [looksLikeExpression, Bool.or_eq_true, hsymbols, hplain, hmarkers, hasBranches_iff,
      Text.startsWith_iff, or_false, false_or]
    constructor
    · rintro ((⟨word, hword, h⟩ | hnot) | ⟨rest, hrest, hif, helse⟩)
      · exact .inl (.operator hword h)
      · exact .inr hnot
      · exact .inl (.branches hrest hif helse)
    · rintro ((⟨hword, h⟩ | ⟨hrest, hif, helse⟩) | hnot)
      · exact .inl (.inl ⟨_, hword, h⟩)
      · exact .inr ⟨_, hrest, hif, helse⟩
      · exact .inl (.inr hnot)

/-- The blank after a leading `not` is a plain space like the others. -/
theorem not_prefix_of_startsNot {cs : List Char} (htrim : Text.trim cs = cs)
    (hspaced : Expr.SpacedWords cs) (h : Expr.StartsNot cs) : "not ".toList <+: cs := by
  obtain ⟨c, back, hcs, hblank⟩ := h
  rw [Text.trimStart_of_trim htrim] at hcs
  have hback : Expr.Delimited (c :: back) :=
    Expr.delimited_cons back (isNameChar_of_isBlank hblank)
  obtain ⟨-, -, hright⟩ := hspaced "not" (by decide) [] [] (c :: back) hcs (by simp)
    (by simp [Expr.EndsWord]) hback
  have hspace : c = ' ' := hright c rfl hblank
  exact ⟨back, by rw [hcs, hspace]; rfl⟩

/-- Trimmed text that is an expression with an operation, a call, an index, an array or a text in it
    is recognised. Where words are all that shows it, they must stand between plain spaces. -/
theorem looksLikeExpression_of_parse {cs : List Char} {e : Expr} (htrim : Text.trim cs = cs)
    (h : Expr.parse cs = .ok e) (hop : e.hasOperation = true)
    (hspelled : e.isWorded = false ∨ Expr.SpacedWords cs) : looksLikeExpression cs = true := by
  rw [looksLikeExpression_iff]
  by_cases hplain : ∃ c ∈ cs, c ∈ operatorChars
  · exact .inl hplain
  · obtain ⟨left, hreading⟩ :=
      Expr.wordReading_of_parse (fun c hc hopchar => hplain ⟨c, hc, hopchar⟩) h
    have hspaced : Expr.SpacedWords cs := by
      refine hspelled.resolve_left ?_
      rw [hreading.worded]
      decide
    rcases hreading.found hspaced with hno | hset | hnot
    · rw [hop] at hno
      cases hno
    · exact .inr (.inl hset)
    · exact .inr (.inr (not_prefix_of_startsNot htrim hspaced hnot))

/-- A line break in the place of a space is read the same, and not recognised. -/
theorem looksLikeExpression_spaces_not_newline :
    Expr.parse "a and b".toList = .ok (.binary .and (.ident "a") (.ident "b")) ∧
      looksLikeExpression "a and b".toList = true ∧
      Expr.parse "a\nand b".toList = .ok (.binary .and (.ident "a") (.ident "b")) ∧
      looksLikeExpression "a\nand b".toList = false := by
  have hparse : Expr.parse "a and b".toList = .ok (.binary .and (.ident "a") (.ident "b")) := by
    rfl
  have hspaced : Expr.SpacedWords "a and b".toList :=
    Expr.spacedWords_of_plainlySpaced (by decide)
  refine ⟨hparse, ?_, by rfl, by decide⟩
  exact looksLikeExpression_of_parse (by decide) hparse (by decide) (.inr hspaced)

end DataBinding.Reference
