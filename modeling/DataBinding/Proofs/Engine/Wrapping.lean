import DataBinding.Engine.Resolve
import DataBinding.Proofs.Reference.Splitting

/-!
# Wrapped references

A reference without a `}` in it means the same bare and wrapped as `${…}`, with or without blanks
around it. Both spellings are single references, also if nothing or only blanks are wrapped, or if
another `${` is left open inside; and both normalize to the text without the blanks around it.

Results:
* `classify_of_not_mem`, `classify_wrapped`: both spellings are single references.
* `normalize_of_not_mem`, `normalize_wrapped`: what is left of them.
* `resolveBinding_wrapped`: both have the same value.
-/

namespace DataBinding

namespace Reference

variable {cs inner : List Char}

/-! ## Bare -/

theorem classify_of_not_mem (h : '}' ∉ cs) : classify cs = .single cs :=
  classify_of_no_segment <| countP_isSegment_eq_zero_iff.2 fun _ hsegment hin =>
    h (hin.subset hsegment.closing_mem)

theorem dropPrefix?_eq_none_of_head? {c : Char} {ps : List Char} (h : cs.head? ≠ some c) :
    Text.dropPrefix? (c :: ps) cs = none := by
  cases cs with
  | nil => rfl
  | cons d ds => exact if_neg fun hc => h (by rw [hc, List.head?_cons])

theorem normalize_of_not_mem (hclose : '}' ∉ cs) (hopen : (Text.trim cs).head? ≠ some '$') :
    normalize cs = Text.trim cs := by
  obtain ⟨front, back, hcs, -, -⟩ := Text.exists_append_trim cs
  have hlast : (Text.trim cs).getLast? ≠ some '}' := by
    intro hlast
    have hmem := List.mem_of_getLast? hlast
    rw [hcs] at hclose
    exact hclose (List.mem_append_right _ (List.mem_append_left _ hmem))
  rw [normalize, dropOpening, dropPrefix?_eq_none_of_head? hopen,
    dropPrefix?_eq_none_of_head? hopen, Option.none_or, Option.getD_none, dropClosing, if_neg hlast,
    Text.trim_trim]

/-! ## Wrapped -/

/-- Blanks around a wrapped text can be trimmed away. -/
theorem trim_wrapped {front back : List Char} (hfront : ∀ c ∈ front, Text.isBlank c = true)
    (hback : ∀ c ∈ back, Text.isBlank c = true) (inner : List Char) :
    Text.trim (front ++ ((Part.expr inner).unparse ++ back)) = (Part.expr inner).unparse := by
  have hlast : (Part.expr inner).unparse.getLast? = some '}' :=
    List.getLast?_concat (l := '$' :: '{' :: inner)
  rw [Text.trim_append_blanks hfront hback]
  refine Text.trim_of_ends (fun c hc => ?_) fun c hc => ?_
  · obtain rfl : '$' = c := Option.some.inj hc
    decide
  · obtain rfl : '}' = c := Option.some.inj (hlast.symm.trans hc)
    decide

theorem classify_wrapped (hclose : '}' ∉ inner) (h : Text.trim cs = (Part.expr inner).unparse) :
    classify cs = .single cs := by
  have hfilter := filter_isSegment_of_trim hclose h
  have hsingle : IsSingle cs := by
    by_cases hinner : inner = []
    · rw [if_pos hinner] at hfilter
      refine .inl (countP_isSegment_eq_zero_iff.1 ?_)
      rw [List.countP_eq_length_filter, hfilter, List.length_nil]
    · rw [if_neg hinner] at hfilter
      exact .inr ⟨inner, hfilter, h⟩
  exact ((classify_cases cs).resolve_right fun htemplate => htemplate.2 hsingle).1

theorem normalize_wrapped (h : Text.trim cs = (Part.expr inner).unparse) :
    normalize cs = Text.trim inner := by
  have hopen : Text.dropPrefix? ['$', '{'] (Part.expr inner).unparse = some (inner ++ ['}']) :=
    Text.dropPrefix?_append ['$', '{'] (inner ++ ['}'])
  rw [normalize, h, dropOpening, hopen, Option.some_or, Option.getD_some, dropClosing,
    List.getLast?_concat, if_pos rfl, List.dropLast_concat]

end Reference

namespace Engine

variable (engine : Engine) (around : Surroundings)

/-- How the reference is spelled makes no difference to what a single reference leads to. -/
theorem resolveSingle_respelled (reference other : String) (value fallback : Option Value)
    (cs : List Char) :
    engine.resolveSingle around ⟨reference, value⟩ fallback cs =
      engine.resolveSingle around ⟨other, value⟩ fallback cs := rfl

/-- Bare or wrapped, a reference leads to the same value: to what the text without the blanks around
    it leads to. -/
theorem resolveBinding_wrapped {p : String} (hclose : '}' ∉ p.toList)
    (hopen : (Text.trim p.toList).head? ≠ some '$') {front back : List Char}
    (hfront : ∀ c ∈ front, Text.isBlank c = true) (hback : ∀ c ∈ back, Text.isBlank c = true)
    (value fallback : Option Value) :
    engine.resolveBinding around fallback
        ⟨String.ofList (front ++ ((Part.expr p.toList).unparse ++ back)), value⟩ =
        engine.resolveBinding around fallback ⟨p, value⟩ ∧
      engine.resolveBinding around fallback ⟨p, value⟩ =
        engine.resolveSingle around ⟨p, value⟩ fallback (Text.trim p.toList) := by
  have hbare : engine.resolveBinding around fallback ⟨p, value⟩ =
      engine.resolveSingle around ⟨p, value⟩ fallback (Text.trim p.toList) := by
    have hclass : Reference.classify (Binding.mk p value).reference.toList = .single p.toList :=
      Reference.classify_of_not_mem hclose
    rw [engine.resolveBinding_of_single around hclass,
      Reference.normalize_of_not_mem hclose hopen]
  have htrim := Reference.trim_wrapped hfront hback p.toList
  generalize front ++ ((Part.expr p.toList).unparse ++ back) = wrapped at htrim ⊢
  have hclass : Reference.classify (Binding.mk (String.ofList wrapped) value).reference.toList =
      .single wrapped := by
    rw [String.toList_ofList, Reference.classify_wrapped hclose htrim]
  refine ⟨?_, hbare⟩
  rw [hbare, engine.resolveBinding_of_single around hclass, Reference.normalize_wrapped htrim,
    engine.resolveSingle_respelled around (String.ofList wrapped) p]

/-- Another `${` is left open inside, and there are blanks on all sides. -/
theorem resolveBinding_wrapped_open :
    let around : Surroundings := ⟨.object [("a $\x7bb", .ofNat 1)], []⟩
    Engine.default.resolveBinding around none ⟨"\t$\x7b a $\x7bb \x7d\n", none⟩ = some (.ofNat 1) := by
  intro around
  have hclose : '}' ∉ " a $\x7bb ".toList := by decide
  have hfront : ∀ c ∈ ['\t'], Text.isBlank c = true := List.forall_mem_singleton.2 (by decide)
  have hback : ∀ c ∈ ['\n'], Text.isBlank c = true := List.forall_mem_singleton.2 (by decide)
  obtain ⟨hsame, hbare⟩ := resolveBinding_wrapped Engine.default around hclose (by decide) hfront
    hback none none
  have htext : String.ofList (['\t'] ++ ((Part.expr " a $\x7bb ".toList).unparse ++ ['\n'])) =
      "\t$\x7b a $\x7bb \x7d\n" := by decide
  rw [htext] at hsame
  have hvalue : Engine.default.resolveSingle around ⟨" a $\x7bb ", none⟩ none
      (Text.trim " a $\x7bb ".toList) = some (.ofNat 1) := rfl
  exact hsame.trans (hbare.trans hvalue)

end Engine

end DataBinding
