import DataBinding.Reference.Basic

/-!
# Splitting and classifying references

A segment is `${`, one or more characters other than `}`, and `}`. The parts of a reference are its
leftmost segments that do not overlap, and the text between them; no other parts will do. A
reference is single if there is no segment in it, or one that is all of it but for blanks.

Results:
* `isSplit_parts`: the parts split the text at its leftmost segments.
* `IsSplit.unique`: only one list of parts does.
* `filter_isSegment_of_trim`: the segments of a text that is `${…}` but for blanks.
* `classify_cases`: a reference is either single or a template, by its segments.
-/

namespace DataBinding

/-- The text is `${`, one or more characters other than `}`, and `}`. -/
def IsSegment (cs : List Char) : Prop :=
  ∃ body, body ≠ [] ∧ '}' ∉ body ∧ cs = (Part.expr body).unparse

namespace IsSegment

variable {segment : List Char} (h : IsSegment segment)
include h

theorem starts : ['$', '{'] <+: segment := by
  obtain ⟨body, -, -, rfl⟩ := h
  exact ⟨body ++ ['}'], rfl⟩

theorem closing_mem : '}' ∈ segment := by
  obtain ⟨body, -, -, rfl⟩ := h
  simp [Part.unparse]

/-- An empty `${}` is no segment, and nor is anything that starts with it. -/
theorem not_starts_empty (rest : List Char) : ¬segment <+: '$' :: '{' :: '}' :: rest := by
  obtain ⟨body, hne, hbody, rfl⟩ := h
  obtain ⟨c, body, rfl⟩ := List.exists_cons_of_ne_nil hne
  rintro ⟨after, hafter⟩
  have hc : c :: (body ++ '}' :: after) = '}' :: rest := by simpa [Part.unparse] using hafter
  rw [(List.cons.inj hc).1] at hbody
  exact hbody List.mem_cons_self

end IsSegment

/-- Two segments at the same place are the same segment. -/
theorem eq_of_unparse_append {body other rest rest' : List Char} (hbody : '}' ∉ body)
    (hother : '}' ∉ other)
    (h : (Part.expr body).unparse ++ rest = (Part.expr other).unparse ++ rest') :
    body = other ∧ rest = rest' := by
  have hcut : ∀ {b : List Char}, '}' ∉ b → ∀ r,
      Text.cut? ['}'] (b ++ '}' :: r) = some (b, r) := fun hb r => Text.cut?_of_not_mem hb [] r
  have heq : body ++ '}' :: rest = other ++ '}' :: rest' := by simpa [Part.unparse] using h
  have hsame := hcut hbody rest
  rw [heq, hcut hother rest'] at hsame
  exact (Prod.mk.inj (Option.some.inj hsame.symm))

namespace Template

/-! ## Where no segment starts -/

/-- No segment starts inside `front`, where `rest` follows it. -/
def NoneInside (front rest : List Char) : Prop :=
  ∀ s t, front = s ++ t → t ≠ [] → ∀ segment, IsSegment segment → ¬segment <+: t ++ rest

theorem noneInside_nil (rest : List Char) : NoneInside [] rest := by
  intro s t ht hne
  exact absurd (List.append_eq_nil_iff.1 ht.symm).2 hne

/-- A segment starts with `$`. -/
theorem noneInside_of_not_mem {front : List Char} (h : '$' ∉ front) (rest : List Char) :
    NoneInside front rest := by
  rintro s t rfl hne segment hsegment hstart
  obtain ⟨c, t, rfl⟩ := List.exists_cons_of_ne_nil hne
  have hc := (List.cons_prefix_cons.1 (hsegment.starts.trans hstart)).1
  exact h (List.mem_append_right s (hc ▸ List.mem_cons_self))

theorem NoneInside.append {front middle rest : List Char} (h : NoneInside front (middle ++ rest))
    (h' : NoneInside middle rest) : NoneInside (front ++ middle) rest := by
  intro s t ht hne segment hsegment hstart
  rcases List.append_eq_append_iff.1 ht with ⟨u, rfl, hmiddle⟩ | ⟨u, hfront, rfl⟩
  · exact h' u t hmiddle hne segment hsegment hstart
  · rw [List.append_assoc] at hstart
    cases u with
    | nil => exact h' [] middle rfl hne segment hsegment hstart
    | cons c u => exact h s (c :: u) hfront (by simp) segment hsegment hstart

/-- At an empty `${}` no segment starts. -/
theorem noneInside_empty (rest : List Char) : NoneInside ['$'] ('{' :: '}' :: rest) := by
  intro s t ht hne segment hsegment hstart
  obtain ⟨-, rfl⟩ | ⟨-, rfl⟩ := List.append_eq_singleton_iff.1 ht.symm
  · exact hsegment.not_starts_empty rest hstart
  · exact hne rfl

theorem noneInside_of_no_segment {cs : List Char}
    (h : ∀ segment, IsSegment segment → ¬segment <:+: cs) : NoneInside cs [] := by
  rintro s t rfl - segment hsegment hstart
  rw [List.append_nil] at hstart
  exact h segment hsegment (hstart.isInfix.trans (List.suffix_append s t).isInfix)

theorem NoneInside.not_occurs {front rest : List Char} (h : NoneInside front rest)
    {segment : List Char} (hsegment : IsSegment segment) : ¬segment <:+: front := by
  rintro ⟨s, t, rfl⟩
  have hne : segment ++ t ≠ [] := by
    intro hnil
    have := hsegment.closing_mem
    rw [(List.append_eq_nil_iff.1 hnil).1] at this
    cases this
  refine h s (segment ++ t) (by simp) hne segment hsegment ?_
  exact ⟨t ++ rest, by simp⟩

/-- Before the first `${` no segment starts. -/
theorem noneInside_of_cut? {cs front inside : List Char}
    (h : Text.cut? ['$', '{'] cs = some (front, inside)) :
    NoneInside front ('$' :: '{' :: inside) := by
  intro s t ht hne segment hsegment hstart
  exact Text.not_starts_of_cut? h ht hne (hsegment.starts.trans hstart)

/-! ## Splits -/

/-- The parts are those of the text, split at its leftmost segments that do not overlap. -/
structure IsSplit (cs : List Char) (ps : List Part) : Prop where
  written : unparse ps = cs
  bodies : ∀ body, .expr body ∈ ps → body ≠ [] ∧ '}' ∉ body
  texts : ∀ t, .text t ∈ ps → t ≠ []
  apart : ∀ before s t after, ps ≠ before ++ .text s :: .text t :: after
  leftmost : ∀ before t after, ps = before ++ .text t :: after → NoneInside t (unparse after)

namespace IsSplit

variable {cs rest body t : List Char} {ps qs : List Part}

theorem nil : IsSplit [] [] where
  written := rfl
  bodies _ h := by cases h
  texts _ h := by cases h
  apart before s t after h := by simp at h
  leftmost before t after h := by simp at h

theorem expr (hne : body ≠ []) (hbody : '}' ∉ body) (h : IsSplit rest ps) :
    IsSplit ((Part.expr body).unparse ++ rest) (.expr body :: ps) where
  written := by rw [unparse, List.flatMap_cons, ← unparse, h.written]
  bodies b hb := by
    rcases List.mem_cons.1 hb with hb | hb
    · cases hb
      exact ⟨hne, hbody⟩
    · exact h.bodies b hb
  texts u hu := h.texts u (List.mem_of_ne_of_mem (by simp) hu)
  apart before s u after heq := by
    cases before with
    | nil => cases heq
    | cons p before => exact h.apart before s u after (List.cons.inj heq).2
  leftmost before u after heq := by
    cases before with
    | nil => cases heq
    | cons p before => exact h.leftmost before u after (List.cons.inj heq).2

theorem text (hne : t ≠ []) (hnone : NoneInside t rest) (hhead : ∀ s, ps.head? ≠ some (.text s))
    (h : IsSplit rest ps) : IsSplit (t ++ rest) (.text t :: ps) where
  written := by rw [unparse, List.flatMap_cons, ← unparse, h.written, Part.unparse]
  bodies b hb := h.bodies b (List.mem_of_ne_of_mem (by simp) hb)
  texts u hu := by
    rcases List.mem_cons.1 hu with hu | hu
    · cases hu
      exact hne
    · exact h.texts u hu
  apart before s u after heq := by
    cases before with
    | nil =>
      rw [List.nil_append, List.cons.injEq] at heq
      exact hhead u (by rw [heq.2, List.head?_cons])
    | cons p before => exact h.apart before s u after (List.cons.inj heq).2
  leftmost before u after heq := by
    cases before with
    | nil =>
      rw [List.nil_append, List.cons.injEq, Part.text.injEq] at heq
      rw [← heq.1, ← heq.2, h.written]
      exact hnone
    | cons p before => exact h.leftmost before u after (List.cons.inj heq).2

theorem textPart (hnone : NoneInside t rest) (hhead : ∀ s, ps.head? ≠ some (.text s))
    (h : IsSplit rest ps) : IsSplit (t ++ rest) (textPart t ++ ps) := by
  cases t with
  | nil => exact h
  | cons c t => exact text (by simp) hnone hhead h

theorem whole (h : NoneInside t []) : IsSplit t (Template.textPart t) := by
  have hsplit : IsSplit (t ++ []) (Template.textPart t ++ []) := textPart h (by simp) nil
  rwa [List.append_nil, List.append_nil] at hsplit

theorem tail {p : Part} (h : IsSplit cs (p :: ps)) : IsSplit (unparse ps) ps where
  written := rfl
  bodies b hb := h.bodies b (List.mem_cons_of_mem p hb)
  texts u hu := h.texts u (List.mem_cons_of_mem p hu)
  apart before s u after heq := h.apart (p :: before) s u after (by rw [heq, List.cons_append])
  leftmost before u after heq := h.leftmost (p :: before) u after (by rw [heq, List.cons_append])

theorem eq_append {p : Part} (h : IsSplit cs (p :: ps)) : cs = p.unparse ++ unparse ps := by
  rw [← h.written, unparse, List.flatMap_cons, unparse]

theorem isSegment (h : IsSplit cs ps) (hbody : .expr body ∈ ps) :
    IsSegment (Part.expr body).unparse :=
  ⟨body, (h.bodies body hbody).1, (h.bodies body hbody).2, rfl⟩

/-- No part is empty. -/
theorem not_nil_cons (p : Part) (ps : List Part) : ¬IsSplit [] (p :: ps) := by
  intro h
  have hp := (List.append_eq_nil_iff.1 h.eq_append.symm).1
  cases p with
  | text t => exact h.texts t List.mem_cons_self hp
  | expr body => cases hp

/-- Where one split has text, another has no segment. -/
theorem not_expr_text (h : IsSplit cs (.expr body :: ps)) : ¬IsSplit cs (.text t :: qs) := by
  intro h'
  refine h'.leftmost [] t qs rfl [] t rfl (h'.texts t List.mem_cons_self) _
    (h.isSegment List.mem_cons_self) ?_
  exact ⟨unparse ps, h.eq_append.symm.trans h'.eq_append⟩

/-- A text ends where the next segment starts, so no other split has a longer one. -/
theorem text_eq_of_append {u : List Char} (h : IsSplit cs (.text t :: ps))
    (h' : IsSplit cs (.text (t ++ u) :: qs)) : u = [] := by
  have hrest : unparse ps = u ++ unparse qs := by
    have := h.eq_append.symm.trans h'.eq_append
    rwa [Part.unparse, Part.unparse, List.append_assoc, List.append_cancel_left_eq] at this
  cases ps with
  | nil => exact (List.append_eq_nil_iff.1 hrest.symm).1
  | cons p ps =>
    cases p with
    | text s => exact absurd rfl (h.apart [] t s ps)
    | expr body =>
      by_cases hu : u = []
      · exact hu
      · refine absurd ?_ (h'.leftmost [] (t ++ u) qs rfl t u rfl hu _
          (h.tail.isSegment List.mem_cons_self))
        exact ⟨unparse ps, by rw [← hrest, ← h.tail.eq_append]⟩

/-- A text has one split. The induction is on its parts, which agree one after the other. -/
theorem unique (h : IsSplit cs ps) (h' : IsSplit cs qs) : ps = qs := by
  induction ps generalizing cs qs with
  | nil =>
    obtain rfl : [] = cs := h.written
    cases qs with
    | nil => rfl
    | cons q qs => exact absurd h' (not_nil_cons q qs)
  | cons p ps ih =>
    cases qs with
    | nil =>
      obtain rfl : [] = cs := h'.written
      exact absurd h (not_nil_cons p ps)
    | cons q qs =>
      have heq := h.eq_append.symm.trans h'.eq_append
      match p, q with
      | .expr body, .text t => exact absurd h' h.not_expr_text
      | .text t, .expr body => exact absurd h h'.not_expr_text
      | .expr body, .expr other =>
        obtain ⟨rfl, hrest⟩ := eq_of_unparse_append (h.bodies body List.mem_cons_self).2
          (h'.bodies other List.mem_cons_self).2 heq
        have htail := h'.tail
        rw [← hrest] at htail
        rw [ih h.tail htail]
      | .text t, .text s =>
        have hts : t = s := by
          rcases List.append_eq_append_iff.1 heq with ⟨u, hs, -⟩ | ⟨u, ht, -⟩
          · obtain rfl : s = t ++ u := hs
            rw [h.text_eq_of_append h', List.append_nil]
          · obtain rfl : t = s ++ u := ht
            rw [h'.text_eq_of_append h, List.append_nil]
        subst hts
        have htail := h'.tail
        rw [← List.append_cancel_left heq] at htail
        rw [ih h.tail htail]

end IsSplit

/-! ## The parts of a text -/

/-- The search has passed no segment. -/
theorem isSplit_partsFrom {passed cs : List Char} (h : NoneInside passed cs) :
    IsSplit (passed ++ cs) (partsFrom passed cs) := by
  fun_induction partsFrom passed cs with
  | case1 passed cs hopen =>
    have hrest : NoneInside cs [] := noneInside_of_no_segment fun segment hsegment hin =>
      Text.cut?_eq_none_iff.1 hopen (hsegment.starts.isInfix.trans hin)
    exact .whole (.append (by rwa [List.append_nil]) hrest)
  | case2 passed cs front inside hopen _ hclose =>
    have hrest : NoneInside ('$' :: '{' :: inside) [] := by
      refine noneInside_of_no_segment fun segment hsegment hin => ?_
      have hmem : '}' ∈ inside := by simpa using hin.subset hsegment.closing_mem
      exact Text.not_mem_of_cut?_eq_none hclose hmem
    rw [Text.eq_of_cut? hopen] at h ⊢
    refine .whole (.append (by rwa [List.append_nil]) (.append ?_ hrest))
    rw [List.append_nil]
    exact noneInside_of_cut? hopen
  | case3 passed cs front inside hopen _ after hclose ih =>
    have hopening : NoneInside ['$'] ('{' :: inside) := by
      rw [show inside = '}' :: after from Text.eq_of_cut? hclose]
      exact noneInside_empty after
    rw [Text.eq_of_cut? hopen] at h ⊢
    have hpassed : NoneInside (passed ++ front ++ ['$']) ('{' :: inside) :=
      .append (.append h (noneInside_of_cut? hopen)) hopening
    simpa using ih hpassed
  | case4 passed cs front inside hopen _ c body after hclose _ ih =>
    have hbody : '}' ∉ c :: body := Text.not_mem_of_cut? hclose
    have hrest := IsSplit.expr (List.cons_ne_nil c body) hbody (ih (noneInside_nil after))
    have hafter : ['$', '{'] ++ inside = (Part.expr (c :: body)).unparse ++ ([] ++ after) := by
      rw [show inside = c :: body ++ '}' :: after from Text.eq_of_cut? hclose]
      simp [Part.unparse]
    rw [Text.eq_of_cut? hopen, ← List.append_assoc, hafter]
    rw [Text.eq_of_cut? hopen] at h
    have hpassed := NoneInside.append h (noneInside_of_cut? hopen)
    rw [hafter] at hpassed
    exact IsSplit.textPart hpassed (by simp) hrest

theorem isSplit_parts (cs : List Char) : IsSplit cs (parts cs) :=
  isSplit_partsFrom (noneInside_nil cs)

/-- The parts are the split of the text at its leftmost segments, and no other list of parts is. -/
theorem parts_eq_iff {cs : List Char} {ps : List Part} : parts cs = ps ↔ IsSplit cs ps := by
  constructor
  · rintro rfl
    exact isSplit_parts cs
  · exact (isSplit_parts cs).unique

end Template

/-! ## Single references -/

namespace Reference

open Template (parts unparse textPart IsSplit NoneInside)

theorem countP_isSegment_eq_zero_iff {cs : List Char} :
    (parts cs).countP isSegment = 0 ↔ ∀ segment, IsSegment segment → ¬segment <:+: cs := by
  have hsplit := Template.isSplit_parts cs
  rw [List.countP_eq_zero]
  constructor
  · intro hnone segment hsegment hin
    match hparts : parts cs with
    | [] =>
      rw [hparts] at hsplit
      rw [show cs = [] from hsplit.written.symm] at hin
      exact absurd (hin.subset hsegment.closing_mem) List.not_mem_nil
    | [.text t] =>
      rw [hparts] at hsplit
      have hcs : cs = t ++ [] := hsplit.eq_append
      rw [hcs, List.append_nil] at hin
      exact (hsplit.leftmost [] t [] rfl).not_occurs hsegment hin
    | .text s :: .text t :: rest => exact hsplit.apart [] s t rest hparts
    | .text t :: .expr body :: rest => exact hnone (.expr body) (by simp [hparts]) rfl
    | .expr body :: rest => exact hnone (.expr body) (by simp [hparts]) rfl
  · intro hnone p hp
    cases p with
    | text t => exact Bool.false_ne_true
    | expr body =>
      obtain ⟨before, after, hparts⟩ := List.append_of_mem hp
      refine absurd ?_ (hnone _ (hsplit.isSegment hp))
      refine ⟨unparse before, unparse after, ?_⟩
      rw [← hsplit.written, hparts]
      simp [unparse]

theorem isWhole_iff {cs : List Char} :
    isWhole cs = true ↔
      ∃ inner, '}' ∉ inner ∧ Text.trim cs = (Part.expr inner).unparse := by
  simp only [isWhole, Bool.and_eq_true, Text.startsWith_iff, beq_iff_eq, Bool.not_eq_true',
    List.contains_eq_mem, decide_eq_false_iff_not]
  constructor
  · rintro ⟨⟨⟨rest, hrest⟩, hlast⟩, hmem⟩
    rw [← hrest] at hlast hmem ⊢
    rcases List.eq_nil_or_concat rest with rfl | ⟨inner, c, rfl⟩
    · cases hlast
    · rw [List.concat_eq_append] at hlast hmem ⊢
      rw [← List.append_assoc, List.getLast?_concat, Option.some.injEq] at hlast
      rw [hlast] at hmem ⊢
      refine ⟨inner, ?_, rfl⟩
      simpa using hmem
  · rintro ⟨inner, hmem, htrim⟩
    have hlast : (Part.expr inner).unparse.getLast? = some '}' :=
      List.getLast?_concat (l := '$' :: '{' :: inner)
    rw [htrim]
    exact ⟨⟨⟨inner ++ ['}'], rfl⟩, hlast⟩, by simpa [Part.unparse] using hmem⟩

theorem filter_isSegment_textPart (t : List Char) : (textPart t).filter isSegment = [] := by
  cases t <;> rfl

/-- A text that is `${…}` but for blanks has that one segment, or none if there is nothing in it. -/
theorem filter_isSegment_of_trim {cs inner : List Char} (hclose : '}' ∉ inner)
    (h : Text.trim cs = (Part.expr inner).unparse) :
    (parts cs).filter isSegment = if inner = [] then [] else [.expr inner] := by
  obtain ⟨front, back, hcs, hfront, hback⟩ := Text.exists_append_trim cs
  have hblank : Text.isBlank '$' = false := by decide
  have hfrontNone : '$' ∉ front := fun hmem => by simp [hfront _ hmem] at hblank
  have hbackNone : '$' ∉ back := fun hmem => by simp [hback _ hmem] at hblank
  rw [h] at hcs
  by_cases hinner : inner = []
  · subst hinner
    have hnone : NoneInside (front ++ (['$'] ++ '{' :: '}' :: back)) [] := by
      have hrest : '$' ∉ '{' :: '}' :: back := by simp [hbackNone]
      refine .append (Template.noneInside_of_not_mem hfrontNone _) (.append ?_
        (Template.noneInside_of_not_mem hrest []))
      rw [List.append_nil]
      exact Template.noneInside_empty back
    have hcount : (parts cs).countP isSegment = 0 := by
      rw [countP_isSegment_eq_zero_iff, hcs]
      exact fun segment hsegment => hnone.not_occurs hsegment
    rw [if_pos rfl, ← List.length_eq_zero_iff, ← List.countP_eq_length_filter, hcount]
  · have hback : IsSplit back (textPart back) :=
      .whole (Template.noneInside_of_not_mem hbackNone [])
    have hparts : parts cs = textPart front ++ .expr inner :: textPart back := by
      rw [Template.parts_eq_iff, hcs]
      exact .textPart (Template.noneInside_of_not_mem hfrontNone _) (by simp)
        (.expr hinner hclose hback)
    rw [hparts, if_neg hinner, List.filter_append, filter_isSegment_textPart, List.nil_append,
      List.filter_cons_of_pos rfl, filter_isSegment_textPart]

/-- The reference has no segment, or one that is all of it but for blanks. -/
def IsSingle (cs : List Char) : Prop :=
  (∀ segment, IsSegment segment → ¬segment <:+: cs) ∨
    ∃ body, (parts cs).filter isSegment = [.expr body] ∧
      Text.trim cs = (Part.expr body).unparse

/-- A reference is single or a template, by the segments in it. -/
theorem classify_cases (cs : List Char) :
    classify cs = .single cs ∧ IsSingle cs ∨
      classify cs = .template (parts cs) ∧ ¬IsSingle cs := by
  have hone : ∀ {body}, (parts cs).filter isSegment = [.expr body] →
      (parts cs).countP isSegment = 1 := by
    intro body hfilter
    rw [List.countP_eq_length_filter, hfilter, List.length_singleton]
  rw [classify]
  split
  · rename_i hcount
    exact .inl ⟨rfl, .inl (countP_isSegment_eq_zero_iff.1 hcount)⟩
  · rename_i hcount
    have hsome : ¬∀ segment, IsSegment segment → ¬segment <:+: cs := by
      rw [← countP_isSegment_eq_zero_iff, hcount]
      decide
    split
    · rename_i hwhole
      obtain ⟨inner, hclose, htrim⟩ := isWhole_iff.1 hwhole
      have hfilter := filter_isSegment_of_trim hclose htrim
      split at hfilter
      · rw [List.countP_eq_length_filter, hfilter] at hcount
        cases hcount
      · exact .inl ⟨rfl, .inr ⟨inner, hfilter, htrim⟩⟩
    · rename_i hwhole
      refine .inr ⟨rfl, ?_⟩
      rintro (hnone | ⟨body, hfilter, htrim⟩)
      · exact hsome hnone
      · have hmem : .expr body ∈ (parts cs).filter isSegment := by
          rw [hfilter]
          exact List.mem_singleton_self _
        have hclose := ((Template.isSplit_parts cs).bodies body (List.mem_filter.1 hmem).1).2
        exact hwhole (isWhole_iff.2 ⟨body, hclose, htrim⟩)
  · rename_i hzero hnotOne
    refine .inr ⟨rfl, ?_⟩
    rintro (hnone | ⟨body, hfilter, -⟩)
    · exact hzero (countP_isSegment_eq_zero_iff.2 hnone)
    · exact hnotOne (hone hfilter)

end Reference

end DataBinding
