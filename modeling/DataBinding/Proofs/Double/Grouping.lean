import DataBinding.Double.Display
import DataBinding.Text.Search

/-!
# Thousands

A displayed number has a sign or none, a whole part up to the first point, and the rest. Setting the
thousands apart only touches the whole part, and only if that is all digits: these are cut into
groups of three, counted from the end, with one space between two groups.

Results:
* `groupDigits_eq_join`: grouped digits are groups of three, joined by single spaces.
* `groupedText_cases`: grouping passes over the sign.
* `groupUnsigned_eq`: without a sign, the whole part alone decides what happens.
* `Worded.isDigits_wholePart`: a text with a letter and without a point has no whole part of digits.
* `groupedText_parts`: what grouping does to each part of a displayed number.
-/

namespace DataBinding

/-! ## Groups of three -/

/-- The first group has one to three characters, and every other has three. -/
def InThousands : List (List Char) → Prop
  | [] => False
  | first :: rest => (1 ≤ first.length ∧ first.length ≤ 3) ∧ ∀ group ∈ rest, group.length = 3

theorem length_flatten_mod_three {groups : List (List Char)}
    (h : ∀ group ∈ groups, group.length = 3) : groups.flatten.length % 3 = 0 := by
  induction groups with
  | nil => rfl
  | cons group rest ih =>
    have hgroup := h group List.mem_cons_self
    have hrest := ih fun g hg => h g (List.mem_cons_of_mem group hg)
    rw [List.flatten_cons, List.length_append]
    omega

/-- A space is due in front of the groups exactly if the first of them is full. -/
theorem InThousands.first_full_iff {first : List Char} {rest : List (List Char)}
    (h : InThousands (first :: rest)) :
    (first :: rest).flatten.length % 3 = 0 ↔ first.length = 3 := by
  have hrest := length_flatten_mod_three h.2
  obtain ⟨hleast, hmost⟩ := h.1
  rw [List.flatten_cons, List.length_append]
  omega

theorem join_cons_cons (c : Char) (first : List Char) (rest : List (List Char)) :
    Text.join [' '] ((c :: first) :: rest) = c :: Text.join [' '] (first :: rest) := by
  cases rest <;> rfl

/-- The induction is from the end: a further digit goes into the first group, or in front of it if
    that is full. -/
theorem groupDigits_eq_join {digits : List Char} (hne : digits ≠ []) :
    ∃ groups, InThousands groups ∧ groups.flatten = digits ∧
      groupDigits digits = Text.join [' '] groups := by
  induction digits with
  | nil => exact absurd rfl hne
  | cons c cs ih =>
    by_cases hcs : cs = []
    · subst hcs
      exact ⟨[[c]], ⟨by simp, List.forall_mem_nil _⟩, rfl, rfl⟩
    · obtain ⟨groups, hgroups, rfl, hjoin⟩ := ih hcs
      cases groups with
      | nil => exact hgroups.elim
      | cons first rest =>
        rw [groupDigits]
        by_cases hfull : first.length = 3
        · rw [if_pos ⟨hgroups.first_full_iff.2 hfull, hcs⟩, hjoin]
          exact ⟨[c] :: first :: rest,
            ⟨by simp, List.forall_mem_cons.2 ⟨hfull, hgroups.2⟩⟩, rfl, rfl⟩
        · rw [if_neg fun h => hfull (hgroups.first_full_iff.1 h.1), hjoin]
          refine ⟨(c :: first) :: rest, ⟨?_, hgroups.2⟩, rfl, (join_cons_cons c first rest).symm⟩
          have hfirst := hgroups.1
          rw [List.length_cons]
          omega

/-! ## Parts of a displayed number -/

/-- The text is a minus sign or none, a whole part without a point, and a rest that is empty or
    starts with a point. -/
structure NumeralParts (text sign whole rest : List Char) : Prop where
  text_eq : text = sign ++ (whole ++ rest)
  sign_eq : sign = if text.head? = some '-' then ['-'] else []
  whole_point : '.' ∉ whole
  rest_point : rest = [] ∨ ∃ fraction, rest = '.' :: fraction

/-- The whole part of an unsigned text. -/
def wholePart (cs : List Char) : List Char := cs.takeWhile (· != '.')

/-- What follows the whole part of an unsigned text. -/
def afterWhole (cs : List Char) : List Char := cs.dropWhile (· != '.')

theorem not_mem_wholePart (cs : List Char) : '.' ∉ wholePart cs := by
  intro h
  exact absurd (List.all_eq_true.1 List.all_takeWhile _ h) (by decide)

theorem afterWhole_cases (cs : List Char) :
    afterWhole cs = [] ∨ ∃ fraction, afterWhole cs = '.' :: fraction := by
  cases h : afterWhole cs with
  | nil => exact .inl rfl
  | cons c fraction =>
    have hc := List.head?_dropWhile_not (· != '.') cs
    rw [show cs.dropWhile (· != '.') = c :: fraction from h] at hc
    refine .inr ⟨fraction, ?_⟩
    rw [show c = '.' by simpa using hc]

theorem groupUnsigned_eq (cs : List Char) :
    groupUnsigned cs =
      if Text.isDigits (wholePart cs) then groupDigits (wholePart cs) ++ afterWhole cs else cs := by
  have hguard : ((wholePart cs).isEmpty || !(wholePart cs).all Text.isDigit) =
      !Text.isDigits (wholePart cs) := by
    rw [Text.isDigits, Bool.not_and, Bool.not_not]
  show (if ((wholePart cs).isEmpty || !(wholePart cs).all Text.isDigit) = true then cs
    else groupDigits (wholePart cs) ++ afterWhole cs) = _
  rw [hguard]
  cases Text.isDigits (wholePart cs) <;> rfl

theorem groupedText_cases (x : Double) :
    ∃ sign cs, x.displayText = sign ++ cs ∧
      sign = (if x.displayText.head? = some '-' then ['-'] else []) ∧
      x.groupedText = sign ++ groupUnsigned cs := by
  by_cases hminus : x.displayText.head? = some '-'
  · obtain ⟨cs, htext⟩ := List.head?_eq_some_iff.1 hminus
    refine ⟨['-'], cs, htext, (if_pos hminus).symm, ?_⟩
    rw [Double.groupedText, htext]
    rfl
  · refine ⟨[], x.displayText, rfl, (if_neg hminus).symm, ?_⟩
    rw [Double.groupedText]
    split
    · rename_i cs htext
      exact absurd (by rw [htext]; rfl) hminus
    · rfl

/-- What stands in a text without a point stands in its whole part. -/
theorem mem_wholePart {c : Char} {cs : List Char} (hc : c ∈ cs) (hpoint : '.' ∉ cs) :
    c ∈ wholePart cs := by
  have hcs : wholePart cs ++ afterWhole cs = cs := List.takeWhile_append_dropWhile
  rcases afterWhole_cases cs with hnone | ⟨fraction, hsome⟩
  · rw [hnone, List.append_nil] at hcs
    rwa [hcs]
  · rw [hsome] at hcs
    rw [← hcs] at hpoint
    exact absurd (List.mem_append_right _ List.mem_cons_self) hpoint

theorem isDigits_eq_false_of_mem {c : Char} {cs : List Char} (hc : c ∈ cs)
    (hdigit : Text.isDigit c = false) : Text.isDigits cs = false := by
  rw [Text.isDigits, Bool.and_eq_false_iff]
  right
  rw [List.all_eq_false]
  exact ⟨c, hc, by simp [hdigit]⟩

/-- The text has a letter, and no point. -/
def Worded (cs : List Char) : Prop :=
  (∃ c ∈ cs, c ≠ '-' ∧ Text.isDigit c = false) ∧ '.' ∉ cs

theorem worded_of_not_isFinite {x : Double} (h : x.isFinite = false) : Worded x.displayText := by
  cases x with
  | nan => exact ⟨⟨'N', by decide, by decide, by decide⟩, by decide⟩
  | infinite negative =>
    cases negative with
    | true => exact ⟨⟨'I', by decide, by decide, by decide⟩, by decide⟩
    | false => exact ⟨⟨'I', by decide, by decide, by decide⟩, by decide⟩
  | finite x => cases h

theorem worded_of_exponent {cs : List Char} (he : 'e' ∈ cs) (hpoint : '.' ∉ cs) : Worded cs :=
  ⟨⟨'e', he, by decide, by decide⟩, hpoint⟩

theorem Worded.isDigits_wholePart {sign cs : List Char} (h : Worded (sign ++ cs))
    (hsign : ∀ c ∈ sign, c = '-') : Text.isDigits (wholePart cs) = false := by
  obtain ⟨⟨c, hc, hminus, hdigit⟩, hpoint⟩ := h
  rw [List.mem_append] at hc hpoint
  have hcs : c ∈ cs := hc.resolve_left fun h => hminus (hsign c h)
  exact isDigits_eq_false_of_mem (mem_wholePart hcs (hpoint ∘ .inr)) hdigit

/-- Grouping leaves the sign and everything from the point on, and puts single spaces between groups
    of three digits of the whole part. A text whose whole part is not all digits stays as it is: that
    of an infinity, of what is not a number, and of a number that is written with an exponent and
    without a fraction. -/
theorem groupedText_parts (x : Double) :
    ∃ sign whole rest, NumeralParts x.displayText sign whole rest ∧
      (Text.isDigits whole = true → ∃ groups, InThousands groups ∧ groups.flatten = whole ∧
        x.groupedText = sign ++ (Text.join [' '] groups ++ rest)) ∧
      (Text.isDigits whole = false → x.groupedText = x.displayText) ∧
      (x.isFinite = false ∨ 'e' ∈ x.displayText ∧ '.' ∉ x.displayText →
        Text.isDigits whole = false) := by
  obtain ⟨sign, cs, htext, hsign, hgrouped⟩ := groupedText_cases x
  have hcs : wholePart cs ++ afterWhole cs = cs := List.takeWhile_append_dropWhile
  refine ⟨sign, wholePart cs, afterWhole cs, ⟨by rw [hcs, htext], hsign, not_mem_wholePart cs,
    afterWhole_cases cs⟩, fun h => ?_, fun h => ?_, fun h => ?_⟩
  · have hne : wholePart cs ≠ [] := by
      intro hnil
      rw [hnil] at h
      cases h
    obtain ⟨groups, hgroups, hflatten, hjoin⟩ := groupDigits_eq_join hne
    refine ⟨groups, hgroups, hflatten, ?_⟩
    rw [hgrouped, groupUnsigned_eq, if_pos h, hjoin]
  · rw [hgrouped, groupUnsigned_eq, h, htext]
    rfl
  · have hworded : Worded (sign ++ cs) := by
      rw [← htext]
      rcases h with hfinite | ⟨hexponent, hpoint⟩
      · exact worded_of_not_isFinite hfinite
      · exact worded_of_exponent hexponent hpoint
    refine hworded.isDigits_wholePart fun c hc => ?_
    rw [hsign] at hc
    split at hc
    · exact List.mem_singleton.1 hc
    · cases hc

end DataBinding
