import DataBinding.Text.Range

/-!
# Blank characters and trimming

A blank is a character with the Unicode property White_Space.

Results:
* `blankRanges_ascending`: the table is in order.
* `trimStart_suffix`: trimming the start drops a leading part and nothing else.
* `trimStart_head`: what is left does not start with a blank.
* `exists_append_trim`: trimming drops blanks on either side and nothing else.
* `trimStart_of_trim`: trimmed text starts with no blank.
* `trim_append_blanks`, `trim_trim`: blanks around a text make no difference to what is left.
* `trim_of_ends`: a text without blanks at its ends is left as it is.
-/

namespace DataBinding.Text

/-- The ranges of the Unicode property White_Space. -/
def blankRanges : List (Nat × Nat) :=
  [(0x9, 0xD), (0x20, 0x20), (0x85, 0x85), (0xA0, 0xA0), (0x1680, 0x1680), (0x2000, 0x200A),
    (0x2028, 0x2029), (0x202F, 0x202F), (0x205F, 0x205F), (0x3000, 0x3000)]

theorem blankRanges_ascending : ascending blankRanges = true := by decide

/-- The character has the Unicode property White_Space. -/
def isBlank (c : Char) : Bool := inRanges blankRanges c

/-- The text without its leading blanks. -/
def trimStart (cs : List Char) : List Char := cs.dropWhile isBlank

/-- The text without its trailing blanks. -/
def trimEnd (cs : List Char) : List Char := (cs.reverse.dropWhile isBlank).reverse

/-- The text without blanks on either side. -/
def trim (cs : List Char) : List Char := trimEnd (trimStart cs)

theorem trimStart_suffix (cs : List Char) : trimStart cs <:+ cs := List.dropWhile_suffix _

theorem trimStart_head {cs r : List Char} {c : Char} (h : trimStart cs = c :: r) :
    isBlank c = false := by
  induction cs with
  | nil => simp [trimStart] at h
  | cons d ds ih =>
    by_cases hd : isBlank d = true
    · exact ih (by simpa [trimStart, List.dropWhile_cons, hd] using h)
    · simp [trimStart, hd] at h
      simpa [← h.1] using hd

theorem exists_append_trimStart (cs : List Char) :
    ∃ front, cs = front ++ trimStart cs ∧ ∀ c ∈ front, isBlank c = true :=
  ⟨cs.takeWhile isBlank, List.takeWhile_append_dropWhile.symm,
    List.all_eq_true.1 List.all_takeWhile⟩

theorem exists_append_trim (cs : List Char) :
    ∃ front back, cs = front ++ (trim cs ++ back) ∧ (∀ c ∈ front, isBlank c = true) ∧
      ∀ c ∈ back, isBlank c = true := by
  obtain ⟨front, hfront, hblank⟩ := exists_append_trimStart cs
  obtain ⟨back, hback, hblank'⟩ := exists_append_trimStart (trimStart cs).reverse
  have htrim : trimStart cs = trim cs ++ back.reverse := by
    rw [trim, trimEnd, ← List.reverse_append, ← trimStart, ← hback, List.reverse_reverse]
  refine ⟨front, back.reverse, ?_, hblank, fun c hc => hblank' c (List.mem_reverse.1 hc)⟩
  rw [← htrim, ← hfront]

theorem length_trimEnd_le (cs : List Char) : (trimEnd cs).length ≤ cs.length := by
  have hsuffix : cs.reverse.dropWhile isBlank <:+ cs.reverse := List.dropWhile_suffix _
  simpa [trimEnd] using hsuffix.length_le

theorem trimStart_of_trim {cs : List Char} (h : trim cs = cs) : trimStart cs = cs := by
  have hend : (trim cs).length ≤ (trimStart cs).length := length_trimEnd_le _
  rw [h] at hend
  exact (trimStart_suffix cs).eq_of_length_le hend

theorem trimStart_append_blanks {front : List Char} (h : ∀ c ∈ front, isBlank c = true)
    (cs : List Char) : trimStart (front ++ cs) = trimStart cs := by
  rw [trimStart, List.dropWhile_append_of_pos h, trimStart]

theorem trimEnd_append_blanks {back : List Char} (h : ∀ c ∈ back, isBlank c = true)
    (cs : List Char) : trimEnd (cs ++ back) = trimEnd cs := by
  have hreverse : ∀ c ∈ back.reverse, isBlank c = true := fun c hc => h c (List.mem_reverse.1 hc)
  rw [trimEnd, List.reverse_append, List.dropWhile_append_of_pos hreverse, trimEnd]

theorem trim_append_blanks {front back : List Char} (hfront : ∀ c ∈ front, isBlank c = true)
    (hback : ∀ c ∈ back, isBlank c = true) (cs : List Char) :
    trim (front ++ (cs ++ back)) = trim cs := by
  rw [trim, trimStart_append_blanks hfront, trim, trimStart, List.dropWhile_append, ← trimStart]
  split
  · -- the text is all blanks, and so is what follows it
    rename_i hcs
    have hnil : trimStart (back ++ []) = [] := trimStart_append_blanks hback []
    rw [List.append_nil, trimStart] at hnil
    rw [hnil, List.isEmpty_iff.1 hcs]
  · exact trimEnd_append_blanks hback _

theorem trim_trim (cs : List Char) : trim (trim cs) = trim cs := by
  obtain ⟨front, back, hcs, hfront, hback⟩ := exists_append_trim cs
  have htrim := trim_append_blanks hfront hback (trim cs)
  rw [← hcs] at htrim
  exact htrim.symm

theorem trim_of_ends {cs : List Char} (hfirst : ∀ c ∈ cs.head?, isBlank c = false)
    (hlast : ∀ c ∈ cs.getLast?, isBlank c = false) : trim cs = cs := by
  have hstart : ∀ {ds : List Char}, (∀ c ∈ ds.head?, isBlank c = false) →
      ds.dropWhile isBlank = ds := by
    intro ds hds
    cases ds with
    | nil => rfl
    | cons d ds => exact List.dropWhile_cons_of_neg (by simp [hds d rfl])
  rw [trim, trimStart, hstart hfirst, trimEnd, hstart (by simpa using hlast), List.reverse_reverse]

end DataBinding.Text
