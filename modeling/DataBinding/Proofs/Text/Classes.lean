import DataBinding.Expr.Basic
import DataBinding.Text.Blank

/-!
# How the classes of characters lie to each other

Blanks, digits and the characters of names are told apart by tables of ranges. The tables of
blanks and of names have no code point in common, and the ten digits are characters of names that
cannot start one.

Results:
* `inRanges_eq_false_of_apart`: ranges that lie apart have no character in common.
* `isNameChar_of_isBlank`, `isBlank_of_isNameChar`: a blank is no character of a name.
* `isNameChar_of_isDigit`, `isNameStart_of_isDigit`: a digit stands in a name and starts none.
* `isDigit_of_mem_digitsOf`: the decimal text of a number is made of digits.
-/

namespace DataBinding.Text

/-! ## Ranges that lie apart -/

/-- No range of the first list meets a range of the second. -/
def apart (ranges others : List (Nat × Nat)) : Bool :=
  ranges.all fun r => others.all fun s => r.2 < s.1 || s.2 < r.1

theorem inRanges_eq_false_of_apart {ranges others : List (Nat × Nat)}
    (hr : ascending ranges = true) (ho : ascending others = true)
    (ha : apart ranges others = true) {c : Char} (hc : inRanges ranges c = true) :
    inRanges others c = false := by
  rw [Bool.eq_false_iff]
  intro hc'
  obtain ⟨r, hrm, hr1, hr2⟩ := (inRanges_iff hr).1 hc
  obtain ⟨s, hsm, hs1, hs2⟩ := (inRanges_iff ho).1 hc'
  have := List.all_eq_true.1 (List.all_eq_true.1 ha r hrm) s hsm
  simp only [Bool.or_eq_true, decide_eq_true_eq] at this
  omega

theorem blankRanges_apart_alphabetic : apart blankRanges alphabeticRanges = true := by
  decide +kernel

theorem blankRanges_apart_numeric : apart blankRanges numericRanges = true := by decide +kernel

/-! ## Digits -/

/-- The code points of the ten digits. -/
def digitRanges : List (Nat × Nat) := [(0x30, 0x39)]

theorem inRanges_digitRanges {c : Char} (h : isDigit c = true) : inRanges digitRanges c = true := by
  simp only [isDigit, Bool.and_eq_true, decide_eq_true_eq] at h
  exact (inRanges_iff (by decide)).2 ⟨(0x30, 0x39), List.mem_cons_self, h⟩

theorem digitRanges_apart_alphabetic : apart digitRanges alphabeticRanges = true := by
  decide +kernel

theorem isAlphabetic_of_isDigit {c : Char} (h : isDigit c = true) : isAlphabetic c = false :=
  inRanges_eq_false_of_apart (by decide) alphabeticRanges_ascending digitRanges_apart_alphabetic
    (inRanges_digitRanges h)

theorem isNumeric_of_isDigit {c : Char} (h : isDigit c = true) : isNumeric c = true := by
  simp only [isDigit, Bool.and_eq_true, decide_eq_true_eq] at h
  exact (inRanges_iff numericRanges_ascending).2 ⟨(0x30, 0x39), List.mem_cons_self, h⟩

theorem isDigit_of_mem_digitsOf {n : Nat} {c : Char} (h : c ∈ digitsOf n) :
    isDigit c = true := by
  have hc := Nat.isDigit_of_mem_toDigits (by decide) (by decide) h
  simp only [Char.isDigit, Bool.and_eq_true, decide_eq_true_eq, UInt32.le_iff_toNat_le] at hc
  simp only [isDigit, Bool.and_eq_true, decide_eq_true_eq]
  exact hc

theorem digitsOf_ne_nil (n : Nat) : digitsOf n ≠ [] := Nat.toDigits_ne_nil

end DataBinding.Text

namespace DataBinding

open Text (isBlank isDigit)

theorem isNameChar_of_isBlank {c : Char} (h : isBlank c = true) : isNameChar c = false := by
  have ha := Text.inRanges_eq_false_of_apart Text.blankRanges_ascending
    Text.alphabeticRanges_ascending Text.blankRanges_apart_alphabetic h
  have hn := Text.inRanges_eq_false_of_apart Text.blankRanges_ascending
    Text.numericRanges_ascending Text.blankRanges_apart_numeric h
  have h_ : c ≠ '_' := by rintro rfl; exact absurd h (by decide)
  have hd : c ≠ '$' := by rintro rfl; exact absurd h (by decide)
  simp [isNameChar, Text.isAlphabetic, Text.isNumeric, ha, hn, h_, hd]

theorem isBlank_of_isNameChar {c : Char} (h : isNameChar c = true) : isBlank c = false := by
  rw [Bool.eq_false_iff]
  intro hb
  rw [isNameChar_of_isBlank hb] at h
  exact absurd h (by decide)

theorem isNameChar_of_isDigit {c : Char} (h : isDigit c = true) : isNameChar c = true := by
  simp [isNameChar, Text.isNumeric_of_isDigit h]

theorem isNameStart_of_isDigit {c : Char} (h : isDigit c = true) : isNameStart c = false := by
  have h_ : c ≠ '_' := by rintro rfl; exact absurd h (by decide)
  have hd : c ≠ '$' := by rintro rfl; exact absurd h (by decide)
  simp [isNameStart, h_, hd, Text.isAlphabetic_of_isDigit h]

end DataBinding
