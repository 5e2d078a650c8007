import Mathlib.Tactic.SplitIfs
import DataBinding.Value.Printer
import DataBinding.Value.Reader

/-!
# A text in quotes is read back

Each character is written as itself or as an escape, and read as one step of the loop for texts. An
escape in hexadecimal stands for a control character; its digits are those of the code point.

Results:
* `readEscape?_control`: the escape of a control character.
* `readText?_escaped`: one character after the other, and then the closing quote.
* `read?_compact_text`: every text is read back from its compact form.
-/

namespace DataBinding.Value

/-! ## Control characters -/

theorem hexValue?_hexDigit (n : Nat) : hexValue? (hexDigit n) = some (n % 16) := by
  have hdigit : ∀ m < 16, hexValue? (Nat.digitChar m) = some m := by decide
  exact hdigit (n % 16) (Nat.mod_lt n (by decide))

theorem readEscape?_control {c : Char} (h : c.toNat < 0x20) (rest : List Char) :
    readEscape? ('u' :: '0' :: '0' :: hexDigit (c.toNat / 16) :: hexDigit c.toNat :: rest) =
      some (c, rest) := by
  have hzero : hexValue? '0' = some 0 := by decide
  have hvalue : ((0 * 16 + 0) * 16 + c.toNat / 16 % 16) * 16 + c.toNat % 16 = c.toNat := by omega
  have hunit : readUnit? ('0' :: '0' :: hexDigit (c.toNat / 16) :: hexDigit c.toNat :: rest) =
      some (c.toNat, rest) := by
    simp only [readUnit?, hzero, hexValue?_hexDigit, Option.bind_eq_bind, Option.bind_some, hvalue]
  have hlow : ¬(0xDC00 ≤ c.toNat ∧ c.toNat < 0xE000) := by omega
  have hhigh : ¬(0xD800 ≤ c.toNat ∧ c.toNat < 0xDC00) := by omega
  rw [readEscape?, readUnicode?, hunit]
  simp only [Option.bind_eq_bind, Option.bind_some, if_neg hlow, if_neg hhigh, Char.ofNat_toNat]

/-! ## Texts -/

/-- A step of the loop takes an escape. -/
theorem readText?_escape {d c : Char} {cs rest : List Char}
    (h : readEscape? (d :: cs) = some (c, rest)) (fuel : Nat) :
    readText? (fuel + 1) ('\\' :: d :: cs) =
      (readText? fuel rest).map fun (chars, rest) => (c :: chars, rest) := by
  rw [readText?, if_neg (by decide), if_pos rfl, h, Option.bind_eq_bind, Option.bind_some]
  dsimp only
  cases readText? fuel rest with
  | none => rfl
  | some r => rfl

/-- A step of the loop takes a character that is written as itself. -/
theorem readText?_plain {c : Char} (hquote : c ≠ '"') (hbackslash : c ≠ '\\')
    (hcontrol : ¬c.toNat < 0x20) (fuel : Nat) (cs : List Char) :
    readText? (fuel + 1) (c :: cs) =
      (readText? fuel cs).map fun (chars, rest) => (c :: chars, rest) := by
  rw [readText?, if_neg hquote, if_neg hbackslash, if_neg hcontrol]
  cases readText? fuel cs with
  | none => rfl
  | some r => rfl

/-- The cases are those of the written form. -/
theorem readText?_escaped_append (fuel : Nat) (c : Char) (cs : List Char) :
    readText? (fuel + 1) (escaped c ++ cs) =
      (readText? fuel cs).map fun (chars, rest) => (c :: chars, rest) := by
  unfold escaped
  split_ifs with hquote hbackslash hbackspace hfeed hline hreturn htab hcontrol
  · exact readText?_escape (by rw [hquote]; rfl) fuel
  · exact readText?_escape (by rw [hbackslash]; rfl) fuel
  · exact readText?_escape (by rw [hbackspace]; rfl) fuel
  · exact readText?_escape (by rw [hfeed]; rfl) fuel
  · exact readText?_escape (by rw [hline]; rfl) fuel
  · exact readText?_escape (by rw [hreturn]; rfl) fuel
  · exact readText?_escape (by rw [htab]; rfl) fuel
  · exact readText?_escape (readEscape?_control hcontrol cs) fuel
  · exact readText?_plain hquote hbackslash hcontrol fuel cs

theorem readText?_escaped {fuel : Nat} {cs : List Char} (h : cs.length < fuel) (rest : List Char) :
    readText? fuel (cs.flatMap escaped ++ '"' :: rest) = some (cs, rest) := by
  induction cs generalizing fuel with
  | nil =>
    obtain ⟨fuel, rfl⟩ := Nat.exists_eq_succ_of_ne_zero (Nat.ne_zero_of_lt h)
    rfl
  | cons c cs ih =>
    obtain ⟨fuel, rfl⟩ := Nat.exists_eq_succ_of_ne_zero (Nat.ne_zero_of_lt h)
    rw [List.flatMap_cons, List.append_assoc, readText?_escaped_append,
      ih (Nat.lt_of_succ_lt_succ h)]
    rfl

theorem escaped_length_pos (c : Char) : 0 < (escaped c).length := by
  unfold escaped
  split_ifs <;> exact Nat.succ_pos _

/-- A written text is at least as long as the text, so the fuel for it lasts. -/
theorem length_le_flatMap_escaped (cs : List Char) :
    cs.length ≤ (cs.flatMap escaped).length := by
  induction cs with
  | nil => exact Nat.le_refl 0
  | cons c cs ih =>
    have hpos := escaped_length_pos c
    rw [List.flatMap_cons, List.length_append, List.length_cons]
    omega

theorem readAt?_quoted {length : Nat} {cs : List Char} (h : cs.length < length) (depth : Nat)
    (rest : List Char) :
    readAt? length depth (quoted cs ++ rest) = some (text (String.ofList cs), rest) := by
  have hquoted : quoted cs ++ rest = '"' :: (cs.flatMap escaped ++ '"' :: rest) := by
    simp [quoted]
  have hspace : skipSpace ('"' :: (cs.flatMap escaped ++ '"' :: rest)) =
      '"' :: (cs.flatMap escaped ++ '"' :: rest) := rfl
  rw [hquoted, readAt?.eq_def]
  simp only [hspace, readText?_escaped h rest, Option.map_some]

theorem read?_compact_text (s : String) : read? (text s).compact = some (text s) := by
  have hlong : s.toList.length < (quoted s.toList).length + 1 := by
    have hle := length_le_flatMap_escaped s.toList
    simp only [quoted, List.length_append, List.length_cons]
    omega
  have hread := readAt?_quoted hlong maxDepth []
  rw [List.append_nil, String.ofList_toList] at hread
  show read? (quoted s.toList) = some (text s)
  rw [read?, hread]
  rfl

end DataBinding.Value
