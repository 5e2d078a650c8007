import DataBinding.Decimal.Basic

/-!
# Reading numerals

A numeral is digits with an optional point and an optional exponent; a sign may come first.

Results:
* `takeDigits_append`: the digits taken and the rest make up the text.
* `ofDigits_eq`: a numeral that is not too long has its exact value.
-/

namespace DataBinding.Decimal

/-- The leading digits of a text, and what follows them. -/
def takeDigits (cs : List Char) : List Char × List Char :=
  (cs.takeWhile Text.isDigit, cs.dropWhile Text.isDigit)

theorem takeDigits_append (cs : List Char) : (takeDigits cs).1 ++ (takeDigits cs).2 = cs :=
  List.takeWhile_append_dropWhile

/-- The most significant digits of a numeral that are told apart. A double, and the midpoint
    between two neighbours, has fewer of them. -/
def maxSignificant : Nat := 800

/-- The decimal with the given digits before and after the point, times a power of ten. Of more
    digits than can be told apart those past the last count only in being all zero or not: a
    single digit stands for them, on the same side of every double and midpoint. -/
def ofDigits (whole fraction : List Char) (exponent : Int) : Decimal :=
  let digits := (whole ++ fraction).dropWhile (· == '0')
  let exponent := exponent - fraction.length
  match digits.drop maxSignificant with
  | [] => ⟨Text.digitsValue digits, exponent⟩
  | rest =>
    let last := if rest.all (· == '0') then 0 else 1
    ⟨10 * Text.digitsValue (digits.take maxSignificant) + last, exponent + rest.length - 1⟩

theorem digitsValue_dropWhile (cs : List Char) :
    Text.digitsValue (cs.dropWhile (· == '0')) = Text.digitsValue cs := by
  induction cs with
  | nil => rfl
  | cons c cs ih =>
    by_cases h : c = '0'
    · subst h
      simpa [Text.digitsValue, Nat.ofDigitChars_cons] using ih
    · simp [h]

theorem ofDigits_eq {whole fraction : List Char}
    (h : (whole ++ fraction).length ≤ maxSignificant) (exponent : Int) :
    ofDigits whole fraction exponent =
      ⟨Text.digitsValue (whole ++ fraction), exponent - fraction.length⟩ := by
  have hl := (List.dropWhile_suffix (l := whole ++ fraction) (· == '0')).length_le
  have hd : ((whole ++ fraction).dropWhile (· == '0')).drop maxSignificant = [] :=
    List.drop_eq_nil_of_le (by omega)
  simp only [ofDigits, hd, digitsValue_dropWhile]

/-- An optional sign, and what follows it. -/
def takeSign : List Char → Bool × List Char
  | '-' :: cs => (true, cs)
  | '+' :: cs => (false, cs)
  | cs => (false, cs)

/-- An exponent that has reached this size is large enough: its further digits are passed over. -/
def exponentBound : Nat := 0x10000

/-- The value of the digits of an exponent, read until it has reached the bound. -/
def exponentValue (digits : List Char) : Nat :=
  digits.foldl (fun n c => if n < exponentBound then 10 * n + (c.toNat - '0'.toNat) else n) 0

/-- The whole text as an exponent: an optional sign and at least one digit. -/
def exponent? (cs : List Char) : Option Int :=
  let (negative, digits) := takeSign cs
  if digits.isEmpty || !digits.all Text.isDigit then none
  else some (if negative then -(exponentValue digits : Int) else exponentValue digits)

/-- The whole text as a numeral: a sign, digits on at least one side of an optional point, and an
    exponent after `e` or `E`. -/
def numeral? (cs : List Char) : Option (Bool × Decimal) :=
  let (negative, cs) := takeSign cs
  let (whole, cs) := takeDigits cs
  let (fraction, cs) := match cs with
    | '.' :: cs => takeDigits cs
    | cs => ([], cs)
  if whole.isEmpty && fraction.isEmpty then none
  else match cs with
    | [] => some (negative, ofDigits whole fraction 0)
    | c :: cs =>
      if c = 'e' ∨ c = 'E' then (exponent? cs).map fun e => (negative, ofDigits whole fraction e)
      else none

end DataBinding.Decimal
