import DataBinding.Value.Basic
import DataBinding.Decimal.Numeral

/-!
# Reading documents

The grammar is that of JSON: no leading zeros, no lone surrogates, no bare control characters, and
nothing but spaces after the document. Nesting is bounded, a number past the finite doubles is
refused, and a key written again takes the later value in its first place.

Results:
* `readDigits?_rest`: reading digits takes a leading part of the text.
-/

namespace DataBinding.Value

/-- The deepest nesting of arrays and objects that is read. -/
def maxDepth : Nat := 127

/-- A space between the tokens of a document. -/
def isSpace (c : Char) : Bool := c == ' ' || c == '\n' || c == '\t' || c == '\r'

def skipSpace (cs : List Char) : List Char := cs.dropWhile isSpace

/-! ## Text -/

/-- The value of a hexadecimal digit in either case. -/
def hexValue? (c : Char) : Option Nat :=
  if '0' ≤ c ∧ c ≤ '9' then some (c.toNat - 0x30)
  else if 'a' ≤ c ∧ c ≤ 'f' then some (c.toNat - 0x61 + 10)
  else if 'A' ≤ c ∧ c ≤ 'F' then some (c.toNat - 0x41 + 10)
  else none

/-- Four hexadecimal digits. -/
def readUnit? : List Char → Option (Nat × List Char)
  | a :: b :: c :: d :: rest => do
    let a ← hexValue? a
    let b ← hexValue? b
    let c ← hexValue? c
    let d ← hexValue? d
    some (((a * 16 + b) * 16 + c) * 16 + d, rest)
  | _ => none

/-- The character of an escape that starts with `\u`: one unit, or a pair of surrogates. -/
def readUnicode? (cs : List Char) : Option (Char × List Char) := do
  let (high, rest) ← readUnit? cs
  if 0xDC00 ≤ high ∧ high < 0xE000 then none
  else if 0xD800 ≤ high ∧ high < 0xDC00 then
    match rest with
    | '\\' :: 'u' :: rest =>
      let (low, rest) ← readUnit? rest
      if 0xDC00 ≤ low ∧ low < 0xE000 then
        some (Char.ofNat (0x10000 + (high - 0xD800) * 0x400 + (low - 0xDC00)), rest)
      else none
    | _ => none
  else some (Char.ofNat high, rest)

/-- The character of an escape, after its backslash. -/
def readEscape? : List Char → Option (Char × List Char)
  | '"' :: rest => some ('"', rest)
  | '\\' :: rest => some ('\\', rest)
  | '/' :: rest => some ('/', rest)
  | 'b' :: rest => some ('\x08', rest)
  | 'f' :: rest => some ('\x0c', rest)
  | 'n' :: rest => some ('\n', rest)
  | 'r' :: rest => some ('\r', rest)
  | 't' :: rest => some ('\t', rest)
  | 'u' :: rest => readUnicode? rest
  | _ => none

/-- The text up to the closing quote. Each step takes at least one character, so `fuel` beyond the
    length of the text is never used. -/
def readText? : (fuel : Nat) → List Char → Option (List Char × List Char)
  | 0, _ => none
  | _ + 1, [] => none
  | fuel + 1, c :: cs =>
    if c = '"' then some ([], cs)
    else if c = '\\' then do
      let (c, cs) ← readEscape? cs
      let (chars, rest) ← readText? fuel cs
      some (c :: chars, rest)
    else if c.toNat < 0x20 then none
    else do
      let (chars, rest) ← readText? fuel cs
      some (c :: chars, rest)

/-! ## Numbers -/

/-- At least one digit. -/
def readDigits? (cs : List Char) : Option (List Char × List Char) :=
  let (digits, rest) := Decimal.takeDigits cs
  if digits.isEmpty then none else some (digits, rest)

theorem readDigits?_rest {cs digits rest : List Char} (h : readDigits? cs = some (digits, rest)) :
    digits ++ rest = cs := by
  simp only [readDigits?] at h
  split at h
  · simp at h
  · obtain ⟨rfl, rfl⟩ := Prod.mk.inj (Option.some.inj h)
    exact Decimal.takeDigits_append cs

/-- The digits before the point: a single zero, or digits that do not start with one. -/
def readWhole? (cs : List Char) : Option (List Char × List Char) := do
  let (digits, rest) ← readDigits? cs
  if digits.head? = some '0' ∧ 1 < digits.length then none else some (digits, rest)

/-- The digits after a point; no point, no digits. -/
def readFraction? : List Char → Option (Option (List Char) × List Char)
  | '.' :: cs => (readDigits? cs).map fun (digits, rest) => (some digits, rest)
  | cs => some (none, cs)

/-- The exponent after `e` or `E`; no letter, no exponent. -/
def readExponent? : List Char → Option (Option Int × List Char)
  | [] => some (none, [])
  | c :: cs =>
    if c = 'e' ∨ c = 'E' then do
      let (negative, cs) := Decimal.takeSign cs
      let (digits, rest) ← readDigits? cs
      let n := Text.digitsValue digits
      some (some (if negative then -(n : Int) else n), rest)
    else some (none, c :: cs)

/-- A literal without point and exponent is an integer of 64 bits, if it fits and is not the
    negative zero. -/
def integerLiteral? (negative : Bool) (n : Nat) : Option Int :=
  if negative then if 0 < n ∧ n ≤ signBit then some (-(n : Int)) else none
  else if n < wordBound then some n else none

/-- A number literal; there is none for a number past the finite doubles. -/
def readNumber? (cs : List Char) : Option (Number × List Char) := do
  let (negative, cs) := match cs with
    | '-' :: cs => (true, cs)
    | cs => (false, cs)
  let (whole, cs) ← readWhole? cs
  let (fraction, cs) ← readFraction? cs
  let (exponent, cs) ← readExponent? cs
  let exact := if fraction.isSome || exponent.isSome then none
    else integerLiteral? negative (Text.digitsValue whole)
  match exact with
  | some n => some (.integer n, cs)
  | none =>
    match (Decimal.ofDigits whole (fraction.getD []) (exponent.getD 0)).toDouble negative with
    | .finite x => some (.float x, cs)
    | _ => none

/-! ## Values -/

/-! Each step of a loop takes at least one character, so a loop whose `fuel` is beyond the length of
the document never runs out of it. -/

/-- The elements of an array after its opening bracket, read with `element`. -/
def readItems? (element : List Char → Option (Value × List Char)) :
    (fuel : Nat) → List Char → Option (List Value × List Char)
  | 0, _ => none
  | fuel + 1, cs => do
    let (v, cs) ← element cs
    match skipSpace cs with
    | ',' :: cs =>
      let (items, rest) ← readItems? element fuel cs
      some (v :: items, rest)
    | ']' :: rest => some ([v], rest)
    | _ => none

/-- The fields of an object after its opening brace, added to those read before. Keys are at most as
    long as the document, which `length` bounds. -/
def readFields? (element : List Char → Option (Value × List Char)) (length : Nat) :
    (fuel : Nat) → Fields → List Char → Option (Fields × List Char)
  | 0, _, _ => none
  | fuel + 1, fields, cs => do
    match skipSpace cs with
    | '"' :: cs =>
      let (key, cs) ← readText? length cs
      match skipSpace cs with
      | ':' :: cs =>
        let (v, cs) ← element cs
        let fields := Fields.insert (String.ofList key) v fields
        match skipSpace cs with
        | ',' :: cs => readFields? element length fuel fields cs
        | '}' :: rest => some (fields, rest)
        | _ => none
      | _ => none
    | _ => none

/-- A value whose containers nest at most `depth` deep, and the text after it. `length` is beyond
    the length of the document. -/
def readAt? (length : Nat) : (depth : Nat) → List Char → Option (Value × List Char)
  | depth, cs =>
    match skipSpace cs with
    | 'n' :: 'u' :: 'l' :: 'l' :: rest => some (null, rest)
    | 't' :: 'r' :: 'u' :: 'e' :: rest => some (bool true, rest)
    | 'f' :: 'a' :: 'l' :: 's' :: 'e' :: rest => some (bool false, rest)
    | '"' :: rest => (readText? length rest).map fun (s, rest) => (text (String.ofList s), rest)
    | '[' :: rest =>
      match depth with
      | 0 => none
      | depth + 1 =>
        match skipSpace rest with
        | ']' :: rest => some (array [], rest)
        | _ => (readItems? (readAt? length depth) length rest).map fun (items, rest) =>
            (array items, rest)
    | '{' :: rest =>
      match depth with
      | 0 => none
      | depth + 1 =>
        match skipSpace rest with
        | '}' :: rest => some (object [], rest)
        | _ => (readFields? (readAt? length depth) length length [] rest).map fun (fields, rest) =>
            (object fields, rest)
    | cs => (readNumber? cs).map fun (n, rest) => (number n, rest)

/-- The document that makes up the whole text. -/
def read? (cs : List Char) : Option Value := do
  let (v, rest) ← readAt? (cs.length + 1) maxDepth cs
  if (skipSpace rest).isEmpty then some v else none

end DataBinding.Value
