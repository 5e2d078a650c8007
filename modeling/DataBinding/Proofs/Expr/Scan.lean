import DataBinding.Expr.Parser

/-!
# Reading an expression by byte offsets

A scanner knows the whole text, and its cursor is an offset into the bytes of it. The text is only
read by cutting it at an offset, which must lie between two characters. A scan runs its loops for as
long as they go on, and counts how deep it is nested; it has no result if it never ends, if a cut
fails, or if its cursor is ever moved to an offset inside a character or past the end.

Results:
* `Text.isSome_splitAt?_iff`: a text is cut at the end of a front of it, and nowhere else.
* `Source.isSome_moveTo_iff`: the cursor is only moved to where the text can be cut.
-/

namespace DataBinding

/-! ## Cutting text by bytes -/

namespace Text

/-- The two parts of a text before and after an offset in bytes, if that lies between characters. -/
def splitAt? : (offset : Nat) → List Char → Option (List Char × List Char)
  | 0, cs => some ([], cs)
  | _ + 1, [] => none
  | n + 1, c :: cs =>
    if c.utf8Size ≤ n + 1 then
      (splitAt? (n + 1 - c.utf8Size) cs).map fun (front, back) => (c :: front, back)
    else none

/-- The text from an offset on. -/
def sliceFrom? (start : Nat) (cs : List Char) : Option (List Char) :=
  (splitAt? start cs).map (·.2)

/-- The text from one offset up to another. -/
def slice? (start stop : Nat) (cs : List Char) : Option (List Char) :=
  if start ≤ stop then
    (sliceFrom? start cs).bind fun back => (splitAt? (stop - start) back).map (·.1)
  else none

theorem bytes_append (a b : List Char) : bytes (a ++ b) = bytes a + bytes b := by
  induction a with
  | nil => simp [bytes]
  | cons c cs ih =>
    rw [List.cons_append, bytes, bytes, ih]
    omega

theorem bytes_pos {cs : List Char} (h : cs ≠ []) : 0 < bytes cs := by
  cases cs with
  | nil => exact absurd rfl h
  | cons c cs =>
    have hc : 0 < c.utf8Size := c.utf8Size_pos
    rw [bytes]
    omega

theorem utf8Size_of_isDigit {c : Char} (h : isDigit c = true) : c.utf8Size = 1 := by
  rw [isDigit, Bool.and_eq_true, decide_eq_true_eq, decide_eq_true_eq] at h
  exact Char.utf8Size_eq_one_iff.2 (UInt32.le_iff_toNat_le.2 (Nat.le_trans h.2 (by decide)))

theorem splitAt?_append (front back : List Char) :
    splitAt? (bytes front) (front ++ back) = some (front, back) := by
  induction front with
  | nil => cases back <;> rfl
  | cons c cs ih =>
    have hpos : 0 < c.utf8Size := c.utf8Size_pos
    obtain ⟨n, hn⟩ : ∃ n, bytes (c :: cs) = n + 1 := ⟨bytes (c :: cs) - 1, by rw [bytes]; omega⟩
    have hrest : n + 1 - c.utf8Size = bytes cs := by
      rw [← hn, bytes]
      omega
    have hle : c.utf8Size ≤ n + 1 := by
      rw [← hn, bytes]
      omega
    rw [hn, List.cons_append, splitAt?, if_pos hle, hrest, ih]
    rfl

theorem eq_of_splitAt? {n : Nat} {cs front back : List Char}
    (h : splitAt? n cs = some (front, back)) : cs = front ++ back ∧ n = bytes front := by
  fun_induction splitAt? n cs generalizing front with
  | case1 cs =>
    obtain ⟨rfl, rfl⟩ := Prod.mk.inj (Option.some.inj h)
    exact ⟨rfl, rfl⟩
  | case2 => cases h
  | case3 n c cs hle ih =>
    obtain ⟨⟨front', back'⟩, hsplit, heq⟩ := Option.map_eq_some_iff.1 h
    obtain ⟨rfl, rfl⟩ := Prod.mk.inj heq
    obtain ⟨rfl, hn⟩ := ih hsplit
    refine ⟨rfl, ?_⟩
    rw [bytes]
    omega
  | case4 => cases h

theorem isSome_splitAt?_iff {n : Nat} {cs : List Char} :
    (splitAt? n cs).isSome = true ↔ ∃ front back, cs = front ++ back ∧ n = bytes front := by
  constructor
  · intro h
    obtain ⟨⟨front, back⟩, hsplit⟩ := Option.isSome_iff_exists.1 h
    exact ⟨front, back, eq_of_splitAt? hsplit⟩
  · rintro ⟨front, back, rfl, rfl⟩
    rw [splitAt?_append]
    rfl

end Text

namespace Expr

open Text (isBlank isDigit)

/-! ## Scans -/

/-- The text that is scanned. -/
structure Source where
  text : List Char

/-- The cursor as an offset in bytes, how deep the scan is nested, and the operators met so far. -/
structure Scanner where
  offset : Nat
  depth : Nat
  operators : Nat
deriving DecidableEq, Repr

/-- A scan goes on with a result, stops with an error, or has no result. -/
abbrev Scan (α : Type) : Type := StateT Scanner (ExceptT ParseError Option) α

namespace Scan

/-- No result. -/
def stuck {α : Type} : Scan α := fun _ => none

def offset : Scan Nat := fun scanner => some (.ok (scanner.offset, scanner))

def leave : Scan Unit := modify fun scanner => { scanner with depth := scanner.depth - 1 }

/-- The second scan where the first finds nothing. -/
def orElse {α : Type} (first second : Scan (Option α)) : Scan (Option α) := do
  match ← first with
  | some a => return some a
  | none => second

/-- The value of digits with a point among them, or without. -/
def numberOf (cs : List Char) : Value :=
  numberLiteral (cs.takeWhile (· != '.')) ((cs.dropWhile (· != '.')).drop 1)

/-- The levels of operators with two operands, from the loosest. -/
inductive Level where
  | or | and | equality | relation | sum | product
deriving DecidableEq, Repr

end Scan

namespace Source

open Scan (offset)

/-- The error, at the offset of the cursor. -/
def fault (source : Source) {α : Type} (cause : FaultCause) : Scan α := fun scanner =>
  some (.error ⟨cause, scanner.offset, String.ofList source.text⟩)

/-- The cursor is moved to an offset between two characters. -/
def moveTo (source : Source) (offset : Nat) : Scan Unit := fun scanner =>
  (Text.splitAt? offset source.text).map fun _ => .ok ((), { scanner with offset := offset })

theorem isSome_moveTo_iff {source : Source} {n : Nat} {scanner : Scanner} :
    Option.isSome (source.moveTo n scanner) = true ↔
      ∃ front back, source.text = front ++ back ∧ n = Text.bytes front := by
  rw [moveTo, Option.isSome_map, Text.isSome_splitAt?_iff]

/-- The cursor is moved by a number of bytes. -/
def advance (source : Source) (width : Nat) : Scan Unit := do source.moveTo ((← offset) + width)

/-- The text from an offset on. -/
def restFrom (source : Source) (start : Nat) : Scan (List Char) := fun scanner =>
  (Text.sliceFrom? start source.text).map fun rest => .ok (rest, scanner)

/-- The text from an offset up to the cursor. -/
def taken (source : Source) (start : Nat) : Scan (List Char) := fun scanner =>
  (Text.slice? start scanner.offset source.text).map fun cs => .ok (cs, scanner)

def rest (source : Source) : Scan (List Char) := do source.restFrom (← offset)

def peek (source : Source) : Scan (Option Char) := do return (← source.rest).head?

/-! ## Words and symbols -/

/-- The characters with a property are passed, each as wide as given. -/
def skipWhile (source : Source) (p : Char → Bool) (width : Char → Nat) : Scan Unit := do
  match ← source.peek with
  | none => pure ()
  | some c =>
    if p c then
      source.advance (width c)
      source |>.skipWhile p width
    else pure ()
partial_fixpoint

def skipBlanks (source : Source) : Scan Unit := source.skipWhile isBlank Char.utf8Size

/-- The symbol is passed if it comes next. -/
def consume (source : Source) (symbol : List Char) : Scan Bool := do
  if Text.startsWith symbol (← source.rest) then
    source.advance (Text.bytes symbol)
    return true
  else return false

/-- The symbol must come next. -/
def require (source : Source) (c : Char) : Scan Unit := do
  if ← source.consume [c] then pure () else source.fault (.charExpected c)

/-- The name that comes next, empty if there is none. -/
def peekWord (source : Source) : Scan (List Char) := do
  let rest ← source.rest
  match Text.splitAt? (Text.bytes (rest.takeWhile isNameChar)) rest with
  | some (word, _) => pure word
  | none => Scan.stuck

/-- The word is passed if it comes next. -/
def keyword (source : Source) (word : List Char) : Scan Bool := do
  if (← source.peekWord) = word then
    source.advance (Text.bytes word)
    return true
  else return false

/-- The name that must come next. -/
def name (source : Source) : Scan (List Char) := do
  let start ← offset
  source.skipWhile isNameChar Char.utf8Size
  if (← offset) = start then source.fault .nameExpected else source.taken start

/-! ## Literals -/

/-- The digits are passed, which are one byte wide. -/
def skipDigits (source : Source) : Scan Unit := source.skipWhile isDigit fun _ => 1

/-- A point and the digits after it are passed if there are any. -/
def skipFraction (source : Source) : Scan Unit := do
  if (← source.peek) = some '.' then
    if (← source.restFrom ((← offset) + 1)).head?.any isDigit then
      source.advance 1
      source.skipDigits
    else pure ()
  else pure ()

def number (source : Source) : Scan Value := do
  let start ← offset
  source.skipDigits
  source.skipFraction
  return Scan.numberOf (← source.taken start)

/-- The text up to the closing quote, after what was read of it. -/
def quotedAfter (source : Source) (quote : Char) (front : List Char) : Scan (List Char) := do
  match ← source.peek with
  | none => source.fault .unterminatedText
  | some c =>
    source.advance c.utf8Size
    if c = quote then pure front
    else if c = '\\' then
      match ← source.peek with
      | none => source.fault .unterminatedText
      | some d =>
        source.advance d.utf8Size
        source |>.quotedAfter quote (front ++ unescaped d)
    else source |>.quotedAfter quote (front ++ [c])
partial_fixpoint

/-- A text in quotes, the first of which comes next. -/
def quoted (source : Source) (quote : Char) : Scan (List Char) := do
  source.advance 1
  source.quotedAfter quote []

/-! ## Limits -/

def countOperator (source : Source) : Scan Unit := do
  modify fun scanner => { scanner with operators := scanner.operators + 1 }
  if maxOperators < (← get).operators then source.fault .tooManyOperators else pure ()

def enter (source : Source) : Scan Unit := do
  if maxNesting ≤ (← get).depth then source.fault .nestedTooDeeply
  else modify fun scanner => { scanner with depth := scanner.depth + 1 }

/-- A scan one level deeper. -/
@[reducible] def nested (source : Source) {α : Type} (scan : Scan α) : Scan α := do
  source.enter
  let a ← scan
  Scan.leave
  return a

/-! ## Operators -/

/-- The first of some operators that comes next is passed. -/
def symbol (source : Source) : List (List Char × BinaryOp) → Scan (Option Join)
  | [] => pure none
  | (cs, op) :: others => do
    if ← source.consume cs then return some (binary op) else source.symbol others

/-- An operator is passed if its word comes next. -/
def word (source : Source) (w : String) (join : Join) : Scan (Option Join) := do
  return if ← source.keyword w.toList then some join else none

/-- The word `not` is passed, and after it the word `in`. -/
def notThenIn (source : Source) : Scan Bool := do
  if ← source.keyword "not".toList then
    source.skipBlanks
    source.keyword "in".toList
  else return false

/-- The words `not in` are passed if they come next; else the cursor goes back. -/
def notIn (source : Source) : Scan Bool := do
  let start ← offset
  if ← source.notThenIn then return true
  else
    source.moveTo start
    return false

/-- The operators of a level. -/
def operator (source : Source) : Scan.Level → Scan (Option Join)
  | .or => Scan.orElse (source.symbol [(['|', '|'], .or)]) (source.word "or" (binary .or))
  | .and => Scan.orElse (source.symbol [(['&', '&'], .and)]) (source.word "and" (binary .and))
  | .equality =>
    source.symbol [(['=', '=', '='], .strictEq), (['!', '=', '='], .strictNe), (['=', '='], .eq),
      (['!', '='], .ne)]
  | .relation =>
    Scan.orElse
      (Scan.orElse
        (source.symbol [(['<', '='], .le), (['>', '='], .ge), (['<'], .lt), (['>'], .gt)])
        (source.word "in" (membership false)))
      (do return if ← source.notIn then some (membership true) else none)
  | .sum => source.symbol [(['+'], .add), (['-'], .sub)]
  | .product => source.symbol [(['*'], .mul), (['/'], .div), (['%'], .rem)]

/-- The operators with one operand, other than `not`. -/
def unaryOperator (source : Source) : Scan (Option UnaryOp) := do
  if ← source.consume ['!'] then return some .not
  else if ← source.consume ['-'] then return some .neg
  else if ← source.consume ['+'] then return some .plus
  else return none

/-! ## Expressions -/

mutual

/-- A conditional in either order of its parts, or what binds more tightly. -/
def conditional (source : Source) : Scan Expr := do
  let e ← source |>.joined .or
  source.skipBlanks
  if ← source.consume ['?'] then
    let consequent ← source.nested (source |>.conditional)
    source.skipBlanks
    source.require ':'
    let alternate ← source.nested (source |>.conditional)
    return Expr.conditional e consequent alternate
  else if ← source.keyword "if".toList then
    let test ← source |>.joined .or
    source.skipBlanks
    if ← source.keyword "else".toList then
      let alternate ← source.nested (source |>.conditional)
      return Expr.conditional test e alternate
    else source.fault .elseExpected
  else return e
partial_fixpoint

/-- Operands joined by the operators of a level. -/
def joined (source : Source) (level : Scan.Level) : Scan Expr := do
  let left ← source |>.operand level
  source |>.turns level left
partial_fixpoint

/-- The operators of a level that follow `left`, each with its operand. -/
def turns (source : Source) (level : Scan.Level) (left : Expr) : Scan Expr := do
  source.skipBlanks
  match ← source.operator level with
  | none => return left
  | some join =>
    let right ← source |>.operand level
    source.countOperator
    source |>.turns level (join left right)
partial_fixpoint

/-- What the operators of a level join. -/
def operand (source : Source) : Scan.Level → Scan Expr
  | .or => source |>.joined .and
  | .and => source |>.negation
  | .equality => source |>.joined .relation
  | .relation => source |>.joined .sum
  | .sum => source |>.joined .product
  | .product => source |>.unary
partial_fixpoint

/-- The word `not` and its operand, or what binds more tightly. -/
def negation (source : Source) : Scan Expr := do
  source.skipBlanks
  if ← source.keyword "not".toList then
    let e ← source.nested (source |>.negation)
    return Expr.unary .not e
  else source |>.joined .equality
partial_fixpoint

/-- Another unary operator and its operand, or what binds more tightly. -/
def unary (source : Source) : Scan Expr := do
  source.skipBlanks
  match ← source.unaryOperator with
  | some op =>
    let e ← source.nested (source |>.unary)
    return Expr.unary op e
  | none => source |>.suffixed
partial_fixpoint

/-- A primary expression with its members, indices and calls. -/
def suffixed (source : Source) : Scan Expr := do
  let e ← source |>.primary
  source |>.suffixes e
partial_fixpoint

/-- The members, indices and argument lists that follow `object`. -/
def suffixes (source : Source) (object : Expr) : Scan Expr := do
  source.skipBlanks
  if ← source.consume ['.'] then
    source.skipBlanks
    let property ← source.name
    source.countOperator
    source |>.suffixes (member object (String.ofList property))
  else if ← source.consume ['['] then
    let key ← source.nested (source |>.conditional)
    source.skipBlanks
    source.require ']'
    source.countOperator
    source |>.suffixes (index object key)
  else if ← source.consume ['('] then
    let args ← source.nested (source |>.list ')')
    source.countOperator
    source |>.suffixes (call object args)
  else return object
partial_fixpoint

/-- Literals, names, and expressions in brackets. -/
def primary (source : Source) : Scan Expr := do
  source.skipBlanks
  match ← source.peek with
  | none => source.fault .unexpectedEnd
  | some c =>
    if c = '\'' ∨ c = '"' then
      return literal (.text (String.ofList (← source.quoted c)))
    else if isDigit c then
      return literal (← source.number)
    else if ← source.consume ['('] then
      let e ← source.nested (source |>.conditional)
      source.skipBlanks
      source.require ')'
      return e
    else if ← source.consume ['['] then
      let items ← source.nested (source |>.list ']')
      return array items
    else if isNameStart c then
      let word ← source.name
      match wordExpr? (String.ofList word) with
      | some e => return e
      | none => source.fault (.unexpectedKeyword (String.ofList word))
    else source.fault (.unexpectedChar c)
partial_fixpoint

/-- Items separated by commas, up to the closing bracket. -/
def list (source : Source) (close : Char) : Scan (List Expr) := do
  source.skipBlanks
  if ← source.consume [close] then return []
  else source |>.items close
partial_fixpoint

/-- At least one item, up to the closing bracket. -/
def items (source : Source) (close : Char) : Scan (List Expr) := do
  let e ← source |>.conditional
  source.skipBlanks
  if ← source.consume [','] then
    let others ← source |>.items close
    return e :: others
  else
    source.require close
    return [e]
partial_fixpoint

end

/-- The expression that makes up the whole text. -/
def whole (source : Source) : Scan Expr := do
  let e ← source.conditional
  source.skipBlanks
  if Text.bytes source.text ≤ (← offset) then return e else source.fault .trailingInput

end Source

/-- The expression that makes up the whole text, or the place where it goes wrong. -/
def Scan.parse (input : List Char) : Option (Except ParseError Expr) :=
  ((Source.mk input).whole.run ⟨0, 0, 0⟩).run.map (Except.map Prod.fst)

end Expr

end DataBinding
