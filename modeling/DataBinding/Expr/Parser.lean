import DataBinding.Expr.Cursor
import DataBinding.Decimal.Numeral

/-!
# Parsing expressions

Operators group by precedence, from the loosest: conditional, or, and, `not`, equality, relation
and membership, sum, product, the other unary operators, and members, indices and calls. Each
level reads operands of the next tighter one; only brackets, branches and unary operators nest.

What may nest is handed down as a `Nesting`, so that each level is an ordinary function and the
depth of nesting is the number of times `Nesting.deeper` was applied.

Results:
* `parseText_ok`, `parse_ok`: an expression is accepted only if nothing but blanks is left.
-/

namespace DataBinding.Expr

/-- The readers for the places that nest. -/
structure Nesting where
  conditional : Reader Expr
  negation : Reader Expr
  unary : Reader Expr
  items : (close : Char) → Reader (List Expr)

/-- The deepest nesting of brackets, branches and unary operators. -/
def maxNesting : Nat := 64

/-! ## Literals -/

/-- The value of a double literal: an overflow leaves `null`. -/
def floatLiteral (d : Decimal) : Value :=
  match d.toDouble false with
  | .finite x => .number (.float x)
  | _ => .null

/-- The value of digits with an optional fraction. Digits alone are an integer if it fits 64 bits
    with a sign. -/
def numberLiteral (whole fraction : List Char) : Value :=
  if fraction.isEmpty && Text.digitsValue whole < signBit then
    .number (.integer (Text.digitsValue whole))
  else floatLiteral (Decimal.ofDigits whole fraction 0)

/-- A number at the front of a text. A point belongs to it only if a digit follows. -/
def takeNumber (cs : List Char) : Value × List Char :=
  let (whole, rest) := Decimal.takeDigits cs
  match rest with
  | '.' :: tail =>
    let (fraction, after) := Decimal.takeDigits tail
    if fraction.isEmpty then (numberLiteral whole [], rest)
    else (numberLiteral whole fraction, after)
  | _ => (numberLiteral whole [], rest)

/-- The words that are operators and cannot be names. -/
def operatorWords : List String := ["and", "or", "not", "in", "if", "else"]

/-- The expression that a word is: a literal or a name, unless it is an operator. -/
def wordExpr? (word : String) : Option Expr :=
  if word = "true" ∨ word = "True" then some (literal (.bool true))
  else if word = "false" ∨ word = "False" then some (literal (.bool false))
  else if word = "null" ∨ word = "None" then some (literal .null)
  else if word = "undefined" then some undefined
  else if word ∈ operatorWords then none
  else some (ident word)

/-! ## The levels of precedence -/

/-- Literals, names, and expressions in brackets. -/
def primary (inner : Nesting) : Reader Expr := fun cursor =>
  let cursor := cursor.skipBlanks
  match cursor.rest with
  | [] => fail .unexpectedEnd []
  | c :: tail =>
    if c = '\'' ∨ c = '"' then
      match takeQuoted c tail with
      | some (s, rest) => .ok (literal (.text (String.ofList s)), { cursor with rest := rest })
      | none => fail .unterminatedText []
    else if Text.isDigit c then
      let (v, rest) := takeNumber (c :: tail)
      .ok (literal v, { cursor with rest := rest })
    else if c = '(' then do
      let (e, cursor) ← inner.conditional { cursor with rest := tail }
      let rest ← expect ')' cursor.skipBlanks.rest
      .ok (e, { cursor with rest := rest })
    else if c = '[' then do
      let (items, cursor) ← inner.items ']' { cursor with rest := tail }
      .ok (array items, cursor)
    else if isNameStart c then
      let (word, rest) := takeName (c :: tail)
      match wordExpr? (String.ofList word) with
      | some e => .ok (e, { cursor with rest := rest })
      | none => fail (.unexpectedKeyword (String.ofList word)) rest
    else fail (.unexpectedChar c) (c :: tail)

/-- One member, index or argument list after `object`, if there is one. -/
def suffix? (inner : Nesting) (object : Expr) : Reader (Option Expr) := fun cursor =>
  let cursor := cursor.skipBlanks
  match cursor.rest with
  | '.' :: tail => do
    let (name, rest) := takeName (Text.trimStart tail)
    if name.isEmpty then fail .nameExpected rest
    else do
      let cursor ← Cursor.countOperator { cursor with rest := rest }
      .ok (some (member object (String.ofList name)), cursor)
  | '[' :: tail => do
    let (key, cursor) ← inner.conditional { cursor with rest := tail }
    let rest ← expect ']' cursor.skipBlanks.rest
    let cursor ← Cursor.countOperator { cursor with rest := rest }
    .ok (some (index object key), cursor)
  | '(' :: tail => do
    let (args, cursor) ← inner.items ')' { cursor with rest := tail }
    let cursor ← cursor.countOperator
    .ok (some (call object args), cursor)
  | _ => .ok (none, cursor)

/-- All members, indices and argument lists after `object`. Each is counted as an operator, so
    `fuel` beyond the number of operators allowed is never used. -/
def suffixes (inner : Nesting) : (fuel : Nat) → Expr → Reader Expr
  | 0, _, cursor => fail .tooManyOperators cursor.rest
  | fuel + 1, object, cursor => do
    match ← suffix? inner object cursor with
    | (none, cursor) => .ok (object, cursor)
    | (some e, cursor) => suffixes inner fuel e cursor

/-- A primary expression with its members, indices and calls. -/
def suffixed (inner : Nesting) : Reader Expr := fun cursor => do
  let (e, cursor) ← primary inner cursor
  suffixes inner (maxOperators + 1) e cursor

/-- The unary operators other than `not`. -/
def unaryOperator? : List Char → Option (UnaryOp × List Char)
  | '!' :: rest => some (.not, rest)
  | '-' :: rest => some (.neg, rest)
  | '+' :: rest => some (.plus, rest)
  | _ => none

/-- A unary operator and its operand, or what binds more tightly. -/
def unaryLevel (inner : Nesting) : Reader Expr := fun cursor =>
  let cursor := cursor.skipBlanks
  match unaryOperator? cursor.rest with
  | some (op, rest) => do
    let (operand, cursor) ← inner.unary { cursor with rest := rest }
    .ok (unary op operand, cursor)
  | none => suffixed inner cursor

/-- How an operator joins its two operands. -/
abbrev Join := Expr → Expr → Expr

/-- What follows an operator at the front of a text, and how it joins its operands. -/
abbrev OperatorTable := List Char → Option (Join × List Char)

/-- The operands after `left`, grouped from the left. Each operator is counted, so `fuel` beyond
    the number of operators allowed is never used. -/
def chain (operator? : OperatorTable) (operand : Reader Expr) : (fuel : Nat) → Expr → Reader Expr
  | 0, _, cursor => fail .tooManyOperators cursor.rest
  | fuel + 1, left, cursor =>
    let cursor := cursor.skipBlanks
    match operator? cursor.rest with
    | none => .ok (left, cursor)
    | some (join, rest) => do
      let (right, cursor) ← operand { cursor with rest := rest }
      let cursor ← cursor.countOperator
      chain operator? operand fuel (join left right) cursor

/-- Operands joined by operators of one precedence. -/
def operatorLevel (operator? : OperatorTable) (operand : Reader Expr) : Reader Expr :=
  fun cursor => do
    let (left, cursor) ← operand cursor
    chain operator? operand (maxOperators + 1) left cursor

/-- The first of some operators that is at the front of a text, by its symbol. -/
def symbols (ops : List (List Char × BinaryOp)) : OperatorTable := fun cs =>
  ops.findSome? fun (symbol, op) => (Text.dropPrefix? symbol cs).map fun rest => (binary op, rest)

/-- An operator by its word. -/
def word (w : String) (join : Join) : OperatorTable := fun cs =>
  (keyword? w.toList cs).map fun rest => (join, rest)

def productOperator? : OperatorTable :=
  symbols [(['*'], .mul), (['/'], .div), (['%'], .rem)]

def sumOperator? : OperatorTable := symbols [(['+'], .add), (['-'], .sub)]

/-- What follows the words `not in`. -/
def notIn? (cs : List Char) : Option (List Char) :=
  (keyword? "not".toList cs).bind fun rest => keyword? "in".toList (Text.trimStart rest)

def relationOperator? : OperatorTable := fun cs =>
  (symbols [(['<', '='], .le), (['>', '='], .ge), (['<'], .lt), (['>'], .gt)] cs)
    |>.or (word "in" (membership false) cs)
    |>.or ((notIn? cs).map fun rest => (membership true, rest))

def equalityOperator? : OperatorTable :=
  symbols [(['=', '=', '='], .strictEq), (['!', '=', '='], .strictNe), (['=', '='], .eq),
    (['!', '='], .ne)]

def andOperator? : OperatorTable := fun cs =>
  (symbols [(['&', '&'], .and)] cs).or (word "and" (binary .and) cs)

def orOperator? : OperatorTable := fun cs =>
  (symbols [(['|', '|'], .or)] cs).or (word "or" (binary .or) cs)

def productLevel (inner : Nesting) : Reader Expr :=
  operatorLevel productOperator? (unaryLevel inner)

def sumLevel (inner : Nesting) : Reader Expr := operatorLevel sumOperator? (productLevel inner)

def relationLevel (inner : Nesting) : Reader Expr :=
  operatorLevel relationOperator? (sumLevel inner)

def equalityLevel (inner : Nesting) : Reader Expr :=
  operatorLevel equalityOperator? (relationLevel inner)

/-- The word `not` and its operand, which may be a comparison, or what binds more tightly. -/
def notLevel (inner : Nesting) : Reader Expr := fun cursor =>
  let cursor := cursor.skipBlanks
  match keyword? "not".toList cursor.rest with
  | some rest => do
    let (operand, cursor) ← inner.negation { cursor with rest := rest }
    .ok (unary .not operand, cursor)
  | none => equalityLevel inner cursor

def andLevel (inner : Nesting) : Reader Expr := operatorLevel andOperator? (notLevel inner)

def orLevel (inner : Nesting) : Reader Expr := operatorLevel orOperator? (andLevel inner)

/-- The branches after a condition and its question mark. -/
def branches (inner : Nesting) (test : Expr) : Reader Expr := fun cursor => do
  let (consequent, cursor) ← inner.conditional cursor
  let rest ← expect ':' cursor.skipBlanks.rest
  let (alternate, cursor) ← inner.conditional { cursor with rest := rest }
  .ok (conditional test consequent alternate, cursor)

/-- The condition and the other branch after a branch and the word `if`. -/
def condition (inner : Nesting) (consequent : Expr) : Reader Expr := fun cursor => do
  let (test, cursor) ← orLevel inner cursor
  let cursor := cursor.skipBlanks
  match keyword? "else".toList cursor.rest with
  | some rest =>
    let (alternate, cursor) ← inner.conditional { cursor with rest := rest }
    .ok (conditional test consequent alternate, cursor)
  | none => fail .elseExpected cursor.rest

/-- A conditional in either order of its parts, or what binds more tightly. -/
def conditionalLevel (inner : Nesting) : Reader Expr := fun cursor => do
  let (e, cursor) ← orLevel inner cursor
  let cursor := cursor.skipBlanks
  match Text.dropPrefix? ['?'] cursor.rest with
  | some rest => branches inner e { cursor with rest := rest }
  | none =>
    match keyword? "if".toList cursor.rest with
    | some rest => condition inner e { cursor with rest := rest }
    | none => .ok (e, cursor)

/-- The rest of a list of at least one item, up to its closing bracket. Each item takes at least one
    character, so `fuel` beyond the length of the text is never used. -/
def moreItems (item : Reader Expr) (close : Char) : (fuel : Nat) → Reader (List Expr)
  | 0, cursor => fail .unexpectedEnd cursor.rest
  | fuel + 1, cursor => do
    let (e, cursor) ← item cursor
    let cursor := cursor.skipBlanks
    match Text.dropPrefix? [','] cursor.rest with
    | some rest =>
      let (es, cursor) ← moreItems item close fuel { cursor with rest := rest }
      .ok (e :: es, cursor)
    | none =>
      let rest ← expect close cursor.rest
      .ok ([e], { cursor with rest := rest })

/-- Items separated by commas, up to the closing bracket. -/
def itemList (item : Reader Expr) (close : Char) : Reader (List Expr) := fun cursor =>
  let cursor := cursor.skipBlanks
  match Text.dropPrefix? [close] cursor.rest with
  | some rest => .ok ([], { cursor with rest := rest })
  | none => moreItems item close (cursor.rest.length + 1) cursor

/-! ## Nesting -/

namespace Nesting

/-- Nothing may nest. -/
def forbidden : Nesting where
  conditional cursor := fail .nestedTooDeeply cursor.rest
  negation cursor := fail .nestedTooDeeply cursor.rest
  unary cursor := fail .nestedTooDeeply cursor.rest
  items _ cursor := fail .nestedTooDeeply cursor.rest

/-- What `inner` allows may nest one level deeper. -/
def deeper (inner : Nesting) : Nesting where
  conditional := conditionalLevel inner
  negation := notLevel inner
  unary := unaryLevel inner
  items := itemList (conditionalLevel inner)

/-- Nesting of at most `depth` levels. -/
def upTo : (depth : Nat) → Nesting
  | 0 => forbidden
  | depth + 1 => deeper (upTo depth)

end Nesting

/-- The expression that makes up the whole text. -/
def parseText (cs : List Char) : Except Fault Expr := do
  let (e, cursor) ← conditionalLevel (.upTo maxNesting) ⟨cs, 0⟩
  let cursor := cursor.skipBlanks
  if cursor.rest.isEmpty then .ok e else fail .trailingInput cursor.rest

theorem parseText_ok {cs : List Char} {e : Expr} (h : parseText cs = .ok e) :
    ∃ cursor, conditionalLevel (.upTo maxNesting) ⟨cs, 0⟩ = .ok (e, cursor) ∧
      cursor.skipBlanks.rest = [] := by
  unfold parseText at h
  cases hc : conditionalLevel (.upTo maxNesting) ⟨cs, 0⟩ with
  | error fault => simp [hc, bind, Except.bind] at h
  | ok r =>
    obtain ⟨e', cursor⟩ := r
    simp only [hc, bind, Except.bind] at h
    split at h
    · rename_i hr
      obtain rfl := Except.ok.inj h
      exact ⟨cursor, rfl, by simpa using hr⟩
    · simp [fail] at h

/-- Why a text is no expression: the cause, its place in bytes, and the text. -/
structure ParseError where
  cause : FaultCause
  offset : Nat
  input : String
deriving DecidableEq, Repr

/-- The expression that makes up the whole text, or the place where it goes wrong. -/
def parse (input : List Char) : Except ParseError Expr :=
  match parseText input with
  | .ok e => .ok e
  | .error fault =>
    .error ⟨fault.cause, Text.bytes input - Text.bytes fault.rest, String.ofList input⟩

theorem parse_ok {input : List Char} {e : Expr} (h : parse input = .ok e) :
    ∃ cursor, conditionalLevel (.upTo maxNesting) ⟨input, 0⟩ = .ok (e, cursor) ∧
      cursor.skipBlanks.rest = [] := by
  rw [parse] at h
  split at h
  · rename_i htext
    rw [← Except.ok.inj h]
    exact parseText_ok htext
  · cases h

end DataBinding.Expr
