import DataBinding.Expr.Basic
import DataBinding.Text.Blank
import DataBinding.Text.Search

/-!
# Reading the text of an expression from the front

A cursor holds the text that is left and the number of operators met so far. A fault remembers the
text that was left where it arose, which gives its place.

Results:
* `bind_eq_ok`: two steps succeed if the first does and then the second.
* `takeName_append`: the name taken and the rest make up the text.
* `keyword?_eq_some`: a keyword is taken only as a whole word.
-/

namespace DataBinding.Expr

/-- Why a text is no expression. -/
inductive FaultCause where
  | nameExpected
  | charExpected (c : Char)
  | elseExpected
  | unterminatedText
  | unexpectedEnd
  | unexpectedKeyword (word : String)
  | unexpectedChar (c : Char)
  | trailingInput
  | nestedTooDeeply
  | tooManyOperators
deriving DecidableEq, Repr

/-- A cause, and the text that was left where it arose. -/
structure Fault where
  cause : FaultCause
  rest : List Char
deriving DecidableEq, Repr

/-- The text that is left, and the number of operators met so far. -/
structure Cursor where
  rest : List Char
  operators : Nat
deriving DecidableEq, Repr

/-- A reader takes a part of the text, or fails. -/
abbrev Reader (α : Type) := Cursor → Except Fault (α × Cursor)

/-- Reading fails with a cause where `rest` is left. -/
def fail {α : Type} (cause : FaultCause) (rest : List Char) : Except Fault α := .error ⟨cause, rest⟩

theorem ok_bind {ε α β : Type} (a : α) (f : α → Except ε β) : (Except.ok a >>= f) = f a := rfl

theorem bind_eq_ok {ε α β : Type} {x : Except ε α} {f : α → Except ε β} {b : β} :
    (x >>= f) = .ok b ↔ ∃ a, x = .ok a ∧ f a = .ok b := by
  cases x with
  | error e => simp [bind, Except.bind]
  | ok a => simp [bind, Except.bind]

/-! ## Words and symbols -/

/-- The name at the front of a text, empty if there is none, and what follows it. -/
def takeName (cs : List Char) : List Char × List Char :=
  (cs.takeWhile isNameChar, cs.dropWhile isNameChar)

theorem takeName_append (cs : List Char) : (takeName cs).1 ++ (takeName cs).2 = cs :=
  List.takeWhile_append_dropWhile

/-- What follows a keyword at the front of a text. A longer word that starts like the keyword is
    not one. -/
def keyword? (word : List Char) (cs : List Char) : Option (List Char) :=
  if (takeName cs).1 = word then some (takeName cs).2 else none

theorem keyword?_eq_some {word cs rest : List Char} (h : keyword? word cs = some rest) :
    cs = word ++ rest := by
  simp only [keyword?] at h
  split at h
  · rename_i hw
    rw [← takeName_append cs, hw, Option.some.inj h]
  · simp at h

/-- What follows a character that must come next. -/
def expect (c : Char) (rest : List Char) : Except Fault (List Char) :=
  match Text.dropPrefix? [c] rest with
  | some rest => .ok rest
  | none => fail (.charExpected c) rest

/-- The most operators in one expression. -/
def maxOperators : Nat := 256

/-- The cursor after one more operator, if there may be one more. -/
def Cursor.countOperator (cursor : Cursor) : Except Fault Cursor :=
  if cursor.operators < maxOperators then .ok { cursor with operators := cursor.operators + 1 }
  else fail .tooManyOperators cursor.rest

/-- The cursor with the blanks at the front skipped. -/
def Cursor.skipBlanks (cursor : Cursor) : Cursor :=
  { cursor with rest := Text.trimStart cursor.rest }

/-! ## Text literals -/

/-- The characters that an escape stands for; an unknown escape stands for itself. -/
def unescaped (c : Char) : List Char :=
  if c = 'n' then ['\n']
  else if c = 't' then ['\t']
  else if c = 'r' then ['\r']
  else if c = '\\' ∨ c = '"' ∨ c = '\'' then [c]
  else ['\\', c]

/-- The text up to the closing quote, and what follows it; nothing if the quote is missing. -/
def takeQuoted (quote : Char) : List Char → Option (List Char × List Char)
  | [] => none
  | c :: cs =>
    if c = quote then some ([], cs)
    else if c = '\\' then
      match cs with
      | [] => none
      | d :: ds => (takeQuoted quote ds).map fun (text, rest) => (unescaped d ++ text, rest)
    else (takeQuoted quote cs).map fun (text, rest) => (c :: text, rest)

end DataBinding.Expr
