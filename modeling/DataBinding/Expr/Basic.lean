import DataBinding.Value.Basic
import DataBinding.Text.Alphabetic
import DataBinding.Text.Numeric

/-!
# Expressions

The syntax trees of binding expressions. An operator has one node whichever of its spellings is
used in the text.

Results:
* `isNameChar_of_isNameStart`: a name may go on with whatever may start one.
-/

namespace DataBinding

/-- The operators with one operand. -/
inductive UnaryOp where
  | not
  | neg
  | plus
deriving DecidableEq, Repr

/-- The operators with two operands, except membership. -/
inductive BinaryOp where
  | or
  | and
  | strictEq
  | strictNe
  | eq
  | ne
  | lt
  | le
  | gt
  | ge
  | add
  | sub
  | mul
  | div
  | rem
deriving DecidableEq, Repr

/-- An expression. -/
inductive Expr where
  | literal (v : Value)
  | undefined
  | array (items : List Expr)
  | ident (name : String)
  | member (object : Expr) (property : String)
  | index (object : Expr) (key : Expr)
  | call (callee : Expr) (args : List Expr)
  | unary (op : UnaryOp) (operand : Expr)
  | binary (op : BinaryOp) (left : Expr) (right : Expr)
  | membership (negated : Bool) (needle : Expr) (haystack : Expr)
  | conditional (test : Expr) (consequent : Expr) (alternate : Expr)
deriving Repr

/-- The character may start a name. -/
def isNameStart (c : Char) : Bool := c == '_' || c == '$' || Text.isAlphabetic c

/-- The character may stand in a name. -/
def isNameChar (c : Char) : Bool :=
  c == '_' || c == '$' || Text.isAlphabetic c || Text.isNumeric c

theorem isNameChar_of_isNameStart {c : Char} (h : isNameStart c = true) : isNameChar c = true := by
  simp only [isNameStart, isNameChar, Bool.or_eq_true] at *
  exact .inl h

end DataBinding
