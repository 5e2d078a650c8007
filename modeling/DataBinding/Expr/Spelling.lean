import DataBinding.Expr.Parser
import DataBinding.Expr.Printer

/-!
# Respelling expressions

An expression may be written with words (`a if b else c`, `x not in y`) or with symbols. Respelling
gives the form with symbols.
-/

namespace DataBinding.Expr

/-- The text of an expression in its form with symbols; a text that is no expression is left as it
    is, blanks included. -/
def respell (input : List Char) : List Char :=
  match parse (Text.trim input) with
  | .ok e => e.text
  | .error _ => input

end DataBinding.Expr
