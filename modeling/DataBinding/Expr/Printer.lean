import DataBinding.Expr.Basic
import DataBinding.Double.Display
import DataBinding.Value.Printer

/-!
# The text of an expression

Each node has one text, with the symbolic spelling of its operator; membership is written as a call
of `includes`, and the functions `len` and `str` as `.length` and `String`. An operand is put in
parentheses if it binds less tightly than its place asks for.

Results:
* `text_literal_text`: a text literal is written in single quotes.
-/

namespace DataBinding

/-- How tightly an operator binds. -/
def BinaryOp.precedence : BinaryOp → Nat
  | .or => 2
  | .and => 3
  | .strictEq | .strictNe | .eq | .ne => 4
  | .lt | .le | .gt | .ge => 5
  | .add | .sub => 6
  | .mul | .div | .rem => 7

def BinaryOp.symbol : BinaryOp → List Char
  | .or => ['|', '|']
  | .and => ['&', '&']
  | .strictEq => ['=', '=', '=']
  | .strictNe => ['!', '=', '=']
  | .eq => ['=', '=']
  | .ne => ['!', '=']
  | .lt => ['<']
  | .le => ['<', '=']
  | .gt => ['>']
  | .ge => ['>', '=']
  | .add => ['+']
  | .sub => ['-']
  | .mul => ['*']
  | .div => ['/']
  | .rem => ['%']

def UnaryOp.symbol : UnaryOp → Char
  | .not => '!'
  | .neg => '-'
  | .plus => '+'

namespace Expr

/-- The precedence of a unary operator's operand. -/
def unaryPrecedence : Nat := 8

/-- The precedence of what a member, an index or arguments may follow. -/
def suffixPrecedence : Nat := 9

/-- The precedence of what needs no parentheses anywhere. -/
def primaryPrecedence : Nat := 10

/-- How tightly the text of an expression binds. A conditional brings its own parentheses, and a
    negated membership starts with a unary operator. -/
def precedence : Expr → Nat
  | binary op _ _ => op.precedence
  | unary _ _ => unaryPrecedence
  | membership negated _ _ => if negated then unaryPrecedence else suffixPrecedence
  | member _ _ | index _ _ | call _ _ => suffixPrecedence
  | conditional _ _ _ | literal _ | undefined | array _ | ident _ => primaryPrecedence

/-- The text of an expression in a place that asks for a precedence. -/
def enclose (least : Nat) (e : Expr) (text : List Char) : List Char :=
  if e.precedence < least then '(' :: text ++ [')'] else text

/-- A character between single quotes. -/
def escapedChar (c : Char) : List Char :=
  if c = '\'' then ['\\', '\'']
  else if c = '\\' then ['\\', '\\']
  else if c = '\n' then ['\\', 'n']
  else if c = '\t' then ['\\', 't']
  else if c = '\r' then ['\\', 'r']
  else [c]

/-- Text in single quotes. -/
def quotedText (cs : List Char) : List Char := '\'' :: cs.flatMap escapedChar ++ ['\'']

/-- The text of a literal. -/
def literalText : Value → List Char
  | .text s => quotedText s.toList
  | .number n => n.toDouble.displayText
  | v => v.compact

/-- A property that is all digits is written as an index, any other after a point. -/
def propertyText (property : String) : List Char :=
  if property.toList.all Text.isDigit then '[' :: property.toList ++ [']']
  else '.' :: property.toList

/-- The text of a call, from the texts of its callee and of its arguments. -/
def callText (callee : Expr) (calleeText : List Char) (count : Nat) (argsText : List Char) :
    List Char :=
  match callee with
  | ident "len" =>
    if count = 1 then '(' :: argsText ++ ").length".toList
    else calleeText ++ '(' :: argsText ++ [')']
  | ident "str" => "String(".toList ++ argsText ++ [')']
  | _ => enclose suffixPrecedence callee calleeText ++ '(' :: argsText ++ [')']

def undefinedText : List Char := "undefined".toList

/-- What stands between the two sides of a membership. -/
def includesText : List Char := ").includes(".toList

mutual

/-- The text of an expression, without parentheses around it. -/
def text : Expr → List Char
  | literal v => literalText v
  | undefined => undefinedText
  | array items => '[' :: argsText items ++ [']']
  | ident name => name.toList
  | member object property => enclose suffixPrecedence object (text object) ++ propertyText property
  | index object key => enclose suffixPrecedence object (text object) ++ '[' :: text key ++ [']']
  | call callee args => callText callee (text callee) args.length (argsText args)
  | unary op operand => op.symbol :: enclose unaryPrecedence operand (text operand)
  | binary op left right =>
    enclose op.precedence left (text left) ++ ' ' :: op.symbol ++
      ' ' :: enclose (op.precedence + 1) right (text right)
  | membership negated needle haystack =>
    (if negated then ['!'] else []) ++ '(' :: text haystack ++ includesText ++ text needle ++ [')']
  | conditional test consequent alternate =>
    '(' :: enclose BinaryOp.or.precedence test (text test) ++ ' ' :: '?' :: ' ' ::
      text consequent ++ ' ' :: ':' :: ' ' :: text alternate ++ [')']

/-- The texts of arguments or elements, separated by commas. -/
def argsText : List Expr → List Char
  | [] => []
  | [e] => text e
  | e :: rest => text e ++ ',' :: ' ' :: argsText rest

end

theorem text_literal_text (s : String) : text (literal (.text s)) = quotedText s.toList := by
  simp [text, literalText]

end Expr

end DataBinding
