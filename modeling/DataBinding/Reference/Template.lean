import DataBinding.Text.Search
import DataBinding.Text.Blank

/-!
# Templates

A template is text with segments `${…}` in it. A segment runs from `${` to the next `}` and is not
empty; anything else is plain text.

Results:
* `unparse_parts`: the parts of a text, written one after the other, are the text.
-/

namespace DataBinding

/-- A part of a template. -/
inductive Part where
  | text (cs : List Char)
  | expr (body : List Char)
deriving DecidableEq, Repr

/-- A part as it is written in a template. -/
def Part.unparse : Part → List Char
  | .text cs => cs
  | .expr body => '$' :: '{' :: body ++ ['}']

namespace Template

/-- A text as parts: none if it is empty. -/
def textPart (cs : List Char) : List Part := if cs.isEmpty then [] else [.text cs]

/-- The parts of a text whose first characters, `passed`, have been searched already. An empty
    `${}` is passed by one character. -/
def partsFrom (passed cs : List Char) : List Part :=
  match hopen : Text.cut? ['$', '{'] cs with
  | none => textPart (passed ++ cs)
  | some (front, inside) =>
    have : 2 + inside.length ≤ cs.length := Text.length_of_cut? hopen
    match hclose : Text.cut? ['}'] inside with
    | none => textPart (passed ++ cs)
    | some ([], _) => partsFrom (passed ++ front ++ ['$']) ('{' :: inside)
    | some (c :: body, after) =>
      have : 1 + after.length ≤ inside.length := Text.length_of_cut? hclose
      textPart (passed ++ front) ++ .expr (c :: body) :: partsFrom [] after
termination_by cs.length
decreasing_by
  · rw [List.length_cons]
    omega
  · omega

/-- The parts of a text: its segments from left to right, and the text between them. -/
def parts (cs : List Char) : List Part := partsFrom [] cs

/-- The parts written one after the other. -/
def unparse (parts : List Part) : List Char := parts.flatMap Part.unparse

theorem unparse_textPart (cs : List Char) : unparse (textPart cs) = cs := by
  cases cs <;> simp [textPart, unparse, Part.unparse]

theorem unparse_partsFrom (passed cs : List Char) : unparse (partsFrom passed cs) = passed ++ cs := by
  fun_induction partsFrom passed cs with
  | case1 passed cs hopen => exact unparse_textPart _
  | case2 passed cs front inside hopen _ hclose => exact unparse_textPart _
  | case3 passed cs front inside hopen _ after hclose ih =>
    rw [ih, Text.eq_of_cut? hopen]
    simp
  | case4 passed cs front inside hopen _ c body after hclose _ ih =>
    rw [unparse, List.flatMap_append, List.flatMap_cons, ← unparse, unparse_textPart, ← unparse, ih,
      Text.eq_of_cut? hopen, Text.eq_of_cut? hclose]
    simp [Part.unparse]

theorem unparse_parts (cs : List Char) : unparse (parts cs) = cs := unparse_partsFrom [] cs

/-- The text with each segment replaced by what `eval` gives for its body, blanks aside. -/
def render (eval : List Char → List Char) (parts : List Part) : List Char :=
  parts.flatMap fun
    | .text cs => cs
    | .expr body => eval (Text.trim body)

end Template

end DataBinding
