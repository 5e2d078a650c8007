import DataBinding.Reference.Template
import DataBinding.Text.Blank

/-!
# References

A reference says where the value of a binding comes from. It is a plain path, an expression in a
single `${…}` or bare, or a template.

Results:
* `classify_of_no_segment`: text without segments is a single reference.
-/

namespace DataBinding

/-- A reference by its form. -/
inductive Reference where
  /-- Text with segments in it. -/
  | template (parts : List Part)
  /-- A path or an expression, in a `${…}` or bare. -/
  | single (cs : List Char)
deriving DecidableEq, Repr

namespace Reference

/-- The part is a segment. -/
def isSegment : Part → Bool
  | .expr _ => true
  | .text _ => false

/-- The text is one segment, blanks around it aside. -/
def isWhole (cs : List Char) : Bool :=
  let trimmed := Text.trim cs
  Text.startsWith ['$', '{'] trimmed && trimmed.getLast? == some '}' &&
    !(trimmed.drop 2).dropLast.contains '}'

/-- The form of a reference. Text without segments is a single reference, and so is a segment that
    makes up the whole text. -/
def classify (cs : List Char) : Reference :=
  let parts := Template.parts cs
  match parts.countP isSegment with
  | 0 => .single cs
  | 1 => if isWhole cs then .single cs else .template parts
  | _ => .template parts

theorem classify_of_no_segment {cs : List Char} (h : (Template.parts cs).countP isSegment = 0) :
    classify cs = .single cs := by
  simp [classify, h]

/-- The text after `${`, or after a bare `$`, if it starts with one. -/
def dropOpening (cs : List Char) : List Char :=
  ((Text.dropPrefix? ['$', '{'] cs).or (Text.dropPrefix? ['$'] cs)).getD cs

/-- The text before a closing `}`, if it ends with one. -/
def dropClosing (cs : List Char) : List Char :=
  if cs.getLast? = some '}' then cs.dropLast else cs

/-- A single reference without its `${…}` or its `$`, and without blanks around it. -/
def normalize (cs : List Char) : List Char :=
  Text.trim (dropClosing (dropOpening (Text.trim cs)))

/-! ## Paths and expressions -/

/-- Words and calls that only expressions hold. -/
def markers : List (List Char) :=
  ["str(", "len(", " in ", " and ", " or "].map String.toList

/-- Characters that only expressions hold. -/
def operatorChars : List Char := "+-*/%!=<>&|?:'\"`()[]".toList

/-- The text holds ` if ` and, from there on, ` else `. -/
def hasBranches (cs : List Char) : Bool :=
  ((Text.findFrom? " if ".toList cs).map (Text.occursIn " else ".toList)).getD false

/-- A normalized reference is an expression, and not a path. -/
def looksLikeExpression (cs : List Char) : Bool :=
  markers.any (Text.occursIn · cs) || Text.startsWith "not ".toList cs || hasBranches cs ||
    cs.any (operatorChars.contains ·)

end Reference

end DataBinding
