import DataBinding.Value.Basic

/-!
# The text of a document

Two forms: compact, without any space, and indented, with one element or field to a line.
-/

namespace DataBinding.Value

/-- A hexadecimal digit in lower case. -/
def hexDigit (n : Nat) : Char := Nat.digitChar (n % 16)

/-- A character inside quotes. The quote, the backslash and control characters are escaped. -/
def escaped (c : Char) : List Char :=
  if c = '"' then ['\\', '"']
  else if c = '\\' then ['\\', '\\']
  else if c = '\x08' then ['\\', 'b']
  else if c = '\x0c' then ['\\', 'f']
  else if c = '\n' then ['\\', 'n']
  else if c = '\r' then ['\\', 'r']
  else if c = '\t' then ['\\', 't']
  else if c.toNat < 0x20 then ['\\', 'u', '0', '0', hexDigit (c.toNat / 16), hexDigit c.toNat]
  else [c]

/-- Text in quotes. -/
def quoted (cs : List Char) : List Char := '"' :: cs.flatMap escaped ++ ['"']

/-- A value that is neither an array nor an object; containers have no text here. -/
def scalarText : Value → List Char
  | null => "null".toList
  | bool true => "true".toList
  | bool false => "false".toList
  | number n => n.text
  | text s => quoted s.toList
  | _ => []

mutual

/-- The compact form. -/
def compact : Value → List Char
  | array items => '[' :: compactItems items ++ [']']
  | object fields => '{' :: compactFields fields ++ ['}']
  | v => scalarText v

/-- The elements of an array, separated by commas. -/
def compactItems : List Value → List Char
  | [] => []
  | [v] => compact v
  | v :: rest => compact v ++ ',' :: compactItems rest

/-- The fields of an object, separated by commas. -/
def compactFields : Fields → List Char
  | [] => []
  | [(key, v)] => quoted key.toList ++ ':' :: compact v
  | (key, v) :: rest => quoted key.toList ++ ':' :: compact v ++ ',' :: compactFields rest

end

/-- A line break and two spaces for each level. -/
def lineBreak (level : Nat) : List Char := '\n' :: List.replicate (2 * level) ' '

mutual

/-- The indented form of a value that stands at a level of nesting. -/
def indentedAt (level : Nat) : Value → List Char
  | array [] => ['[', ']']
  | array (v :: rest) =>
    '[' :: lineBreak (level + 1) ++ indentedAt (level + 1) v ++ indentedItems (level + 1) rest ++
      lineBreak level ++ [']']
  | object [] => ['{', '}']
  | object ((key, v) :: rest) =>
    '{' :: lineBreak (level + 1) ++ quoted key.toList ++ ':' :: ' ' :: indentedAt (level + 1) v ++
      indentedFields (level + 1) rest ++ lineBreak level ++ ['}']
  | v => scalarText v

/-- The elements after the first, each after a comma on a line of its own. -/
def indentedItems (level : Nat) : List Value → List Char
  | [] => []
  | v :: rest => ',' :: lineBreak level ++ indentedAt level v ++ indentedItems level rest

/-- The fields after the first, each after a comma on a line of its own. -/
def indentedFields (level : Nat) : Fields → List Char
  | [] => []
  | (key, v) :: rest =>
    ',' :: lineBreak level ++ quoted key.toList ++ ':' :: ' ' :: indentedAt level v ++
      indentedFields level rest

end

/-- The indented form. -/
def indented (v : Value) : List Char := indentedAt 0 v

end DataBinding.Value
