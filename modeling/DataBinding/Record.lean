import DataBinding.Frame

/-!
# Records in documents

A frame or a configuration is written in a document as an object, or as an array of its fields in
order. Fields that are missing take their defaults; unknown keys are ignored, but an array must not
be too long.

Results:
* `members?_length`: a record has all its fields, present or not.
-/

namespace DataBinding

/-- The fields of a record by name or by position, each of which may be missing. -/
def members? (names : List String) : Value → Option (List (Option Value))
  | .object fields => some (names.map fun name => Fields.get? name fields)
  | .array items =>
    if items.length ≤ names.length then some ((List.range names.length).map (items[·]?)) else none
  | _ => none

theorem members?_length {names : List String} {v : Value} {members : List (Option Value)}
    (h : members? names v = some members) : members.length = names.length := by
  cases v <;> simp only [members?] at h
  case object => simp [← Option.some.inj h]
  case array =>
    split at h
    · simp [← Option.some.inj h]
    · simp at h
  all_goals simp at h

/-- A text, or the default if it is missing. -/
def textMember? (default : String) : Option Value → Option String
  | none => some default
  | some (.text s) => some s
  | some _ => none

/-- A truth value, or the default if it is missing. -/
def boolMember? (default : Bool) : Option Value → Option Bool
  | none => some default
  | some (.bool b) => some b
  | some _ => none

/-- A count of at most 64 bits, which may be missing or `null`. -/
def countMember? : Option Value → Option (Option Nat)
  | none | some .null => some none
  | some (.number (.integer n)) =>
    if 0 ≤ n ∧ n < wordBound then some (some n.toNat) else none
  | some _ => none

namespace Frame

/-- The names of the fields of a frame, in order. -/
def memberNames : List String := ["alias", "item", "index", "total"]

/-- The frame that a document describes. -/
def ofValue? (v : Value) : Option Frame :=
  match members? memberNames v with
  | some [aliasText, item, index, total] => do
    let aliasText ← textMember? "" aliasText
    let index ← countMember? index
    let total ← countMember? total
    some ⟨aliasText, item.getD .null, index, total⟩
  | _ => none

/-- The frames that a document lists, from the outermost to the innermost. -/
def listOfValue? : Value → Option (List Frame)
  | .array items => items.mapM ofValue?
  | _ => none

/-- The frame as an object, without what it does not know. -/
def toValue (frame : Frame) : Value :=
  .object (
    [("alias", .text frame.aliasText), ("item", frame.item)] ++
    (frame.index.map fun n => ("index", .ofNat n)).toList ++
    (frame.total.map fun n => ("total", .ofNat n)).toList)

/-- A frame without a place. -/
def named (name : String) (item : Value) : Frame := ⟨name, item, none, none⟩

/-- The frame with a place among a number of items. -/
def placed (frame : Frame) (index total : Nat) : Frame :=
  { frame with index := some index, total := some total }

end Frame

end DataBinding
