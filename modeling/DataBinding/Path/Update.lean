import DataBinding.Path.Basic

/-!
# Writing at a path

A write creates the objects and arrays that are missing on the way; a deletion creates nothing.
Where the way is barred the write stops: at a value that holds no parts, at an array under a
segment that is no index, and past the end of an array by more than the padding allowed. What the
write has created up to there stays.

Results:
* `update_nil`: the empty path changes nothing.
* `pad?_of_lt`: an array is padded only if the index lies past its end.
* `length_of_pad?`: padding makes the index addressable.
-/

namespace DataBinding.Path

/-- The most elements by which an index may lie past the end of an array. -/
def maxPadding : Nat := 1024

/-- The elements, padded with `null` so that `index` is one of theirs; nothing if the gap is too
    wide. -/
def pad? (items : List Value) (index : Nat) : Option (List Value) :=
  if index < items.length then some items
  else if index - items.length ≤ maxPadding then
    some (items ++ List.replicate (index + 1 - items.length) .null)
  else none

theorem pad?_of_lt {items : List Value} {index : Nat} (h : index < items.length) :
    pad? items index = some items := by simp [pad?, h]

theorem length_of_pad? {items padded : List Value} {index : Nat}
    (h : pad? items index = some padded) : index < padded.length := by
  simp only [pad?] at h
  split at h
  · simp_all
  · split at h
    · obtain rfl := Option.some.inj h
      simp; omega
    · simp at h

/-- The empty container in which a segment can be written. -/
def emptyFor (segment : String) : Value := if isIndex segment then .array [] else .object []

/-- The value to write into for the next segment: a container as it is, anything else replaced. -/
def containerFor (next : String) (v : Value) : Value := if v.isContainer then v else emptyFor next

/-- The value with `new` under its segment, or without that part if there is no `new`. -/
def writeChild (new : Option Value) (segment : String) : Value → Value
  | .object fields =>
    match new with
    | some w => .object (Fields.insert segment w fields)
    | none => .object (Fields.erase segment fields)
  | .array items =>
    match index? segment with
    | none => .array items
    | some index =>
      match new with
      | some w => .array (((pad? items index).map (·.set index w)).getD items)
      | none => .array (items.eraseIdx index)
  | v => v

/-- The value with `new` where the segments lead, or without that part if there is no `new`. A
    part on the way that is missing, or that is no container, gives way to an empty container;
    a deletion stops there instead. -/
def write (new : Option Value) : List String → Value → Value
  | [], v => v
  | [segment], v => writeChild new segment v
  | segment :: next :: rest, v =>
    let child := (child? segment v).getD .null
    if new.isNone && !child.isContainer then v
    else writeChild (some (write new (next :: rest) (containerFor next child))) segment v

/-- The document after writing at a path, or after deleting there if there is no new value. -/
def update (path : String) (new : Option Value) (document : Value) : Value :=
  write new (segments path) document

theorem update_nil (new : Option Value) (document : Value) : update "" new document = document :=
  rfl

end DataBinding.Path
