import DataBinding.Path.Basic
import DataBinding.Text.Blank

/-!
# Iteration frames

While a list is rendered, a frame gives a name to the current item and says where it stands. Frames
nest: a list of frames goes from the outermost to the innermost.

Results:
* `lookup?_append`: inner frames hide those around them.
-/

namespace DataBinding

/-- One level of iteration. -/
structure Frame where
  /-- The alias as it was given, blanks included; it may be missing altogether. -/
  aliasText : String
  item : Value
  index : Option Nat
  total : Option Nat
deriving Repr

namespace Frame

/-- The name of the item: the alias without blanks around it, or `default` if nothing is left. -/
def name (frame : Frame) (default : String) : String :=
  let cs := Text.trim frame.aliasText.toList
  if cs.isEmpty then default else String.ofList cs

/-- The name of the item's place. -/
def indexName (frame : Frame) (default : String) : String := frame.name default ++ "Index"

/-- The name of the number of items. -/
def totalName (frame : Frame) (default : String) : String := frame.name default ++ "Total"

/-! ## Looking up paths -/

/-- What one frame says about a path: nothing, or a value that may be absent. The frame knows its
    item under its name, parts of the item, its place and the number of items. -/
def find? (default : String) (path : String) (frame : Frame) : Option (Option Value) :=
  let name := frame.name default
  if path = name then some (some frame.item)
  else match Text.dropPrefix? (name.toList ++ ['.']) path.toList with
    | some rest => some (Path.get? (String.ofList rest) frame.item)
    | none =>
      if path = name ++ "Index" ∨ path = "index" then
        frame.index.map fun n => some (.ofNat n)
      else if path = name ++ "Total" ∨ path = name ++ "Length" ∨ path = "total" ∨
          path = "length" then
        frame.total.map fun n => some (.ofNat n)
      else none

/-- What the innermost frame that knows the path says about it. -/
def lookup? (default : String) (frames : List Frame) (path : String) : Option (Option Value) :=
  if path.isEmpty then none else frames.reverse.findSome? (find? default path)

/-- Inner frames hide those around them from the paths that they know. -/
theorem lookup?_append (default path : String) (outer inner : List Frame) :
    lookup? default (outer ++ inner) path =
      (lookup? default inner path).or (lookup? default outer path) := by
  unfold lookup?
  split
  · rfl
  · rw [List.reverse_append, List.findSome?_append]

end Frame

end DataBinding
