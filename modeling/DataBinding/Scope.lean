import DataBinding.Frame

/-!
# Scopes

The variables of an expression: the top-level fields of a context document, and in front of them
the names that frames give.

Results:
* `lookup?_bind_self`, `lookup?_bind_of_ne`: a new name hides an older one and no other.
-/

namespace DataBinding

/-- The variables of an expression. Among the local ones the newest comes first. -/
structure Scope where
  locals : Fields
  globals : Fields
deriving Repr

namespace Scope

/-- The fields of a context document. A context that is no object has none. -/
def ofContext (context : Value) : Scope := ⟨[], context.object?.getD []⟩

/-- The scope with one more local variable. -/
def bind (name : String) (value : Value) (scope : Scope) : Scope :=
  { scope with locals := (name, value) :: scope.locals }

/-- The scope with the names of a frame: its item, its place and the number of items. -/
def enter (default : String) (scope : Scope) (frame : Frame) : Scope :=
  let scope := scope.bind (frame.name default) frame.item
  let scope := match frame.index with
    | some n => scope.bind (frame.indexName default) (.ofNat n)
    | none => scope
  match frame.total with
  | some n => scope.bind (frame.totalName default) (.ofNat n)
  | none => scope

/-- The fields of a context and the names of frames, inner frames hiding outer ones. -/
def ofFrames (context : Value) (frames : List Frame) (default : String) : Scope :=
  frames.foldl (enter default) (ofContext context)

/-- The value of a variable. -/
def lookup? (name : String) (scope : Scope) : Option Value :=
  (Fields.get? name scope.locals).or (Fields.get? name scope.globals)

theorem lookup?_bind_self (name : String) (value : Value) (scope : Scope) :
    lookup? name (scope.bind name value) = some value := by
  simp [lookup?, bind, Fields.get?]

theorem lookup?_bind_of_ne {name other : String} (h : other ≠ name) (value : Value)
    (scope : Scope) : lookup? other (scope.bind name value) = lookup? other scope := by
  simp [lookup?, bind, Fields.get?, Ne.symm h]

end Scope

end DataBinding
