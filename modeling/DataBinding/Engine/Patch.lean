import DataBinding.Engine.Resolve
import DataBinding.Engine.Hook

/-!
# Patches

A patch is an object of writes by path, nested as one likes. It is applied to a copy of the
context: bindings in it are resolved against the source, which is the context as it was unless the
caller gives another; a binding without a value deletes. Then the hooks run. Every step is
recorded, unless the caller wants the context alone.

Results:
* `applyPatch_of_not_object`: what is no object changes nothing.
-/

namespace DataBinding

/-- One step of applying a patch. -/
inductive Event where
  | resolve (reference : String) (resolved : Option Value)
  | set (path : String) (value : Value)
  | delete (path : String)
  | recompute (hook : String)
deriving Repr

/-- An event as an object. -/
def Event.toValue : Event → Value
  | resolve reference resolved =>
    .object [("action", .text "resolve"), ("reference", .text reference),
      ("resolved", resolved.getD .null)]
  | set path value => .object [("action", .text "set"), ("path", .text path), ("value", value)]
  | delete path => .object [("action", .text "delete"), ("path", .text path)]
  | recompute hook => .object [("action", .text "recompute"), ("hook", .text hook)]

/-- A document part way through a patch, and the steps taken so far. -/
structure Patched where
  document : Value
  trace : List Event
deriving Repr

namespace Patched

/-- The same document, with one more step. -/
def record (event : Event) (p : Patched) : Patched := { p with trace := p.trace ++ [event] }

/-- Writes a value at a path, or deletes there if there is none. -/
def write (path : String) (new : Option Value) (p : Patched) : Patched :=
  let event := match new with
    | some v => .set path v
    | none => .delete path
  { p.record event with document := Path.update path new p.document }

/-- Runs a hook; it leaves a step only if it had something to recompute. -/
def run (p : Patched) (hook : Hook) : Patched :=
  match hook.recompute? p.document with
  | some document => { p.record (.recompute hook.name) with document := document }
  | none => p

end Patched

namespace Engine

/-- The path of a field in an object at a path. -/
def fieldPath (path key : String) : String := if path.isEmpty then key else path ++ "." ++ key

variable (engine : Engine) (source : Value)

/-- Writes the value of a binding at a path. -/
def writeBinding (path : String) (b : Binding) (p : Patched) : Patched :=
  let resolved := engine.resolveBinding ⟨source, []⟩ none b
  (p.record (.resolve b.reference resolved)).write path resolved

mutual

/-- Applies one entry of a patch. An object that is no binding stands for its fields. -/
def applyEntry (path : String) : Value → Patched → Patched
  | .object fields, p =>
    match Binding.ofFields? fields with
    | some b => engine.writeBinding source path b p
    | none => applyFields path fields p
  | v, p => p.write path (some v)

/-- Applies the fields of an object at a path, in order. -/
def applyFields (path : String) : Fields → Patched → Patched
  | [], p => p
  | (key, v) :: rest, p => applyFields path rest (applyEntry (fieldPath path key) v p)

end

/-- The context after a patch, and the steps that led there. -/
def applyPatch (context patch : Value) (source : Option Value) : Patched :=
  match patch with
  | .object fields =>
    engine.hooks.foldl Patched.run
      (engine.applyFields (source.getD context) "" fields ⟨context, []⟩)
  | _ => ⟨context, []⟩

/-! ## Without a record -/

mutual

/-- Writes one entry of a patch into a document, keeping no record. -/
def patchEntry (path : String) : Value → Value → Value
  | .object fields, document =>
    match Binding.ofFields? fields with
    | some b => Path.update path (engine.resolveBinding ⟨source, []⟩ none b) document
    | none => patchFields path fields document
  | v, document => Path.update path (some v) document

/-- Writes the fields of an object at a path into a document, in order. -/
def patchFields (path : String) : Fields → Value → Value
  | [], document => document
  | (key, v) :: rest, document =>
    patchFields path rest (patchEntry (fieldPath path key) v document)

end

/-- The context after a patch, for callers that want no record of the steps. -/
def patch (context patch : Value) (source : Option Value) : Value :=
  match patch with
  | .object fields =>
    engine.hooks.foldl (fun document hook => hook.refresh document)
      (engine.patchFields (source.getD context) "" fields context)
  | _ => context

theorem applyPatch_of_not_object {patch : Value} (h : patch.object? = none) (context : Value)
    (source : Option Value) : engine.applyPatch context patch source = ⟨context, []⟩ := by
  cases patch <;> simp_all [applyPatch, Value.object?]

end Engine

end DataBinding
