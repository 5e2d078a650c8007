import DataBinding.Engine.Patch

/-!
# Flat patches

An object in a patch stands for its fields unless it is a binding, and so do the objects below it.
What is left are the leaves of the patch: bindings, arrays and scalars, each with the path that the
keys above it make up. Applying a patch writes its leaves one after the other, whatever the nesting
they came from.

Results:
* `flatten_flatten`: a patch of leaves is its own flat form.
* `applyFields_eq`, `applyPatch_eq`: the walk through a patch applies its leaves in order.
* `patch_eq_document`: so it does when no record is kept.
* `applyPatch_flatten`: a patch and its flat form do the same, which is to write the leaves.
-/

namespace DataBinding

namespace Patch

/-! ## Leaves -/

mutual

/-- The leaves of an entry of a patch, with their paths. -/
def leaves (path : String) : Value → Fields
  | .object fields =>
    match Binding.ofFields? fields with
    | some _ => [(path, .object fields)]
    | none => leavesBelow path fields
  | v => [(path, v)]

/-- The leaves of the fields of an object at a path. -/
def leavesBelow (path : String) : Fields → Fields
  | [] => []
  | (key, v) :: rest => leaves (Engine.fieldPath path key) v ++ leavesBelow path rest

end

/-- The fields of a patch in flat form: its leaves under their paths. The patch itself is always
    taken apart; only what stands under one of its keys can be a binding. -/
def flatten (fields : Fields) : Fields := leavesBelow "" fields

/-- The value is written as a whole: it is a binding, or no object. -/
def isLeaf (v : Value) : Bool := v.object?.all fun fields => (Binding.ofFields? fields).isSome

theorem isLeaf_object (fields : Fields) :
    isLeaf (.object fields) = (Binding.ofFields? fields).isSome := rfl

theorem leaves_of_isLeaf {v : Value} (h : isLeaf v = true) (path : String) :
    leaves path v = [(path, v)] := by
  cases v with
  | object fields =>
    obtain ⟨b, hb⟩ := Option.isSome_iff_exists.1 h
    rw [leaves, hb]
  | null | bool b | number n | text s | array items => rfl

mutual

theorem isLeaf_of_mem_leaves (path : String) :
    ∀ v : Value, ∀ leaf ∈ leaves path v, isLeaf leaf.2 = true
  | .object fields, leaf, h => by
    rw [leaves] at h
    cases hb : Binding.ofFields? fields with
    | some b =>
      rw [hb] at h
      rw [List.mem_singleton.1 h, isLeaf_object, hb]
      rfl
    | none =>
      rw [hb] at h
      exact isLeaf_of_mem_leavesBelow path fields leaf h
  | .null, leaf, h | .bool _, leaf, h | .number _, leaf, h | .text _, leaf, h
  | .array _, leaf, h => by
    rw [leaves_of_isLeaf rfl, List.mem_singleton] at h
    rw [h]
    rfl

theorem isLeaf_of_mem_leavesBelow (path : String) :
    ∀ fields : Fields, ∀ leaf ∈ leavesBelow path fields, isLeaf leaf.2 = true
  | [], leaf, h => by cases h
  | (key, v) :: rest, leaf, h => by
    rw [leavesBelow, List.mem_append] at h
    rcases h with h | h
    · exact isLeaf_of_mem_leaves _ v leaf h
    · exact isLeaf_of_mem_leavesBelow path rest leaf h

end

theorem flatten_of_leaves {fields : Fields} (h : ∀ leaf ∈ fields, isLeaf leaf.2 = true) :
    flatten fields = fields := by
  induction fields with
  | nil => rfl
  | cons leaf rest ih =>
    obtain ⟨path, v⟩ := leaf
    have hv : leaves (Engine.fieldPath "" path) v = [(path, v)] :=
      leaves_of_isLeaf (h (path, v) (by simp)) path
    have hrest : leavesBelow "" rest = rest := ih fun leaf hl => h leaf (by simp [hl])
    rw [flatten, leavesBelow, hv, hrest]
    rfl

theorem flatten_flatten (fields : Fields) : flatten (flatten fields) = flatten fields :=
  flatten_of_leaves (isLeaf_of_mem_leavesBelow "" fields)

end Patch

/-! ## Steps -/

/-- The step that writes a value at a path, or deletes there if there is none. -/
def Event.ofWrite (path : String) (new : Option Value) : Event :=
  match new with
  | some v => .set path v
  | none => .delete path

theorem Patched.write_eq (path : String) (new : Option Value) (p : Patched) :
    p.write path new = ⟨Path.update path new p.document, p.trace ++ [.ofWrite path new]⟩ := by
  cases new <;> rfl

namespace Engine

open Patch (leaves leavesBelow flatten)

variable (engine : Engine) (source : Value)

/-- What a leaf stands for: a binding for its value, which may be absent, all else for itself. -/
def written (leaf : Value) : Option Value :=
  match Binding.ofValue? leaf with
  | some b => engine.resolveBinding ⟨source, []⟩ none b
  | none => some leaf

/-- The document with a leaf written at its path. -/
def writeLeaf (document : Value) (leaf : String × Value) : Value :=
  Path.update leaf.1 (engine.written source leaf.2) document

/-- The steps that a leaf takes: a binding is resolved first. -/
def steps (leaf : String × Value) : List Event :=
  match Binding.ofValue? leaf.2 with
  | some b =>
    [.resolve b.reference (engine.written source leaf.2),
      .ofWrite leaf.1 (engine.written source leaf.2)]
  | none => [.ofWrite leaf.1 (engine.written source leaf.2)]

/-- A leaf applied: it is written, and its steps are recorded. -/
def applyLeaf (p : Patched) (leaf : String × Value) : Patched :=
  ⟨engine.writeLeaf source p.document leaf, p.trace ++ engine.steps source leaf⟩

theorem applyEntry_of_isLeaf {leaf : Value} (h : Patch.isLeaf leaf = true) (path : String)
    (p : Patched) :
    engine.applyEntry source path leaf p =
      (leaves path leaf).foldl (engine.applyLeaf source) p := by
  rw [Patch.leaves_of_isLeaf h, List.foldl_cons, List.foldl_nil]
  cases leaf with
  | object fields =>
    obtain ⟨b, hb⟩ := Option.isSome_iff_exists.1 h
    have hv : Binding.ofValue? (.object fields) = some b := hb
    rw [applyEntry, hb]
    simp only [writeBinding, Patched.write_eq, Patched.record, applyLeaf, writeLeaf, steps, written,
      hv, List.append_assoc, List.cons_append, List.nil_append]
  | null | bool b | number n | text s | array items => rfl

mutual

/-- An entry of a patch applies its leaves in order. -/
theorem applyEntry_eq (path : String) : ∀ (v : Value) (p : Patched),
    engine.applyEntry source path v p = (leaves path v).foldl (engine.applyLeaf source) p
  | .object fields, p => by
    cases hb : Binding.ofFields? fields with
    | some b =>
      have hleaf : Patch.isLeaf (.object fields) = true := by rw [Patch.isLeaf_object, hb]; rfl
      exact engine.applyEntry_of_isLeaf source hleaf path p
    | none =>
      rw [applyEntry, leaves, hb]
      exact applyFields_eq path fields p
  | .null, p | .bool _, p | .number _, p | .text _, p | .array _, p =>
    engine.applyEntry_of_isLeaf source rfl path p

theorem applyFields_eq (path : String) : ∀ (fields : Fields) (p : Patched),
    engine.applyFields source path fields p =
      (leavesBelow path fields).foldl (engine.applyLeaf source) p
  | [], _ => rfl
  | (key, v) :: rest, p => by
    rw [applyFields, applyFields_eq path rest, applyEntry_eq (fieldPath path key) v p,
      leavesBelow, List.foldl_append]

end

theorem foldl_applyLeaf_document (leaves : Fields) (p : Patched) :
    (leaves.foldl (engine.applyLeaf source) p).document =
      leaves.foldl (engine.writeLeaf source) p.document := by
  induction leaves generalizing p with
  | nil => rfl
  | cons leaf rest ih => rw [List.foldl_cons, ih, List.foldl_cons, applyLeaf]

/-! ## Without a record -/

theorem patchEntry_of_isLeaf {leaf : Value} (h : Patch.isLeaf leaf = true) (path : String)
    (document : Value) :
    engine.patchEntry source path leaf document =
      (leaves path leaf).foldl (engine.writeLeaf source) document := by
  rw [Patch.leaves_of_isLeaf h, List.foldl_cons, List.foldl_nil]
  cases leaf with
  | object fields =>
    obtain ⟨b, hb⟩ := Option.isSome_iff_exists.1 h
    have hv : Binding.ofValue? (.object fields) = some b := hb
    rw [patchEntry, hb, writeLeaf, written, hv]
  | null | bool b | number n | text s | array items => rfl

mutual

theorem patchEntry_eq (path : String) : ∀ v document : Value,
    engine.patchEntry source path v document =
      (leaves path v).foldl (engine.writeLeaf source) document
  | .object fields, document => by
    cases hb : Binding.ofFields? fields with
    | some b =>
      have hleaf : Patch.isLeaf (.object fields) = true := by rw [Patch.isLeaf_object, hb]; rfl
      exact engine.patchEntry_of_isLeaf source hleaf path document
    | none =>
      rw [patchEntry, leaves, hb]
      exact patchFields_eq path fields document
  | .null, document | .bool _, document | .number _, document | .text _, document
  | .array _, document => engine.patchEntry_of_isLeaf source rfl path document

theorem patchFields_eq (path : String) : ∀ (fields : Fields) (document : Value),
    engine.patchFields source path fields document =
      (leavesBelow path fields).foldl (engine.writeLeaf source) document
  | [], _ => rfl
  | (key, v) :: rest, document => by
    rw [patchFields, patchFields_eq path rest, patchEntry_eq (fieldPath path key) v document,
      leavesBelow, List.foldl_append]

end

/-! ## Whole patches -/

theorem run_document (p : Patched) (hook : Hook) :
    (p.run hook).document = hook.refresh p.document := by
  rw [Patched.run, Hook.refresh]
  cases hook.recompute? p.document <;> rfl

theorem foldl_run_document (hooks : List Hook) (p : Patched) :
    (hooks.foldl Patched.run p).document =
      hooks.foldl (fun document hook => hook.refresh document) p.document := by
  induction hooks generalizing p with
  | nil => rfl
  | cons hook rest ih => rw [List.foldl_cons, List.foldl_cons, ih, run_document]

theorem applyPatch_eq (context : Value) (fields : Fields) (source : Option Value) :
    engine.applyPatch context (.object fields) source =
      engine.hooks.foldl Patched.run
        ((flatten fields).foldl (engine.applyLeaf (source.getD context)) ⟨context, []⟩) := by
  rw [applyPatch, applyFields_eq]
  rfl

/-- Keeping no record leads to the same document. -/
theorem patch_eq_document (context patch : Value) (source : Option Value) :
    engine.patch context patch source = (engine.applyPatch context patch source).document := by
  cases patch with
  | object fields =>
    rw [Engine.patch, patchFields_eq, applyPatch_eq, foldl_run_document, foldl_applyLeaf_document]
    rfl
  | null | bool b | number n | text s | array items => rfl

/-- A patch and its flat form lead to the same document by the same steps, also if a path occurs
    more than once. The document is the context with the leaves of the patch written in their order,
    refreshed by the hooks. -/
theorem applyPatch_flatten (context : Value) (fields : Fields) (source : Option Value) :
    engine.applyPatch context (.object (flatten fields)) source =
        engine.applyPatch context (.object fields) source ∧
      (engine.applyPatch context (.object fields) source).document =
        engine.hooks.foldl (fun document hook => hook.refresh document)
          ((flatten fields).foldl (engine.writeLeaf (source.getD context)) context) := by
  constructor
  · rw [applyPatch_eq, applyPatch_eq, Patch.flatten_flatten]
  · rw [applyPatch_eq, foldl_run_document, foldl_applyLeaf_document]

end Engine

end DataBinding
