import DataBinding.Proofs.Engine.Flat

/-!
# Traces of patches

The trace of a patch tells everything that happened to the document: taking its steps again leads
from the context to the same document. It tells of each leaf once, in the order of the patch, and
what it tells of a binding depends on the source alone, not on what was written before.

Results:
* `Faithful.applyLeaf`, `Faithful.run`: a leaf and a hook keep a trace faithful.
* `Faithful.foldl_applyLeaf`: the trace of a list of leaves is faithful.
* `applyPatch_faithful`: so is the trace of every patch, and keeping none changes nothing.
-/

namespace DataBinding

namespace Event

/-- The document after the step is taken again. Resolving a binding writes nothing. -/
def replay (document : Value) : Event → Value
  | resolve _ _ => document
  | set path v => Path.update path (some v) document
  | delete path => Path.update path none document
  | recompute _ => Hook.cartTotals.refresh document

/-- The path at which the step writes or deletes, and what it writes there. -/
def write? : Event → Option (String × Option Value)
  | set path v => some (path, some v)
  | delete path => some (path, none)
  | resolve _ _ => none
  | recompute _ => none

theorem replay_ofWrite (path : String) (new : Option Value) (document : Value) :
    replay document (ofWrite path new) = Path.update path new document := by
  cases new <;> rfl

theorem write?_ofWrite (path : String) (new : Option Value) :
    write? (ofWrite path new) = some (path, new) := by
  cases new <;> rfl

theorem ofWrite_ne_resolve (path : String) (new : Option Value) (reference : String)
    (resolved : Option Value) :
    ofWrite path new ≠ resolve reference resolved := by
  cases new <;> exact Event.noConfusion

end Event

namespace Patch

/-- The leaves of a patch; what is no object has none. -/
def leavesOf : Value → Fields
  | .object fields => flatten fields
  | _ => []

end Patch

namespace Engine

variable (engine : Engine) (source : Value)

/-! ## The steps of one leaf -/

theorem foldl_replay_steps (leaf : String × Value) (document : Value) :
    (engine.steps source leaf).foldl Event.replay document =
      engine.writeLeaf source document leaf := by
  rw [writeLeaf, steps]
  cases Binding.ofValue? leaf.2 with
  | none => exact Event.replay_ofWrite leaf.1 _ document
  | some b => exact Event.replay_ofWrite leaf.1 _ document

theorem filterMap_write?_steps (leaf : String × Value) :
    (engine.steps source leaf).filterMap Event.write? =
      [(leaf.1, engine.written source leaf.2)] := by
  have hw := Event.write?_ofWrite leaf.1 (engine.written source leaf.2)
  rw [steps]
  cases Binding.ofValue? leaf.2 with
  | none => rw [List.filterMap_cons_some hw, List.filterMap_nil]
  | some b => rw [List.filterMap_cons_none rfl, List.filterMap_cons_some hw, List.filterMap_nil]

/-- Each resolved binding in the trace is one of the leaves, has the value that it resolves to
    without frames or fallback, and the next step writes that value at the path of the leaf. -/
def Answered (leaves : Fields) (events : List Event) : Prop :=
  ∀ i reference resolved, events[i]? = some (.resolve reference resolved) →
    ∃ leaf ∈ leaves, ∃ b, Binding.ofValue? leaf.2 = some b ∧ b.reference = reference ∧
      engine.resolve ⟨source, []⟩ none leaf.2 = resolved ∧
      events[i + 1]? = some (.ofWrite leaf.1 resolved)

variable {engine source}

theorem Answered.append {leaves : Fields} {events more : List Event}
    (h : engine.Answered source leaves events) (hmore : engine.Answered source leaves more) :
    engine.Answered source leaves (events ++ more) := by
  intro i reference resolved hi
  rcases Nat.lt_or_ge i events.length with hlt | hge
  · rw [List.getElem?_append_left hlt] at hi
    obtain ⟨leaf, hmem, b, hb, hr, hv, hnext⟩ := h i reference resolved hi
    obtain ⟨hlt', -⟩ := List.getElem?_eq_some_iff.1 hnext
    refine ⟨leaf, hmem, b, hb, hr, hv, ?_⟩
    rw [List.getElem?_append_left hlt', hnext]
  · rw [List.getElem?_append_right hge] at hi
    obtain ⟨leaf, hmem, b, hb, hr, hv, hnext⟩ := hmore _ reference resolved hi
    refine ⟨leaf, hmem, b, hb, hr, hv, ?_⟩
    rw [List.getElem?_append_right (by omega), ← hnext]
    congr 1
    omega

theorem Answered.mono {leaves others : Fields} {events : List Event}
    (h : engine.Answered source leaves events) (hsub : leaves ⊆ others) :
    engine.Answered source others events := by
  intro i reference resolved hi
  obtain ⟨leaf, hmem, rest⟩ := h i reference resolved hi
  exact ⟨leaf, hsub hmem, rest⟩

/-- Steps that resolve nothing ask for no answer. -/
theorem answered_singleton {leaves : Fields} {event : Event}
    (h : ∀ reference resolved, event ≠ .resolve reference resolved) :
    engine.Answered source leaves [event] := by
  intro i reference resolved hi
  cases i with
  | zero => exact absurd (Option.some.inj hi) (h reference resolved)
  | succ i => cases hi

variable (engine source) in
theorem answered_steps (leaf : String × Value) :
    engine.Answered source [leaf] (engine.steps source leaf) := by
  have hwrite := Event.ofWrite_ne_resolve leaf.1 (engine.written source leaf.2)
  rw [steps]
  cases hb : Binding.ofValue? leaf.2 with
  | none => exact answered_singleton fun reference resolved => hwrite reference resolved
  | some b =>
    intro i reference resolved hi
    cases i with
    | zero =>
      obtain ⟨hreference, hresolved⟩ := Event.resolve.inj (Option.some.inj hi)
      refine ⟨leaf, List.mem_singleton_self leaf, b, hb, hreference, ?_, ?_⟩
      · rw [← hresolved, resolve, written, hb]
      · rw [← hresolved]
        rfl
    | succ i =>
      cases i with
      | zero => exact absurd (Option.some.inj hi) (hwrite reference resolved)
      | succ i => cases hi

/-! ## Faithful traces -/

variable (engine source) in
/-- The trace of `p` tells how its document came out of the context: by writing the leaves. -/
structure Faithful (context : Value) (leaves : Fields) (p : Patched) : Prop where
  /-- Taking the steps again leads to the document. -/
  replayed : p.trace.foldl Event.replay context = p.document
  /-- There is one write for each leaf, in their order. -/
  writes : p.trace.filterMap Event.write? =
    leaves.map fun leaf => (leaf.1, engine.written source leaf.2)
  /-- What was resolved is written next. -/
  answered : engine.Answered source leaves p.trace

namespace Faithful

variable {context : Value} {leaves : Fields} {p : Patched}

variable (engine source context) in
theorem nil : engine.Faithful source context [] ⟨context, []⟩ where
  replayed := rfl
  writes := rfl
  answered := by
    intro i reference resolved hi
    cases hi

/-- One more leaf: the document moves on as the steps of the leaf say. -/
theorem applyLeaf (h : engine.Faithful source context leaves p) (leaf : String × Value) :
    engine.Faithful source context (leaves ++ [leaf]) (engine.applyLeaf source p leaf) where
  replayed := by
    rw [Engine.applyLeaf, List.foldl_append, h.replayed, foldl_replay_steps]
  writes := by
    rw [Engine.applyLeaf, List.filterMap_append, h.writes, filterMap_write?_steps,
      List.map_append, List.map_singleton]
  answered := by
    have hold := h.answered.mono (List.subset_append_left leaves [leaf])
    have hnew := (answered_steps engine source leaf).mono (List.subset_append_right leaves [leaf])
    exact hold.append hnew

/-- A hook leaves a step only if it recomputes something, and then the step does the same. -/
theorem run (h : engine.Faithful source context leaves p) (hook : Hook) :
    engine.Faithful source context leaves (p.run hook) := by
  cases hook with
  | cartTotals =>
    cases hr : Hook.cartTotals.recompute? p.document with
    | none =>
      rw [Patched.run, hr]
      exact h
    | some document =>
      rw [Patched.run, hr]
      refine ⟨?_, ?_, ?_⟩
      · show (p.trace ++ [_]).foldl Event.replay context = document
        rw [List.foldl_append, h.replayed, List.foldl_cons, List.foldl_nil, Event.replay,
          Hook.refresh, hr, Option.getD_some]
      · show (p.trace ++ [_]).filterMap Event.write? = _
        rw [List.filterMap_append, h.writes, List.filterMap_cons_none rfl, List.filterMap_nil,
          List.append_nil]
      · exact h.answered.append (answered_singleton fun _ _ he => Event.noConfusion he)

theorem foldl_run (h : engine.Faithful source context leaves p) (hooks : List Hook) :
    engine.Faithful source context leaves (hooks.foldl Patched.run p) := by
  induction hooks generalizing p with
  | nil => exact h
  | cons hook rest ih => exact ih (h.run hook)

theorem foldl_applyLeaf (h : engine.Faithful source context leaves p) (more : Fields) :
    engine.Faithful source context (leaves ++ more)
      (more.foldl (engine.applyLeaf source) p) := by
  induction more generalizing leaves p with
  | nil =>
    rw [List.append_nil]
    exact h
  | cons leaf rest ih =>
    have hrest := ih (h.applyLeaf leaf)
    rw [List.append_assoc, List.singleton_append] at hrest
    exact hrest

end Faithful

variable (engine)

/-- The trace of a patch is faithful to the context and the source. No record changes nothing, and
    what is no object leaves no step. -/
theorem applyPatch_faithful (context patch : Value) (source : Option Value) :
    engine.Faithful (source.getD context) context (Patch.leavesOf patch)
        (engine.applyPatch context patch source) ∧
      engine.patch context patch source = (engine.applyPatch context patch source).document ∧
      (patch.object? = none → (engine.applyPatch context patch source).trace = []) := by
  refine ⟨?_, engine.patch_eq_document context patch source, ?_⟩
  · cases patch with
    | object fields =>
      rw [applyPatch_eq]
      exact ((Faithful.nil engine (source.getD context) context).foldl_applyLeaf _).foldl_run _
    | null | bool b | number n | text s | array items => exact .nil engine _ context
  · intro hp
    rw [applyPatch_of_not_object engine hp]

end Engine

end DataBinding
