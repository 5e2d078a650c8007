import DataBinding.Proofs.Engine.Flat
import DataBinding.Proofs.Path.Diverging

/-!
# What a patch leaves untouched

A patch changes nothing but what it names. What stands at a path that diverges from the paths of
all leaves, and from the two paths of the derived total, is there after the patch as before, also
if a leaf is barred or replaces containers on its way. Deletions of elements are set apart: the
elements after them move.

Results:
* `get?_foldl_writeLeaf_of_diverge`: the leaves of a patch, one after the other.
* `get?_withTotal_of_diverge`, `get?_refresh_of_diverge`: the hooks.
* `get?_applyPatch_of_diverge`: a whole patch.
-/

namespace DataBinding

open DataBinding.Path (Diverge segments)

section Untouched

variable {path : String} (hlength : (segments path).getLast? ≠ some "length")
include hlength

/-! ## Hooks -/

section Hooks

variable (htotal : Diverge (segments CartTotals.totalPath) (segments path))
  (hformatted : Diverge (segments CartTotals.formattedPath) (segments path))
include htotal hformatted

theorem CartTotals.get?_withTotal_of_diverge {context w : Value} (t : Double)
    (hw : Path.get? path context = some w) :
    Path.get? path (withTotal t context) = some w := by
  have hsum : Path.get? path (Path.update totalPath (some (.ofDouble t)) context) = some w :=
    Path.get?_update_of_diverge (fun _ => htotal) (fun hnone => by cases hnone) hlength hw
  exact Path.get?_update_of_diverge (fun _ => hformatted) (fun hnone => by cases hnone) hlength hsum

theorem Hook.get?_refresh_of_diverge {context w : Value} (hook : Hook)
    (hw : Path.get? path context = some w) :
    Path.get? path (hook.refresh context) = some w := by
  cases hook with
  | cartTotals =>
    rw [refresh, recompute?, CartTotals.recompute?]
    cases CartTotals.items? context with
    | none => exact hw
    | some items =>
      exact CartTotals.get?_withTotal_of_diverge hlength htotal hformatted (CartTotals.total items) hw

theorem Hook.get?_foldl_refresh_of_diverge {context w : Value} (hooks : List Hook)
    (hw : Path.get? path context = some w) :
    Path.get? path (hooks.foldl (fun document hook => hook.refresh document) context) = some w := by
  induction hooks generalizing context with
  | nil => exact hw
  | cons hook rest ih => exact ih (hook.get?_refresh_of_diverge hlength htotal hformatted hw)

end Hooks

/-! ## Patches -/

namespace Engine

variable (engine : Engine)

/-- The induction is on the leaves: each of them finds the path as the ones before left it. -/
theorem get?_foldl_writeLeaf_of_diverge (source : Value) {leaves : Fields} {document w : Value}
    (hleaves : ∀ leaf ∈ leaves, leaf.1 ≠ "" → Diverge (segments leaf.1) (segments path))
    (hdeleted : ∀ leaf ∈ leaves, engine.written source leaf.2 = none →
      ∀ segment ∈ (segments leaf.1).getLast?, Path.isIndex segment = false)
    (hw : Path.get? path document = some w) :
    Path.get? path (leaves.foldl (engine.writeLeaf source) document) = some w := by
  induction leaves generalizing document with
  | nil => exact hw
  | cons leaf rest ih =>
    have hfirst : Path.get? path (engine.writeLeaf source document leaf) = some w :=
      Path.get?_update_of_diverge (hleaves leaf List.mem_cons_self)
        (hdeleted leaf List.mem_cons_self) hlength hw
    exact ih (fun leaf hl => hleaves leaf (List.mem_cons_of_mem _ hl))
      (fun leaf hl => hdeleted leaf (List.mem_cons_of_mem _ hl)) hfirst

/-- What stands at a path is there after a patch as before, if the path diverges from all leaves of
    the patch and from the derived total, and no leaf deletes an element of an array. A leaf whose
    path is empty writes nothing. -/
theorem get?_applyPatch_of_diverge (context : Value) (fields : Fields) (source : Option Value)
    {w : Value} (hw : Path.get? path context = some w)
    (hleaves : ∀ leaf ∈ Patch.flatten fields,
      leaf.1 ≠ "" → Diverge (segments leaf.1) (segments path))
    (htotal : Diverge (segments CartTotals.totalPath) (segments path))
    (hformatted : Diverge (segments CartTotals.formattedPath) (segments path))
    (hdeleted : ∀ leaf ∈ Patch.flatten fields,
      engine.written (source.getD context) leaf.2 = none →
        ∀ segment ∈ (segments leaf.1).getLast?, Path.isIndex segment = false) :
    Path.get? path (engine.applyPatch context (.object fields) source).document = some w := by
  rw [applyPatch_eq, foldl_run_document, foldl_applyLeaf_document]
  have hwritten := engine.get?_foldl_writeLeaf_of_diverge hlength (source.getD context) hleaves
    hdeleted hw
  exact Hook.get?_foldl_refresh_of_diverge hlength htotal hformatted engine.hooks hwritten

end Engine

end Untouched

namespace Engine

/-- A cart with two items and a note. -/
def notedCart : Value :=
  .object [("data", .object [("cart", .object [
    ("items", .array [.object [("price", .ofNat 5)], .null]), ("note", .text "x")])])]

/-- Objects take the place of the second item and of the new tax, the note is deleted, and a name in
    the list is barred. -/
def notedPatch : Fields :=
  [("data", .object [("cart.items.01", .object [("price", .ofNat 2)]),
      ("cart.note", .object [("reference", .text "${missing}")])]),
    ("data.cart.items.last", .null), ("data.cart.items.0.tax.rate", .ofNat 1)]

/-- The price of the first item stays, and the order is derived beside the cart. -/
theorem get?_applyPatch_notedCart :
    Path.get? "data.cart.items.0.price"
      (Engine.default.applyPatch notedCart (.object notedPatch) none).document =
        some (.ofNat 5) := by
  have hnames : ∀ leaf ∈ Patch.flatten notedPatch,
      ∀ segment ∈ (segments leaf.1).getLast?, Path.isIndex segment = false := by decide
  exact get?_applyPatch_of_diverge (by decide) Engine.default notedCart notedPatch none rfl
    (by decide) (by decide) (by decide) fun leaf hl _ => hnames leaf hl

end Engine

end DataBinding
