import DataBinding.Proofs.Engine.CartTotals
import DataBinding.Proofs.Engine.Flat

/-!
# Hooks that have nothing left to do

The hook for the cart reads the items and writes the order beside them. A second run finds the same
items, so it writes the same total to the place where the total stands already: it changes nothing,
whatever the order was before the first run. One hook does the work of any number of them, and an
empty patch leaves a document alone after a patch that was not.

Results:
* `orderWith_orderWith`, `withTotal_withTotal`: the total is written into its own place.
* `settled_refresh`: after one run of a hook no hook changes the document.
* `get?_itemsPath_refresh`: a hook leaves the items alone.
* `foldl_refresh_eq`: the number of hooks does not matter, if there is one.
* `applyPatch_settled`: all this for patches.
-/

namespace DataBinding

namespace CartTotals

/-! ## Two runs -/

/-- A list takes no total. -/
theorem orderWith_array (t : Double) (elements : List Value) :
    orderWith t (some (.array elements)) = .array elements := by
  have htotal : Path.barredAt "total" (.array elements) = true := by
    rw [Path.barredAt, show Path.index? "total" = none by decide]
  have hformatted : Path.barredAt "totalFormatted" (.array elements) = true := by
    rw [Path.barredAt, show Path.index? "totalFormatted" = none by decide]
  rw [orderWith, Option.getD_some, Path.containerFor_of_isContainer _ rfl,
    Path.writeChild_of_barredAt htotal, Path.writeChild_of_barredAt hformatted]

theorem orderWith_orderWith (t : Double) (order : Option Value) :
    orderWith t (some (orderWith t order)) = orderWith t order := by
  rcases orderWith_cases t order with ⟨elements, ho⟩ | ⟨fields, ho⟩
  · rw [ho, orderWith_array]
  · -- both fields are there already, each with the value that is written
    have hformatted : Path.child? "totalFormatted" (orderWith t order) = some (formatted t) := by
      rw [ho]
      exact Fields.get?_insert_self _ _ _
    have htotal : Path.child? "total" (orderWith t order) = some (.ofDouble t) := by
      rw [ho, Path.child?, Fields.get?_insert_of_ne (by decide)]
      exact Fields.get?_insert_self _ _ _
    have hcontainer : (orderWith t order).isContainer = true := by
      rw [ho]
      rfl
    rw [orderWith, Option.getD_some, Path.containerFor_of_isContainer _ hcontainer,
      Path.writeChild_of_child? htotal, Path.writeChild_of_child? hformatted]

theorem withTotal_withTotal (t : Double) {context : Value} {items : List Value}
    (h : items? context = some items) :
    withTotal t (withTotal t context) = withTotal t context := by
  obtain ⟨fields, data, cart, rfl, hd, -, -⟩ := exists_objects_of_items? h
  rw [withTotal_object t hd, withTotal_object t (Fields.get?_insert_self _ _ _),
    Fields.get?_insert_self, orderWith_orderWith, Fields.insert_insert, Fields.insert_insert]

end CartTotals

namespace Hook

open CartTotals (items? itemsPath total withTotal)

/-- No hook has anything left to change. -/
def Settled (document : Value) : Prop := ∀ hook : Hook, hook.refresh document = document

theorem refresh_of_items?_eq_none {context : Value} (h : items? context = none) :
    refresh cartTotals context = context := by
  rw [refresh, recompute?_eq_none h]
  rfl

theorem refresh_of_items? {context : Value} {items : List Value}
    (h : items? context = some items) :
    refresh cartTotals context = withTotal (total items) context := by
  rw [refresh, recompute?, CartTotals.recompute?, h]
  rfl

/-- The second run computes the same total, because the first left the items alone. -/
theorem settled_refresh (hook : Hook) (context : Value) : Settled (hook.refresh context) := by
  intro next
  cases hook
  cases next
  cases h : items? context with
  | none => rw [refresh_of_items?_eq_none h, refresh_of_items?_eq_none h]
  | some items =>
    rw [refresh_of_items? h, refresh_of_items? (CartTotals.items?_withTotal _ h),
      CartTotals.withTotal_withTotal _ h]

theorem get?_itemsPath_refresh (hook : Hook) (context : Value) :
    Path.get? itemsPath (hook.refresh context) = Path.get? itemsPath context := by
  cases hook
  cases h : items? context with
  | none => rw [refresh_of_items?_eq_none h]
  | some items =>
    have hafter := CartTotals.items?_withTotal (total items) h
    rw [refresh_of_items? h]
    rw [items?, Option.bind_eq_some_iff] at h hafter
    obtain ⟨before, hbefore, harray⟩ := h
    obtain ⟨after, hafter, harray'⟩ := hafter
    rw [hbefore, hafter, Value.array?_eq_some_iff.1 harray, Value.array?_eq_some_iff.1 harray']

/-! ## Any number of hooks -/

theorem foldl_refresh_of_settled {document : Value} (h : Settled document) (hooks : List Hook) :
    hooks.foldl (fun document hook => hook.refresh document) document = document := by
  induction hooks with
  | nil => rfl
  | cons hook rest ih => rw [List.foldl_cons, h hook, ih]

theorem settled_foldl_refresh {hooks : List Hook} (hh : hooks ≠ []) (document : Value) :
    Settled (hooks.foldl (fun document hook => hook.refresh document) document) := by
  rw [← List.dropLast_concat_getLast hh, List.foldl_append]
  exact settled_refresh _ _

theorem foldl_refresh_eq {hooks others : List Hook} (hh : hooks ≠ []) (ho : others ≠ [])
    (document : Value) :
    hooks.foldl (fun document hook => hook.refresh document) document =
      others.foldl (fun document hook => hook.refresh document) document := by
  obtain ⟨first, rest, rfl⟩ := List.exists_cons_of_ne_nil hh
  obtain ⟨other, more, rfl⟩ := List.exists_cons_of_ne_nil ho
  cases first
  cases other
  rw [List.foldl_cons, List.foldl_cons, foldl_refresh_of_settled (settled_refresh _ _),
    foldl_refresh_of_settled (settled_refresh _ _)]

end Hook

namespace Engine

open CartTotals (itemsPath)

variable (engine : Engine)

/-- The engine with other hooks. -/
def withHooks (hooks : List Hook) : Engine := { engine with hooks := hooks }

/-! ## Patches -/

theorem applyPatch_nil (context : Value) (source : Option Value) :
    (engine.applyPatch context (.object []) source).document =
      engine.hooks.foldl (fun document hook => hook.refresh document) context := by
  rw [applyPatch_eq, foldl_run_document]
  rfl

theorem afterPatches_nil_of_settled {document : Value} (h : Hook.Settled document)
    (sources : List (Option Value)) :
    engine.afterPatches document (sources.map fun source => (.object [], source)) = document := by
  induction sources with
  | nil => rfl
  | cons source rest ih =>
    rw [List.map_cons, afterPatches, List.foldl_cons, applyPatch_nil,
      Hook.foldl_refresh_of_settled h]
    exact ih

/-- Hooks run after a patch, so no binding is resolved with them. -/
theorem resolveBinding_withHooks (hooks : List Hook) (around : Surroundings)
    (fallback : Option Value) (b : Binding) :
    (engine.withHooks hooks).resolveBinding around fallback b =
      engine.resolveBinding around fallback b := by
  have hevaluate : (engine.withHooks hooks).evaluate around = engine.evaluate around := rfl
  have hpath : (engine.withHooks hooks).resolvePath around b fallback =
      engine.resolvePath around b fallback := rfl
  have hsingle : (engine.withHooks hooks).resolveSingle around b fallback =
      engine.resolveSingle around b fallback := by
    funext reference
    rw [resolveSingle, resolveSingle, hevaluate, hpath]
    rfl
  rw [resolveBinding, resolveBinding, hsingle]
  simp only [renderTemplate, hevaluate]

theorem writeLeaf_withHooks (hooks : List Hook) :
    (engine.withHooks hooks).writeLeaf = engine.writeLeaf := by
  funext source document leaf
  simp only [writeLeaf, written, resolveBinding_withHooks]

/-- The hooks see the document that the patch would leave without any. -/
theorem document_withHooks (hooks : List Hook) (context : Value) (fields : Fields)
    (source : Option Value) :
    ((engine.withHooks hooks).applyPatch context (.object fields) source).document =
      hooks.foldl (fun document hook => hook.refresh document)
        ((engine.withHooks []).applyPatch context (.object fields) source).document := by
  rw [applyPatch_eq, applyPatch_eq, foldl_run_document, foldl_run_document,
    foldl_applyLeaf_document, foldl_applyLeaf_document, writeLeaf_withHooks, writeLeaf_withHooks]
  rfl

/-- A run that leaves no step in the trace leaves everything as it was. -/
theorem run_eq_self_of_trace {hook : Hook} {p : Patched} (h : (p.run hook).trace = p.trace) :
    p.run hook = p := by
  rw [Patched.run] at h ⊢
  cases hr : hook.recompute? p.document with
  | none => rfl
  | some document =>
    rw [hr] at h
    exact absurd h (by simp [Patched.record])

/-- After a patch that is an object the hooks are done: any other number of them would have left the
    same document, and empty patches leave it as it is. No hook changes the items of the cart, and
    one that reports nothing changes nothing. -/
theorem applyPatch_settled {hooks : List Hook} (hh : hooks ≠ []) (context : Value)
    (fields : Fields) (source : Option Value) {next : Value}
    (hn : ((engine.withHooks hooks).applyPatch context (.object fields) source).document = next) :
    (∀ others : List Hook, others ≠ [] →
      ((engine.withHooks others).applyPatch context (.object fields) source).document = next ∧
        (engine.withHooks others).patch context (.object fields) source = next) ∧
    (∀ (others : List Hook) (sources : List (Option Value)),
      (engine.withHooks others).afterPatches next
        (sources.map fun source => (.object [], source)) = next) ∧
    (∀ (hook : Hook) (p : Patched),
      Path.get? itemsPath (p.run hook).document = Path.get? itemsPath p.document) ∧
    ∀ (hook : Hook) (p : Patched), (p.run hook).trace = p.trace → p.run hook = p := by
  rw [document_withHooks] at hn
  refine ⟨fun others ho => ?_, fun others sources => ?_, fun hook p => ?_, fun hook p h => ?_⟩
  · have hdocument := Hook.foldl_refresh_eq ho hh
      ((engine.withHooks []).applyPatch context (.object fields) source).document
    rw [patch_eq_document, document_withHooks, hdocument]
    exact ⟨hn, hn⟩
  · rw [← hn]
    exact (engine.withHooks others).afterPatches_nil_of_settled (Hook.settled_foldl_refresh hh _)
      sources
  · rw [run_document, Hook.get?_itemsPath_refresh]
  · exact run_eq_self_of_trace h

/-- A cart behind an order that is a number. -/
def countedCart : Value :=
  .object [("data", .object [("order", .ofNat 1), ("cart", .object [
    ("items", .array [.object [("price", .ofNat 5)]])])])]

/-- The order gives way to the total and stays in front of the cart. -/
def totalledCart : Value :=
  .object [("data", .object [
    ("order", .object [("total", .ofNat 5), ("totalFormatted", .text "5 ₽")]),
    ("cart", .object [("items", .array [.object [("price", .ofNat 5)]])])])]

theorem refresh_countedCart : Hook.refresh .cartTotals countedCart = totalledCart := by
  let items : List Value := [.object [("price", .ofNat 5)]]
  have hnumber : Number.ofDouble? (CartTotals.total items) = some (.integer 5) := by
    decide +kernel
  have htext : (CartTotals.total items).groupedText = ['5'] := by decide +kernel
  have htotal : Value.ofDouble (CartTotals.total items) = .ofNat 5 := by
    rw [Value.ofDouble, hnumber]
    rfl
  have hformatted : CartTotals.formatted (CartTotals.total items) = .text "5 ₽" := by
    rw [CartTotals.formatted, htext]
    rfl
  have hitems : CartTotals.items? countedCart = some items := rfl
  rw [Hook.refresh_of_items? hitems, countedCart, CartTotals.withTotal_object _ rfl,
    CartTotals.orderWith, htotal, hformatted]
  rfl

/-- One hook and three of them agree, and two empty patches more change nothing. -/
theorem applyPatch_settled_countedCart :
    let one := Engine.default.withHooks [.cartTotals]
    let three := Engine.default.withHooks [.cartTotals, .cartTotals, .cartTotals]
    (one.applyPatch countedCart (.object []) none).document = totalledCart ∧
      (three.applyPatch countedCart (.object []) none).document = totalledCart ∧
      three.afterPatches totalledCart [(.object [], none), (.object [], some .null)] =
        totalledCart := by
  intro one three
  have hone : (one.applyPatch countedCart (.object []) none).document = totalledCart := by
    rw [applyPatch_nil]
    exact refresh_countedCart
  obtain ⟨hothers, hempty, -, -⟩ :=
    applyPatch_settled Engine.default (by decide) countedCart [] none hone
  have hthree := hothers [.cartTotals, .cartTotals, .cartTotals] (by decide)
  exact ⟨hone, hthree.1, hempty _ [none, some .null]⟩

end Engine

end DataBinding
