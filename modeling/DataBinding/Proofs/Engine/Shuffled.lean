import DataBinding.Proofs.Engine.CartTotals
import DataBinding.Proofs.Engine.Flat
import DataBinding.Proofs.Path.Commuting

/-!
# The order of the entries of a patch

The entries of a flat patch may come in any order, if none is written inside another and no segment
is an index. The documents then differ only in the order of keys, also where entries delete, take
the place of what stood there, or find their way barred. The hooks do not see the order of keys.

Results:
* `CartTotals.rel_items?`, `CartTotals.total_congr`: what the hook reads.
* `Hook.reordered_refresh`: a hook leaves reordered documents reordered.
* `Engine.reordered_foldl_writeLeaf_of_perm`: the leaves of a patch in any order.
* `Engine.reordered_applyPatch_of_perm`: a whole patch.
-/

namespace DataBinding

open DataBinding.Path (Indexless Independent segments)
open Value (Reordered ReorderedAll)

/-! ## Hooks -/

theorem rel_cases {α : Type} {r : α → α → Prop} {o o' : Option α} (h : Option.Rel r o o') :
    o = none ∧ o' = none ∨ ∃ a b, o = some a ∧ o' = some b ∧ r a b := by
  cases h with
  | none => exact .inl ⟨rfl, rfl⟩
  | some h => exact .inr ⟨_, _, rfl, rfl, h⟩

theorem rel_bind {α β : Type} {r : α → α → Prop} {s : β → β → Prop} {o o' : Option α}
    {f g : α → Option β} (h : Option.Rel r o o')
    (hfg : ∀ a b, r a b → Option.Rel s (f a) (g b)) : Option.Rel s (o.bind f) (o'.bind g) := by
  cases h with
  | none => exact .none
  | some h => exact hfg _ _ h

theorem Path.rel_fieldAt? {v w : Value} (h : Reordered v w) (names : List String) :
    Option.Rel Reordered (fieldAt? names v) (fieldAt? names w) := by
  induction names generalizing v w with
  | nil => exact .some h
  | cons name rest ih => exact rel_bind (h.field? name) fun _ _ hchild => ih hchild

namespace CartTotals

theorem rel_items? {v w : Value} (h : Reordered v w) :
    Option.Rel ReorderedAll (items? v) (items? w) := by
  rw [items?, items?, get?_itemsPath, get?_itemsPath]
  exact rel_bind (Path.rel_fieldAt? h _) fun _ _ hitems => hitems.array?

theorem price?_congr {v w : Value} (h : Reordered v w) : price? v = price? w := by
  have hfield : ∀ item : Value, price? item =
      (item.object?.bind (Fields.get? "price")).bind fun price =>
        price.number?.map Number.toDouble := by
    intro item
    rw [Option.bind_assoc]
    simp only [Option.map_eq_bind]
    rfl
  rw [hfield, hfield]
  rcases rel_cases (h.field? "price") with ⟨hv, hw⟩ | ⟨price, other, hv, hw, hprice⟩
  · rw [hv, hw]
  · rw [hv, hw, Option.bind_some, Option.bind_some, hprice.number?]

theorem total_congr {items others : List Value} (h : ReorderedAll items others) :
    total items = total others := by
  have hprices : ∀ {vs ws : List Value}, ReorderedAll vs ws →
      vs.filterMap price? = ws.filterMap price? := by
    intro vs
    induction vs with
    | nil =>
      intro ws h
      cases h
      rfl
    | cons v vs ih =>
      intro ws h
      cases h with
      | cons h hs => rw [List.filterMap_cons, List.filterMap_cons, price?_congr h, ih hs]
  rw [total, total, hprices h]

theorem reordered_withTotal (t : Double) {v w : Value} (h : Reordered v w) :
    Reordered (withTotal t v) (withTotal t w) := by
  have htotal : Indexless (segments totalPath) := by decide
  have hformatted : Indexless (segments formattedPath) := by decide
  exact Path.reordered_update hformatted _ (Path.reordered_update htotal _ h)

end CartTotals

namespace Hook

theorem reordered_refresh (hook : Hook) {v w : Value} (h : Reordered v w) :
    Reordered (hook.refresh v) (hook.refresh w) := by
  cases hook with
  | cartTotals =>
    rw [refresh, refresh, recompute?, CartTotals.recompute?, CartTotals.recompute?]
    rcases rel_cases (CartTotals.rel_items? h) with ⟨hv, hw⟩ | ⟨items, others, hv, hw, hitems⟩
    · rw [hv, hw]
      exact h
    · rw [hv, hw, Option.map_some, Option.map_some, CartTotals.total_congr hitems]
      exact CartTotals.reordered_withTotal _ h

theorem reordered_foldl_refresh (hooks : List Hook) {v w : Value} (h : Reordered v w) :
    Reordered (hooks.foldl (fun document hook => hook.refresh document) v)
      (hooks.foldl (fun document hook => hook.refresh document) w) := by
  induction hooks generalizing v w with
  | nil => exact h
  | cons hook rest ih => exact ih (hook.reordered_refresh h)

end Hook

/-! ## Patches -/

namespace Engine

variable (engine : Engine) (source : Value)

theorem reordered_foldl_writeLeaf {leaves : Fields}
    (hnames : ∀ leaf ∈ leaves, Indexless (segments leaf.1)) {v w : Value} (h : Reordered v w) :
    Reordered (leaves.foldl (engine.writeLeaf source) v)
      (leaves.foldl (engine.writeLeaf source) w) := by
  induction leaves generalizing v w with
  | nil => exact h
  | cons leaf rest ih =>
    have hleaf : Reordered (engine.writeLeaf source v leaf) (engine.writeLeaf source w leaf) :=
      Path.reordered_update (hnames leaf List.mem_cons_self) _ h
    exact ih (fun leaf hl => hnames leaf (List.mem_cons_of_mem _ hl)) hleaf

/-- The induction is on the permutation; only its exchange of two neighbours has to compare
    writes. -/
theorem reordered_foldl_writeLeaf_of_perm {leaves others : Fields} (h : leaves.Perm others)
    (hnames : ∀ leaf ∈ leaves, Indexless (segments leaf.1))
    (hapart : leaves.Pairwise fun leaf other => Independent leaf.1 other.1) (document : Value) :
    Reordered (leaves.foldl (engine.writeLeaf source) document)
      (others.foldl (engine.writeLeaf source) document) := by
  induction h generalizing document with
  | nil => exact .refl document
  | cons leaf h ih =>
    exact ih (fun leaf hl => hnames leaf (List.mem_cons_of_mem _ hl)) hapart.of_cons _
  | swap leaf other rest =>
    have htwo : Independent other.1 leaf.1 := List.rel_of_pairwise_cons hapart List.mem_cons_self
    have hswap : Reordered
        (engine.writeLeaf source (engine.writeLeaf source document other) leaf)
        (engine.writeLeaf source (engine.writeLeaf source document leaf) other) :=
      Path.reordered_update_update (hnames leaf (by simp)) (hnames other (by simp)) htwo.symm
        _ _ document
    have hrest : ∀ l ∈ rest, Indexless (segments l.1) := fun l hl =>
      hnames l (List.mem_cons_of_mem _ (List.mem_cons_of_mem _ hl))
    exact engine.reordered_foldl_writeLeaf source hrest hswap
  | trans h h' ih ih' =>
    have hmiddle := ih' (fun leaf hl => hnames leaf (h.mem_iff.2 hl))
      ((h.pairwise_iff Independent.symm).1 hapart) document
    exact (ih hnames hapart document).trans hmiddle

/-- The entries of a flat patch in any order lead to the same document, up to the order of keys,
    if their paths have no index and none is a prefix of another. -/
theorem reordered_applyPatch_of_perm (context : Value) (source : Option Value)
    {entries others : Fields} (h : entries.Perm others)
    (hflat : ∀ entry ∈ entries, Patch.isLeaf entry.2 = true)
    (hnames : ∀ entry ∈ entries, Indexless (segments entry.1))
    (hapart : entries.Pairwise fun entry other => Independent entry.1 other.1) :
    Reordered (engine.applyPatch context (.object entries) source).document
      (engine.applyPatch context (.object others) source).document := by
  rw [applyPatch_eq, applyPatch_eq, foldl_run_document, foldl_run_document,
    foldl_applyLeaf_document, foldl_applyLeaf_document, Patch.flatten_of_leaves hflat,
    Patch.flatten_of_leaves fun entry he => hflat entry (h.mem_iff.2 he)]
  refine Hook.reordered_foldl_refresh engine.hooks ?_
  exact engine.reordered_foldl_writeLeaf_of_perm _ h hnames hapart context

/-- A cart with a note and a coupon. -/
def couponCart : Value :=
  .object [("data", .object [("cart", .object [
    ("items", .array [.object [("price", .ofNat 5)]]), ("note", .text "x"),
    ("coupon", .text "y")])])]

/-- Two entries make an order and a seller together, one takes the place of the note, one deletes
    the coupon, and the list of items bars the last. -/
def couponPatch : Fields :=
  [("data.order.seller.name", .text "a"), ("data.order.seller.mail", .null),
    ("data.cart.note.author", .array [.text "b"]),
    ("data.cart.coupon", .object [("reference", .text "missing")]),
    ("data.cart.items.last", .bool true)]

theorem reordered_applyPatch_couponCart :
    Reordered (Engine.default.applyPatch couponCart (.object couponPatch) none).document
      (Engine.default.applyPatch couponCart (.object couponPatch.reverse) none).document :=
  reordered_applyPatch_of_perm Engine.default couponCart none couponPatch.reverse_perm.symm
    (by decide) (by decide) (by decide)

end Engine

end DataBinding
