import DataBinding.Engine.Patch
import DataBinding.Proofs.Path.Barred

/-!
# The total of the cart

The hook for the cart writes the total beside whatever the order holds already. Nothing can be
written under a name in a list, so an order that is a list keeps the total out; every other order
has it after each patch, whatever the patch did to it.

Results:
* `withTotal_object`: what the hook does to a document.
* `items?_withTotal`: the hook leaves the items alone.
* `current_run`: one run of the hook makes the total current.
* `current_afterPatches`: it is current after every patch of a session.
* `total_iff_order_not_list`: the total stands in the order unless the order is a list.
-/

namespace DataBinding

namespace Value

theorem object?_eq_some_iff {v : Value} {fields : Fields} :
    v.object? = some fields ↔ v = .object fields := by
  cases v <;> simp [object?]

theorem array?_eq_some_iff {v : Value} {items : List Value} :
    v.array? = some items ↔ v = .array items := by
  cases v <;> simp [array?]

end Value

/-! ## Paths of names -/

namespace Path

/-- The segment names a field of objects, and nothing of an array. -/
def isName (segment : String) : Bool := (index? segment).isNone && segment != "length"

/-- What the names lead to, if the values on the way are objects. -/
def fieldAt? : List String → Value → Option Value
  | [], v => some v
  | name :: rest, v => (v.object?.bind (Fields.get? name)).bind (fieldAt? rest)

theorem fieldAt?_append (names others : List String) (v : Value) :
    fieldAt? (names ++ others) v = (fieldAt? names v).bind (fieldAt? others) := by
  induction names generalizing v with
  | nil => rfl
  | cons name rest ih =>
    have hrest : fieldAt? (rest ++ others) = fun v => (fieldAt? rest v).bind (fieldAt? others) := by
      funext child
      exact ih child
    rw [List.cons_append, fieldAt?, hrest, fieldAt?]
    exact (Option.bind_assoc _ _ _).symm

theorem fieldAt?_singleton (name : String) (v : Value) :
    fieldAt? [name] v = v.object?.bind (Fields.get? name) := by
  rw [fieldAt?]
  cases v.object?.bind (Fields.get? name) <;> rfl

theorem child?_of_isName {name : String} (h : isName name = true) (v : Value) :
    child? name v = v.object?.bind (Fields.get? name) := by
  simp only [isName, Bool.and_eq_true, Option.isNone_iff_eq_none] at h
  cases v with
  | array items => rw [child?, h.1]; rfl
  | object fields | null | bool b | number n | text s => rfl

theorem length?_of_isName {name : String} (h : isName name = true) (v : Value) :
    length? name v = none := by
  simp only [isName, Bool.and_eq_true, bne_iff_ne] at h
  cases v with
  | array items => rw [length?, if_neg h.2]
  | object fields | null | bool b | number n | text s => rfl

theorem read?_of_names {names : List String} (hne : names ≠ []) (h : names.all isName = true)
    (v : Value) : read? names v = fieldAt? names v := by
  induction names generalizing v with
  | nil => exact absurd rfl hne
  | cons name rest ih =>
    rw [List.all_cons, Bool.and_eq_true] at h
    cases rest with
    | nil =>
      rw [read?, length?_of_isName h.1, Option.or_none, child?_of_isName h.1, fieldAt?_singleton]
    | cons next rest =>
      have hrest : read? (next :: rest) = fieldAt? (next :: rest) := by
        funext child
        exact ih (by simp) h.2 child
      rw [read?, child?_of_isName h.1, fieldAt?, hrest]

theorem write_object_cons (w : Value) (name next : String) (rest : List String) (fields : Fields) :
    write (some w) (name :: next :: rest) (.object fields) =
      .object (Fields.insert name (write (some w) (next :: rest)
        (containerFor next ((Fields.get? name fields).getD .null))) fields) :=
  write_cons name next rest

end Path

namespace CartTotals

/-- The path of the order. -/
def orderPath : String := "data.order"

theorem segments_totalPath : Path.segments totalPath = ["data", "order", "total"] := by decide

theorem segments_formattedPath :
    Path.segments formattedPath = ["data", "order", "totalFormatted"] := by decide

theorem get?_itemsPath (context : Value) :
    Path.get? itemsPath context = Path.fieldAt? ["data", "cart", "items"] context := by
  rw [Path.get?, show Path.segments itemsPath = ["data", "cart", "items"] by decide]
  exact Path.read?_of_names (by simp) (by decide) context

theorem get?_orderPath (context : Value) :
    Path.get? orderPath context = Path.fieldAt? ["data", "order"] context := by
  rw [Path.get?, show Path.segments orderPath = ["data", "order"] by decide]
  exact Path.read?_of_names (by simp) (by decide) context

theorem get?_totalPath (context : Value) :
    Path.get? totalPath context = (Path.get? orderPath context).bind (Path.fieldAt? ["total"]) := by
  rw [get?_orderPath, ← Path.fieldAt?_append, Path.get?, segments_totalPath]
  exact Path.read?_of_names (by simp) (by decide) context

theorem get?_formattedPath (context : Value) :
    Path.get? formattedPath context =
      (Path.get? orderPath context).bind (Path.fieldAt? ["totalFormatted"]) := by
  rw [get?_orderPath, ← Path.fieldAt?_append, Path.get?, segments_formattedPath]
  exact Path.read?_of_names (by simp) (by decide) context

/-! ## One run of the hook -/

/-- The objects on the way to the items of a cart. -/
theorem exists_objects_of_items? {context : Value} {items : List Value}
    (h : items? context = some items) :
    ∃ fields data cart, context = .object fields ∧ Fields.get? "data" fields = some (.object data) ∧
      Fields.get? "cart" data = some (.object cart) ∧
      Fields.get? "items" cart = some (.array items) := by
  simp only [items?, get?_itemsPath, Path.fieldAt?, Option.bind_eq_some_iff,
    Value.object?_eq_some_iff, Value.array?_eq_some_iff, Option.some.injEq] at h
  obtain ⟨_, ⟨_, ⟨fields, hf, hd⟩, _, ⟨data, rfl, hc⟩, _, ⟨cart, rfl, hi⟩, rfl⟩, rfl⟩ := h
  exact ⟨fields, data, cart, hf, hd, hc, hi⟩

/-- The order with a total, as a number and as it is shown. -/
def orderWith (t : Double) (order : Option Value) : Value :=
  Path.writeChild (some (formatted t)) "totalFormatted"
    (Path.writeChild (some (.ofDouble t)) "total"
      (Path.containerFor "total" (order.getD .null)))

theorem update_below_order {path leaf : String}
    (hs : Path.segments path = ["data", "order", leaf]) (w : Value) {fields data : Fields}
    (hd : Fields.get? "data" fields = some (.object data)) :
    Path.update path (some w) (.object fields) =
      .object (Fields.insert "data" (.object (Fields.insert "order"
        (Path.writeChild (some w) leaf
          (Path.containerFor leaf ((Fields.get? "order" data).getD .null))) data)) fields) := by
  rw [Path.update, hs, Path.write_object_cons, hd]
  show Value.object (Fields.insert "data" (Path.write _ _ (.object data)) fields) = _
  rw [Path.write_object_cons]
  rfl

theorem withTotal_object (t : Double) {fields data : Fields}
    (hd : Fields.get? "data" fields = some (.object data)) :
    withTotal t (.object fields) =
      .object (Fields.insert "data" (.object
        (Fields.insert "order" (orderWith t (Fields.get? "order" data)) data)) fields) := by
  have hcontainer : ∀ order : Value,
      Path.containerFor "totalFormatted" (Path.writeChild (some (.ofDouble t)) "total"
        (Path.containerFor "total" order)) =
          Path.writeChild (some (.ofDouble t)) "total" (Path.containerFor "total" order) := by
    intro order
    refine Path.containerFor_of_isContainer _ (Path.isContainer_writeChild _ _ ?_)
    exact Path.isContainer_containerFor "total" order
  rw [withTotal, update_below_order segments_totalPath _ hd,
    update_below_order segments_formattedPath _ (Fields.get?_insert_self _ _ _),
    Fields.insert_insert, Fields.insert_insert, Fields.get?_insert_self, Option.getD_some,
    hcontainer, orderWith]

theorem items?_withTotal (t : Double) {context : Value} {items : List Value}
    (h : items? context = some items) : items? (withTotal t context) = some items := by
  obtain ⟨fields, data, cart, rfl, hd, hc, hi⟩ := exists_objects_of_items? h
  have hcart : Fields.get? "cart"
      (Fields.insert "order" (orderWith t (Fields.get? "order" data)) data) =
        some (.object cart) := by
    rw [Fields.get?_insert_of_ne (by decide)]
    exact hc
  rw [withTotal_object t hd, items?, get?_itemsPath]
  simp only [Path.fieldAt?, Value.object?, Option.bind_some, Fields.get?_insert_self, hcart, hi,
    Value.array?]

theorem get?_orderPath_withTotal (t : Double) {context : Value} {items : List Value}
    (h : items? context = some items) :
    Path.get? orderPath (withTotal t context) =
      some (orderWith t (Path.get? orderPath context)) := by
  obtain ⟨fields, data, cart, rfl, hd, -, -⟩ := exists_objects_of_items? h
  rw [withTotal_object t hd]
  have hold : Path.fieldAt? ["order"] (.object data) = Fields.get? "order" data :=
    Path.fieldAt?_singleton "order" _
  rw [get?_orderPath, get?_orderPath, Path.fieldAt?, Path.fieldAt?, Value.object?, Value.object?,
    Option.bind_some, Option.bind_some, Fields.get?_insert_self, hd, Option.bind_some,
    Option.bind_some, hold, Path.fieldAt?_singleton, Value.object?, Option.bind_some,
    Fields.get?_insert_self]

/-- A list cannot take the total; everything else is an object with the total afterwards. -/
theorem orderWith_cases (t : Double) (order : Option Value) :
    (∃ elements, orderWith t order = .array elements) ∨
      ∃ fields, orderWith t order = .object (Fields.insert "totalFormatted" (formatted t)
        (Fields.insert "total" (.ofDouble t) fields)) := by
  have hcontainer := Path.isContainer_containerFor "total" (order.getD .null)
  cases hc : Path.containerFor "total" (order.getD .null) with
  | object fields =>
    refine .inr ⟨fields, ?_⟩
    rw [orderWith, hc]
    rfl
  | array elements =>
    refine .inl ⟨elements, ?_⟩
    have htotal : Path.barredAt "total" (.array elements) = true := by
      rw [Path.barredAt, show Path.index? "total" = none by decide]
    have hformatted : Path.barredAt "totalFormatted" (.array elements) = true := by
      rw [Path.barredAt, show Path.index? "totalFormatted" = none by decide]
    rw [orderWith, hc, Path.writeChild_of_barredAt htotal, Path.writeChild_of_barredAt hformatted]
  | null | bool b | number n | text s => rw [hc] at hcontainer; cases hcontainer

/-- The total of the items stands in the order, as a number and as it is shown. -/
def Shows (items : List Value) (context : Value) : Prop :=
  Path.get? totalPath context = some (.ofDouble (total items)) ∧
    Path.get? formattedPath context = some (formatted (total items))

/-- The order is a list. -/
def OrderIsList (context : Value) : Prop :=
  ∃ elements, Path.get? orderPath context = some (.array elements)

theorem shows_withTotal_iff {context : Value} {items : List Value}
    (h : items? context = some items) :
    Shows items (withTotal (total items) context) ↔
      ¬OrderIsList (withTotal (total items) context) := by
  have horder := get?_orderPath_withTotal (total items) h
  rw [Shows, OrderIsList, get?_totalPath, get?_formattedPath, horder]
  rcases orderWith_cases (total items) (Path.get? orderPath context) with
    ⟨elements, ho⟩ | ⟨fields, ho⟩
  · rw [ho]
    refine iff_of_false ?_ (fun hn => hn ⟨elements, rfl⟩)
    rintro ⟨htotal, -⟩
    cases htotal
  · rw [ho]
    refine iff_of_true ⟨?_, ?_⟩ ?_
    · rw [Option.bind_some, Path.fieldAt?_singleton, Value.object?, Option.bind_some,
        Fields.get?_insert_of_ne (by decide), Fields.get?_insert_self]
    · rw [Option.bind_some, Path.fieldAt?_singleton, Value.object?, Option.bind_some,
        Fields.get?_insert_self]
    · rintro ⟨elements, he⟩
      cases he

/-! ## Patches and sessions -/

/-- If the cart has a list of items, their total stands in the order unless the order is a list. -/
def Current (context : Value) : Prop :=
  ∀ items, items? context = some items → (Shows items context ↔ ¬OrderIsList context)

/-- Nothing is asked of the document before: the hook computes the total anew. -/
theorem current_run (p : Patched) (hook : Hook) : Current (p.run hook).document := by
  cases hook with
  | cartTotals =>
    intro items hi
    cases hbefore : items? p.document with
    | none =>
      have hrun : p.run .cartTotals = p := by
        rw [Patched.run, Hook.recompute?_eq_none hbefore]
      rw [hrun, hbefore] at hi
      cases hi
    | some before =>
      have hrun : (p.run .cartTotals).document = withTotal (total before) p.document := by
        rw [Patched.run, Hook.recompute?, recompute?, hbefore]
        rfl
      rw [hrun] at hi ⊢
      obtain rfl : before = items := by
        rw [items?_withTotal _ hbefore] at hi
        exact Option.some.inj hi
      exact shows_withTotal_iff hbefore

/-- The last of the hooks decides. -/
theorem current_foldl_run {hooks : List Hook} (h : hooks ≠ []) (p : Patched) :
    Current (hooks.foldl Patched.run p).document := by
  rw [← List.dropLast_concat_getLast h, List.foldl_append]
  exact current_run _ _

end CartTotals

namespace Engine

open CartTotals (Current current_foldl_run)

/-- The context after some patches, each with the source of its bindings. -/
def afterPatches (engine : Engine) (context : Value) (patches : List (Value × Option Value)) :
    Value :=
  patches.foldl (fun context p => (engine.applyPatch context p.1 p.2).document) context

variable {engine : Engine} (hh : engine.hooks ≠ [])
include hh

theorem current_applyPatch (context : Value) (fields : Fields) (source : Option Value) :
    Current (engine.applyPatch context (.object fields) source).document :=
  current_foldl_run hh _

theorem current_applyPatch_of_current {context : Value} (h : Current context) (patch : Value)
    (source : Option Value) : Current (engine.applyPatch context patch source).document := by
  cases hp : patch.object? with
  | none =>
    rw [applyPatch_of_not_object engine hp]
    exact h
  | some fields =>
    rw [Value.object?_eq_some_iff.1 hp]
    exact current_applyPatch hh context fields source

theorem current_afterPatches_of_current {context : Value} (h : Current context)
    (patches : List (Value × Option Value)) : Current (engine.afterPatches context patches) := by
  induction patches generalizing context with
  | nil => exact h
  | cons p rest ih => exact ih (current_applyPatch_of_current hh h p.1 p.2)

/-- From the first patch on that is an object, the total is current. -/
theorem current_afterPatches (context : Value) {patches : List (Value × Option Value)}
    (hp : ∃ p ∈ patches, ∃ fields, p.1 = .object fields) :
    Current (engine.afterPatches context patches) := by
  obtain ⟨p, hmem, fields, hfields⟩ := hp
  obtain ⟨before, after, rfl⟩ := List.append_of_mem hmem
  rw [afterPatches, List.foldl_append, List.foldl_cons, hfields]
  exact current_afterPatches_of_current hh (current_applyPatch hh _ fields p.2) after

end Engine

namespace CartTotals

theorem items?_eq_some {context : Value} {items : List Value}
    (h : Path.get? itemsPath context = some (.array items)) : items? context = some items := by
  rw [items?, h]
  rfl

/-- After every session with a patch that is an object, a cart with a list of items has their total
    in the order exactly if the order is no list. -/
theorem total_iff_order_not_list {engine : Engine} (hh : engine.hooks ≠ []) (context : Value)
    {patches : List (Value × Option Value)} (hp : ∃ p ∈ patches, ∃ fields, p.1 = .object fields)
    {items : List Value}
    (hi : Path.get? itemsPath (engine.afterPatches context patches) = some (.array items)) :
    (Path.get? totalPath (engine.afterPatches context patches) =
        some (.ofDouble (total items)) ∧
      Path.get? formattedPath (engine.afterPatches context patches) =
        some (formatted (total items))) ↔
      ∀ elements, Path.get? orderPath (engine.afterPatches context patches) ≠
        some (.array elements) := by
  rw [← not_exists]
  exact Engine.current_afterPatches hh context hp items (items?_eq_some hi)

/-- A cart with one item, beside an order that is an empty list. -/
def listOrder : Value :=
  .object [("data", .object [("cart", .object [("items", .array [.object [("price", .ofNat 1)]])]),
    ("order", .array [])])]

/-- The order stays an empty list, and has no total. -/
theorem not_shows_listOrder :
    ¬Shows [.object [("price", .ofNat 1)]]
      (Engine.default.afterPatches listOrder [(.object [], none)]) := by
  intro h
  have hh : Engine.default.hooks ≠ [] := by decide
  have hp : ∃ p ∈ [((.object [], none) : Value × Option Value)], ∃ fields, p.1 = .object fields :=
    ⟨_, List.mem_singleton_self _, [], rfl⟩
  have hlist := (total_iff_order_not_list hh listOrder hp rfl).1 h
  exact hlist [] rfl

end CartTotals

end DataBinding
