import DataBinding.Binding
import DataBinding.Path.Basic

/-!
# Plain values

A value is plain if nothing in it is a binding. Whatever is read from a plain value is plain: a
field, an element, a length, and so everything at a path.

Results:
* `isPlain_array`, `isPlain_object`: a container is plain if its parts are, and it is no binding.
* `all_isPlain_read?`, `all_isPlain_get?`: a path leads to plain values only.
-/

namespace DataBinding

open Value

namespace Value

mutual

/-- Nothing in the value, at any depth, is a binding. -/
def isPlain : Value → Bool
  | array items => isPlainItems items
  | object fields => (Binding.ofFields? fields).isNone && isPlainFields fields
  | _ => true

def isPlainItems : List Value → Bool
  | [] => true
  | v :: rest => isPlain v && isPlainItems rest

def isPlainFields : Fields → Bool
  | [] => true
  | (_, v) :: rest => isPlain v && isPlainFields rest

end

theorem isPlainItems_iff {items : List Value} :
    isPlainItems items = true ↔ ∀ v ∈ items, v.isPlain = true := by
  induction items with
  | nil => simp [isPlainItems]
  | cons v rest ih => simp [isPlainItems, ih]

theorem isPlainFields_iff {fields : Fields} :
    isPlainFields fields = true ↔ ∀ f ∈ fields, f.2.isPlain = true := by
  induction fields with
  | nil => simp [isPlainFields]
  | cons f rest ih => simp [isPlainFields, ih]

theorem isPlain_array {items : List Value} :
    (array items).isPlain = true ↔ ∀ v ∈ items, v.isPlain = true := by
  rw [isPlain, isPlainItems_iff]

theorem isPlain_object {fields : Fields} :
    (object fields).isPlain = true ↔
      Binding.ofFields? fields = none ∧ ∀ f ∈ fields, f.2.isPlain = true := by
  rw [isPlain, Bool.and_eq_true, Option.isNone_iff_eq_none, isPlainFields_iff]

theorem ofValue?_of_isPlain {v : Value} (h : v.isPlain = true) : Binding.ofValue? v = none := by
  cases v with
  | object fields => exact (isPlain_object.1 h).1
  | null | bool b | number n | text s | array items => rfl

theorem isPlain_of_not_isContainer {v : Value} (h : v.isContainer = false) : v.isPlain = true := by
  cases v with
  | array items => cases h
  | object fields => cases h
  | null | bool b | number n | text s => rfl

theorem isPlain_ofDouble (x : Double) : (ofDouble x).isPlain = true := by
  rw [ofDouble]
  cases Number.ofDouble? x <;> rfl

theorem isPlain_getD_null {r : Option Value} (h : r.all isPlain = true) :
    (r.getD .null).isPlain = true := by
  cases r with
  | none => rfl
  | some v => exact h

theorem all_isPlain_or {a b : Option Value} (ha : a.all isPlain = true)
    (hb : b.all isPlain = true) : (a.or b).all isPlain = true := by
  cases a with
  | none => exact hb
  | some v => exact ha

theorem all_isPlain_bind {a : Option Value} {f : Value → Option Value}
    (ha : a.all isPlain = true) (hf : ∀ v, v.isPlain = true → (f v).all isPlain = true) :
    (a.bind f).all isPlain = true := by
  cases a with
  | none => rfl
  | some v => exact hf v ha

end Value

/-! ## Parts of plain values -/

theorem Fields.mem_of_get?_eq_some {key : String} {fields : Fields} {v : Value}
    (h : get? key fields = some v) : (key, v) ∈ fields := by
  induction fields with
  | nil => cases h
  | cons f rest ih =>
    rw [get?] at h
    split at h
    · rename_i hk
      rw [← hk, ← Option.some.inj h]
      exact List.mem_cons_self
    · exact List.mem_cons_of_mem f (ih h)

theorem all_isPlain_field {fields : Fields} (h : ∀ f ∈ fields, f.2.isPlain = true)
    (key : String) : (Fields.get? key fields).all isPlain = true := by
  rw [Option.all_eq_true]
  intro v hv
  exact h _ (Fields.mem_of_get?_eq_some hv)

theorem all_isPlain_item {items : List Value} (h : ∀ v ∈ items, v.isPlain = true) (i : Nat) :
    items[i]?.all isPlain = true := by
  rw [Option.all_eq_true]
  intro v hv
  exact h v (List.mem_of_getElem? hv)

namespace Path

theorem all_isPlain_child? {v : Value} (h : v.isPlain = true) (segment : String) :
    (child? segment v).all isPlain = true := by
  cases v with
  | object fields => exact all_isPlain_field (isPlain_object.1 h).2 segment
  | array items =>
    rw [child?]
    cases index? segment with
    | none => rfl
    | some i => exact all_isPlain_item (isPlain_array.1 h) i
  | null | bool b | number n | text s => rfl

theorem all_isPlain_length? (segment : String) (v : Value) :
    (length? segment v).all isPlain = true := by
  cases v with
  | array items =>
    rw [length?]
    split <;> rfl
  | object fields | null | bool b | number n | text s => rfl

theorem all_isPlain_read? {v : Value} (h : v.isPlain = true) (segments : List String) :
    (read? segments v).all isPlain = true := by
  induction segments generalizing v with
  | nil => rfl
  | cons segment rest ih =>
    have hchild := all_isPlain_child? h segment
    cases rest with
    | nil => exact all_isPlain_or hchild (all_isPlain_length? segment v)
    | cons next rest => exact all_isPlain_bind hchild fun w hw => ih hw

theorem all_isPlain_get? {document : Value} (h : document.isPlain = true) (path : String) :
    (get? path document).all isPlain = true :=
  all_isPlain_read? h (segments path)

end Path

end DataBinding
