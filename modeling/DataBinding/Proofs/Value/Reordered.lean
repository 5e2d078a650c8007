import DataBinding.Value.Basic

/-!
# Documents that differ in the order of keys

Two documents are reorderings of each other if they differ only in the order of the keys of their
objects, at any depth. An object is compared key by key: what stands under a key in one object must
stand under it in the other.

Results:
* `under_insert`, `under_erase`: what stands under each key after a change of one.
* `Reordered.refl`, `Reordered.symm`, `Reordered.trans`: an equivalence.
* `Reordered.array?`, `Reordered.field?`: the parts of reordered documents.
-/

namespace DataBinding

namespace Fields

/-- The values under a key, of which a document has at most one. -/
def under (key : String) : Fields → List Value
  | [] => []
  | (k, v) :: rest => if k = key then v :: under key rest else under key rest

theorem head?_under (key : String) (fields : Fields) :
    (under key fields).head? = get? key fields := by
  induction fields with
  | nil => rfl
  | cons f rest ih =>
    rw [under, get?]
    split
    · rfl
    · exact ih

theorem under_insert (key other : String) (value : Value) (fields : Fields) :
    under other (insert key value fields) =
      if other = key then value :: (under other fields).tail else under other fields := by
  induction fields with
  | nil => by_cases ho : other = key <;> simp [insert, under, ho, Ne.symm]
  | cons f rest ih =>
    obtain ⟨k, v⟩ := f
    by_cases hk : k = key
    · by_cases ho : other = key <;> simp [insert, under, hk, ho, Ne.symm]
    · rw [insert, if_neg hk, under, ih, under]
      by_cases ho : other = key <;> simp [ho, hk]

theorem under_erase (key other : String) (fields : Fields) :
    under other (erase key fields) =
      if other = key then (under other fields).tail else under other fields := by
  induction fields with
  | nil => split <;> rfl
  | cons f rest ih =>
    obtain ⟨k, v⟩ := f
    by_cases hk : k = key
    · by_cases ho : other = key <;> simp [erase, under, hk, ho, Ne.symm]
    · rw [erase, if_neg hk, under, ih, under]
      by_cases ho : other = key <;> simp [ho, hk]

end Fields

open Fields (under)

namespace Value

mutual

/-- The documents differ only in the order of keys. -/
inductive Reordered : Value → Value → Prop
  | scalar {v : Value} (h : v.isContainer = false) : Reordered v v
  | array {items others : List Value} (h : ReorderedAll items others) :
      Reordered (array items) (array others)
  | object {fields others : Fields}
      (h : ∀ key, ReorderedAll (under key fields) (under key others)) :
      Reordered (object fields) (object others)

/-- The documents at the same positions differ only in the order of keys. -/
inductive ReorderedAll : List Value → List Value → Prop
  | nil : ReorderedAll [] []
  | cons {v w : Value} {vs ws : List Value} (h : Reordered v w) (hs : ReorderedAll vs ws) :
      ReorderedAll (v :: vs) (w :: ws)

end

/-! ## An equivalence -/

mutual

theorem Reordered.refl : ∀ v : Value, Reordered v v
  | array items => .array (ReorderedAll.refl items)
  | object fields => .object (reordered_under fields)
  | null => .scalar rfl
  | bool _ => .scalar rfl
  | number _ => .scalar rfl
  | text _ => .scalar rfl

theorem ReorderedAll.refl : ∀ items : List Value, ReorderedAll items items
  | [] => .nil
  | v :: rest => .cons (Reordered.refl v) (ReorderedAll.refl rest)

theorem reordered_under : ∀ (fields : Fields) (key : String),
    ReorderedAll (under key fields) (under key fields)
  | [], _ => .nil
  | (k, v) :: rest, key => by
    rw [Fields.under]
    split
    · exact .cons (Reordered.refl v) (reordered_under rest key)
    · exact reordered_under rest key

end

mutual

theorem Reordered.symm {v w : Value} : Reordered v w → Reordered w v
  | .scalar h => .scalar h
  | .array h => .array h.symm
  | .object h => .object fun key => (h key).symm

theorem ReorderedAll.symm {vs ws : List Value} : ReorderedAll vs ws → ReorderedAll ws vs
  | .nil => .nil
  | .cons h hs => .cons h.symm hs.symm

end

mutual

theorem Reordered.trans {u v w : Value} : Reordered u v → Reordered v w → Reordered u w
  | .scalar _, h => h
  | .array h, h' => by
    cases h' with
    | scalar hs => cases hs
    | array h' => exact .array (h.trans h')
  | .object h, h' => by
    cases h' with
    | scalar hs => cases hs
    | object h' => exact .object fun key => (h key).trans (h' key)

theorem ReorderedAll.trans {us vs ws : List Value} :
    ReorderedAll us vs → ReorderedAll vs ws → ReorderedAll us ws
  | .nil, h => h
  | .cons h hs, h' => by
    cases h' with
    | cons h' hs' => exact .cons (h.trans h') (hs.trans hs')

end

/-! ## Parts -/

theorem ReorderedAll.head? {vs ws : List Value} (h : ReorderedAll vs ws) :
    Option.Rel Reordered vs.head? ws.head? := by
  cases h with
  | nil => exact .none
  | cons h hs => exact .some h

theorem ReorderedAll.tail {vs ws : List Value} (h : ReorderedAll vs ws) :
    ReorderedAll vs.tail ws.tail := by
  cases h with
  | nil => exact .nil
  | cons h hs => exact hs

theorem Reordered.array? {v w : Value} (h : Reordered v w) :
    Option.Rel ReorderedAll v.array? w.array? := by
  cases h with
  | scalar hv =>
    cases v with
    | array items => cases hv
    | null | bool b | number n | text s | object fields => exact .none
  | array h => exact .some h
  | object h => exact .none

/-- What stands under a key, if the documents are objects. -/
theorem Reordered.field? {v w : Value} (h : Reordered v w) (key : String) :
    Option.Rel Reordered (v.object?.bind (Fields.get? key)) (w.object?.bind (Fields.get? key)) := by
  cases h with
  | scalar hv =>
    cases v with
    | object fields => cases hv
    | null | bool b | number n | text s | array items => exact .none
  | array h => exact .none
  | @object fields others h =>
    rw [Value.object?, Value.object?, Option.bind_some, Option.bind_some, ← Fields.head?_under,
      ← Fields.head?_under]
    exact (h key).head?

theorem Reordered.isContainer {v w : Value} (h : Reordered v w) :
    v.isContainer = w.isContainer := by
  cases h <;> rfl

theorem Reordered.number? {v w : Value} (h : Reordered v w) : v.number? = w.number? := by
  cases h <;> rfl

end Value

end DataBinding
