import DataBinding.Proofs.Path.Diverging
import DataBinding.Proofs.Value.Reordered

/-!
# Writes that commute

Two writes commute, up to the order of keys, if neither path is a prefix of the other and no segment
is an index. Then both writes create the same containers where their ways run together, and an array
bars both.

Results:
* `write_of_not_object`, `write_object`: what a write does to the fields of an object.
* `reordered_write`: reordered documents stay so under the same write.
* `reordered_write_write`: two writes in either order.
* `reordered_update`, `reordered_update_update`: the same for dotted paths.
-/

namespace DataBinding.Path

open Fields (under)
open Value (Reordered ReorderedAll)

/-- No segment is an index. -/
def Indexless (p : List String) : Prop := ∀ segment ∈ p, isIndex segment = false

instance (p : List String) : Decidable (Indexless p) :=
  inferInstanceAs (Decidable (∀ segment ∈ p, _))

theorem Indexless.tail {segment : String} {p : List String} (h : Indexless (segment :: p)) :
    Indexless p := fun s hs => h s (List.mem_cons_of_mem segment hs)

/-! ## One write -/

section Write

variable {p : List String} {v : Value}

theorem writeChild_of_not_object {segment : String} (hs : isIndex segment = false)
    (hv : v.object? = none) (part : Option Value) : writeChild part segment v = v := by
  cases v with
  | object fields => cases hv
  | array items => rw [writeChild, index?_eq_none_of_isIndex hs]
  | null | bool b | number n | text s => rfl

/-- Names lead nowhere but into objects. -/
theorem write_of_not_object (hp : Indexless p) (hv : v.object? = none) (new : Option Value) :
    write new p v = v := by
  cases p with
  | nil => rfl
  | cons segment rest =>
    rcases write_cons_cases new segment rest v with h | ⟨part, h, -⟩
    · exact h
    · rw [h, writeChild_of_not_object (hp segment List.mem_cons_self) hv]

/-- What stands under the first segment of a path after a write, where `old` stood before. -/
def underAfter (new : Option Value) (rest : List String) (old : List Value) : List Value :=
  match rest with
  | [] => new.toList ++ old.tail
  | next :: rest =>
    let child := old.head?.getD .null
    if new.isNone && !child.isContainer then old
    else write new (next :: rest) (containerFor next child) :: old.tail

/-- A write changes what stands under its first segment, and no other field. -/
theorem write_object (new : Option Value) (segment : String) (rest : List String)
    (fields : Fields) : ∃ after, write new (segment :: rest) (.object fields) = .object after ∧
      ∀ key, under key after =
        if key = segment then underAfter new rest (under segment fields) else under key fields := by
  have hinsert : ∀ w key, under key (Fields.insert segment w fields) =
      if key = segment then w :: (under segment fields).tail else under key fields := by
    intro w key
    rw [Fields.under_insert]
    split
    · rename_i hkey
      rw [hkey]
    · rfl
  cases rest with
  | nil =>
    cases new with
    | some w => exact ⟨Fields.insert segment w fields, rfl, hinsert w⟩
    | none =>
      refine ⟨Fields.erase segment fields, rfl, fun key => ?_⟩
      rw [Fields.under_erase]
      split
      · rename_i hkey
        rw [hkey]
        rfl
      · rfl
  | cons next rest =>
    have hchild : child? segment (.object fields) = (under segment fields).head? :=
      (Fields.head?_under segment fields).symm
    rw [write, hchild]
    simp only [underAfter]
    split
    · refine ⟨fields, rfl, fun key => ?_⟩
      split
      · rename_i hkey
        rw [hkey]
      · rfl
    · exact ⟨_, rfl, hinsert _⟩

end Write

/-! ## Reordered documents -/

section Congruence

variable {new : Option Value} {p : List String} {v w : Value}

theorem reordered_containerFor (next : String) (h : Reordered v w) :
    Reordered (containerFor next v) (containerFor next w) := by
  rw [containerFor, containerFor, h.isContainer]
  split
  · exact h
  · exact .refl _

theorem reordered_getD_null {o o' : Option Value} (h : Option.Rel Reordered o o') :
    Reordered (o.getD .null) (o'.getD .null) := by
  cases h with
  | none => exact .refl _
  | some h => exact h

theorem reordered_underAfter {old others : List Value} (h : ReorderedAll old others)
    (hwrite : ∀ v w, Reordered v w → Reordered (write new p v) (write new p w)) :
    ReorderedAll (underAfter new p old) (underAfter new p others) := by
  cases p with
  | nil =>
    cases new with
    | none => exact h.tail
    | some w => exact .cons (.refl w) h.tail
  | cons next rest =>
    have hchild := reordered_getD_null h.head?
    simp only [underAfter, hchild.isContainer]
    split
    · exact h
    · exact .cons (hwrite _ _ (reordered_containerFor next hchild)) h.tail

/-- Documents that differ in the order of keys do so after the same write. -/
theorem reordered_write (hp : Indexless p) (h : Reordered v w) :
    Reordered (write new p v) (write new p w) := by
  induction p generalizing v w with
  | nil => exact h
  | cons segment rest ih =>
    cases h with
    | scalar hv => exact .refl _
    | array h =>
      rw [write_of_not_object hp rfl, write_of_not_object hp rfl]
      exact .array h
    | @object fields others h =>
      obtain ⟨after, hafter, hunder⟩ := write_object new segment rest fields
      obtain ⟨after', hafter', hunder'⟩ := write_object new segment rest others
      rw [hafter, hafter']
      refine .object fun key => ?_
      rw [hunder, hunder']
      split
      · exact reordered_underAfter (h segment) fun v w hvw => ih hp.tail hvw
      · exact h key

end Congruence

/-! ## Two writes -/

section Commute

variable {x y : Option Value} {p q : List String}

theorem write_none_empty (q : List String) : write none q (.object []) = .object [] := by
  match q with
  | [] => rfl
  | [segment] => rfl
  | segment :: next :: rest => rfl

/-- Where a container stands, a longer path goes on in it. -/
theorem underAfter_of_isContainer {old : List Value} (hp : p ≠ [])
    (h : (old.head?.getD .null).isContainer = true) :
    underAfter x p old = write x p (old.head?.getD .null) :: old.tail := by
  obtain ⟨next, rest, rfl⟩ := List.exists_cons_of_ne_nil hp
  simp only [underAfter, h, Bool.not_true, Bool.and_false, containerFor_of_isContainer next h]
  rfl

/-- Where none stands, a longer path of names makes an object; a deletion makes nothing. -/
theorem underAfter_of_not_isContainer {old : List Value} (hp : p ≠ []) (hnames : Indexless p)
    (h : (old.head?.getD .null).isContainer = false) :
    underAfter x p old = if x.isNone then old else write x p (.object []) :: old.tail := by
  obtain ⟨next, rest, rfl⟩ := List.exists_cons_of_ne_nil hp
  have hempty : containerFor next (old.head?.getD .null) = .object [] := by
    rw [containerFor, h, emptyFor, hnames next List.mem_cons_self]
    rfl
  simp only [underAfter, h, hempty, Bool.not_false, Bool.and_true]

theorem reordered_underAfter_underAfter (hp : p ≠ []) (hq : q ≠ []) (hpn : Indexless p)
    (hqn : Indexless q)
    (hcomm : ∀ v, Reordered (write x p (write y q v)) (write y q (write x p v)))
    (old : List Value) :
    ReorderedAll (underAfter x p (underAfter y q old)) (underAfter y q (underAfter x p old)) := by
  have hinto : ∀ (z : Option Value) (r : List String) (child : Value) (tail : List Value),
      r ≠ [] → child.isContainer = true →
        underAfter z r (child :: tail) = write z r child :: tail :=
    fun z r child tail hr hc => underAfter_of_isContainer hr hc
  cases hc : (old.head?.getD .null).isContainer with
  | true =>
    rw [underAfter_of_isContainer hq hc, underAfter_of_isContainer hp hc,
      hinto x p _ _ hp (isContainer_write y q hc), hinto y q _ _ hq (isContainer_write x p hc)]
    exact .cons (hcomm _) (.refl _)
  | false =>
    have hobject : ∀ (z : Option Value) (r : List String),
        (write z r (.object [])).isContainer = true := fun z r => isContainer_write z r rfl
    -- a deletion finds nothing, before the other write or in what that one has made
    have hempty := hcomm (.object [])
    rw [underAfter_of_not_isContainer hq hqn hc, underAfter_of_not_isContainer hp hpn hc]
    cases x with
    | none =>
      cases y with
      | none =>
        simp only [Option.isNone_none, if_true, underAfter_of_not_isContainer hq hqn hc,
          underAfter_of_not_isContainer hp hpn hc]
        exact .refl old
      | some y =>
        rw [write_none_empty] at hempty
        simp only [Option.isNone_none, Option.isNone_some, if_true, Bool.false_eq_true, if_false,
          underAfter_of_not_isContainer hq hqn hc, hinto none p _ _ hp (hobject _ q)]
        exact .cons hempty (.refl _)
    | some x =>
      cases y with
      | none =>
        rw [write_none_empty] at hempty
        simp only [Option.isNone_none, Option.isNone_some, if_true, Bool.false_eq_true, if_false,
          underAfter_of_not_isContainer hp hpn hc, hinto none q _ _ hq (hobject _ p)]
        exact .cons hempty (.refl _)
      | some y =>
        simp only [Option.isNone_some, Bool.false_eq_true, if_false,
          hinto _ p _ _ hp (hobject _ q), hinto _ q _ _ hq (hobject _ p)]
        exact .cons hempty (.refl _)

/-- The induction follows the two paths as far as they run together. -/
theorem reordered_write_write (hp : Indexless p) (hq : Indexless q) (h : ¬p <+: q) (h' : ¬q <+: p)
    (v : Value) : Reordered (write x p (write y q v)) (write y q (write x p v)) := by
  induction p generalizing q v with
  | nil => exact absurd List.nil_prefix h
  | cons a p ih =>
    cases q with
    | nil => exact absurd List.nil_prefix h'
    | cons b q =>
      cases hv : v.object? with
      | none =>
        rw [write_of_not_object hq hv, write_of_not_object hp hv, write_of_not_object hq hv]
        exact .refl v
      | some fields =>
        obtain rfl : v = .object fields := by
          cases v <;> simp_all [Value.object?]
        obtain ⟨afterX, hx, hunderX⟩ := write_object x a p fields
        obtain ⟨afterY, hy, hunderY⟩ := write_object y b q fields
        obtain ⟨afterXY, hxy, hunderXY⟩ := write_object x a p afterY
        obtain ⟨afterYX, hyx, hunderYX⟩ := write_object y b q afterX
        rw [hx, hy, hxy, hyx]
        refine .object fun key => ?_
        rw [hunderXY, hunderYX, hunderX, hunderX, hunderY, hunderY]
        by_cases hab : a = b
        · subst hab
          rw [List.prefix_cons_inj] at h h'
          have hpne : p ≠ [] := fun hnil => h (hnil ▸ List.nil_prefix)
          have hqne : q ≠ [] := fun hnil => h' (hnil ▸ List.nil_prefix)
          split
          · rw [if_pos rfl, if_pos rfl]
            exact reordered_underAfter_underAfter hpne hqne hp.tail hq.tail
              (ih hp.tail hq.tail h h') _
          · exact .refl _
        · rw [if_neg hab, if_neg (Ne.symm hab)]
          by_cases hkey : key = a
          · rw [if_pos hkey, if_neg (fun hkb => hab (hkey.symm.trans hkb)), if_pos hkey]
            exact .refl _
          · rw [if_neg hkey, if_neg hkey]
            exact .refl _

end Commute

/-! ## Dotted paths -/

/-- Neither path is a prefix of the other, or one of them is empty, where nothing is written. -/
def Independent (path other : String) : Prop :=
  path = "" ∨ other = "" ∨
    ¬segments path <+: segments other ∧ ¬segments other <+: segments path

instance (path other : String) : Decidable (Independent path other) :=
  inferInstanceAs (Decidable (_ ∨ _ ∨ _))

theorem Independent.symm {path other : String} (h : Independent path other) :
    Independent other path := by
  rcases h with h | h | h
  · exact .inr (.inl h)
  · exact .inl h
  · exact .inr (.inr h.symm)

theorem reordered_update {path : String} (hpath : Indexless (segments path)) (new : Option Value)
    {v w : Value} (h : Reordered v w) : Reordered (update path new v) (update path new w) :=
  reordered_write hpath h

theorem reordered_update_update {path other : String} (hpath : Indexless (segments path))
    (hother : Indexless (segments other)) (h : Independent path other) (x y : Option Value)
    (v : Value) :
    Reordered (update path x (update other y v)) (update other y (update path x v)) := by
  rcases h with rfl | rfl | ⟨h, h'⟩
  · rw [update_nil, update_nil]
    exact .refl _
  · rw [update_nil, update_nil]
    exact .refl _
  · exact reordered_write_write hpath hother h h' v

end DataBinding.Path
