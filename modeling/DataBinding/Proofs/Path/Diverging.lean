import DataBinding.Proofs.Path.Barred

/-!
# Paths that diverge

Two paths diverge if at some position both have a segment and the two segments name different parts
of every container. Segments of digits with the same number name the same element of an array, so
they do not count. A write touches only what its path leads to: what stands at a path that diverges
from it stays, whatever containers the write creates or replaces on its way. A deletion must not
end in an index, because the elements after the one deleted move.

Results:
* `diverge_cons_iff`: paths diverge at their first segments or after them.
* `child?_writeChild_of_diverge`: a write under one segment leaves the part under another.
* `index?_eq_some_iff`: the digits that are an index.
* `read?_eq_follow?`: only `length` at the end tells reading from following.
* `follow?_write_of_diverge`, `get?_update_of_diverge`: a write leaves what diverges from its path.
-/

namespace DataBinding.Path

/-- The segments are equal, or digits of the same number. -/
def SameSlot (a b : String) : Prop :=
  a = b ∨ isIndex a = true ∧ isIndex b = true ∧
    Text.digitsValue a.toList = Text.digitsValue b.toList

instance (a b : String) : Decidable (SameSlot a b) := inferInstanceAs (Decidable (_ ∨ _))

/-- At some position both paths have a segment, and the segments name different parts. -/
def Diverge (p q : List String) : Prop :=
  ∃ (i : Nat) (a b : String), p[i]? = some a ∧ q[i]? = some b ∧ ¬SameSlot a b

theorem not_diverge_nil_left (q : List String) : ¬Diverge [] q := by
  rintro ⟨i, a, b, ha, -⟩
  cases ha

theorem not_diverge_nil_right (p : List String) : ¬Diverge p [] := by
  rintro ⟨i, a, b, -, hb, -⟩
  cases hb

theorem diverge_cons_iff {a b : String} {p q : List String} :
    Diverge (a :: p) (b :: q) ↔ ¬SameSlot a b ∨ Diverge p q := by
  constructor
  · rintro ⟨i, c, d, hc, hd, h⟩
    cases i with
    | zero =>
      obtain rfl := Option.some.inj hc
      obtain rfl := Option.some.inj hd
      exact .inl h
    | succ i => exact .inr ⟨i, c, d, hc, hd, h⟩
  · rintro (h | ⟨i, c, d, hc, hd, h⟩)
    · exact ⟨0, a, b, rfl, rfl, h⟩
    · exact ⟨i + 1, c, d, hc, hd, h⟩

instance decidableDiverge : (p q : List String) → Decidable (Diverge p q)
  | [], q => .isFalse (not_diverge_nil_left q)
  | a :: p, [] => .isFalse (not_diverge_nil_right (a :: p))
  | _ :: p, _ :: q =>
    have := decidableDiverge p q
    decidable_of_iff _ diverge_cons_iff.symm

/-! ## Segments as indices -/

theorem index?_eq_some_iff {segment : String} {i : Nat} :
    index? segment = some i ↔
      isIndex segment = true ∧ i < wordBound ∧ Text.digitsValue segment.toList = i := by
  rw [index?, Text.word64?, Text.below?_eq, isIndex]
  split
  · rename_i hdigits
    split
    · rename_i hlt
      rw [Option.some.injEq]
      exact ⟨fun h => ⟨hdigits, h ▸ hlt, h⟩, fun h => h.2.2⟩
    · rename_i hge
      exact iff_of_false (by simp) fun h => hge (h.2.2 ▸ h.2.1)
  · rename_i hdigits
    exact iff_of_false (by simp) fun h => hdigits h.1

theorem isIndex_of_index? {segment : String} {i : Nat} (h : index? segment = some i) :
    isIndex segment = true ∧ Text.digitsValue segment.toList = i := by
  obtain ⟨hindex, -, hvalue⟩ := index?_eq_some_iff.1 h
  exact ⟨hindex, hvalue⟩

theorem index?_eq_none_of_isIndex {segment : String} (h : isIndex segment = false) :
    index? segment = none := by
  rw [Option.eq_none_iff_forall_not_mem]
  intro i hi
  rw [(isIndex_of_index? hi).1] at h
  cases h

/-- In an array, segments of the same number are as good as equal. -/
theorem index?_congr {a b : String} (h : SameSlot a b) : index? a = index? b := by
  rcases h with rfl | ⟨ha, hb, hvalue⟩
  · rfl
  · rw [isIndex] at ha hb
    rw [index?, index?, Text.word64?, Text.word64?, ha, hb, Text.below?_eq, Text.below?_eq, hvalue]

theorem index_ne_of_not_sameSlot {a b : String} {i j : Nat} (h : ¬SameSlot a b)
    (hi : index? a = some i) (hj : index? b = some j) : i ≠ j := by
  rintro rfl
  obtain ⟨ha, hvalue⟩ := isIndex_of_index? hi
  obtain ⟨hb, hvalue'⟩ := isIndex_of_index? hj
  exact h (.inr ⟨ha, hb, hvalue.trans hvalue'.symm⟩)

/-! ## One step -/

section Step

variable {a b : String} {v child : Value}

theorem getElem?_of_pad? {items padded : List Value} {i : Nat} (h : pad? items i = some padded)
    {j : Nat} (hj : j < items.length) : padded[j]? = items[j]? := by
  rw [pad?] at h
  split at h
  · rw [Option.some.inj h]
  · split at h
    · rw [← Option.some.inj h, List.getElem?_append_left hj]
    · cases h

/-- A write under one segment leaves the part under another; a deletion does unless it moves the
    elements of an array. -/
theorem child?_writeChild_of_diverge {new : Option Value} (h : ¬SameSlot a b)
    (hnew : new = none → isIndex a = false) (hchild : child? b v = some child) :
    child? b (writeChild new a v) = some child := by
  have hne : b ≠ a := fun hba => h (.inl hba.symm)
  cases v with
  | object fields =>
    cases new with
    | some w =>
      rw [← hchild]
      exact Fields.get?_insert_of_ne hne w fields
    | none =>
      rw [← hchild]
      exact Fields.get?_erase_of_ne hne fields
  | array items =>
    rw [child?, Option.bind_eq_some_iff] at hchild
    obtain ⟨j, hj, hitem⟩ := hchild
    obtain ⟨hlt, -⟩ := List.getElem?_eq_some_iff.1 hitem
    rw [writeChild]
    cases hi : index? a with
    | none => rw [child?, hj, Option.bind_some, hitem]
    | some i =>
      have hij : i ≠ j := index_ne_of_not_sameSlot h hi hj
      cases new with
      | none =>
        rw [index?_eq_none_of_isIndex (hnew rfl)] at hi
        cases hi
      | some w =>
        simp only [child?, hj, Option.bind_some]
        cases hpad : pad? items i with
        | none => exact hitem
        | some padded =>
          rw [Option.map_some, Option.getD_some, List.getElem?_set_ne hij,
            getElem?_of_pad? hpad hlt, hitem]
  | null | bool b | number n | text s => cases hchild

theorem barredAt_of_child? (h : child? a v = some child) : barredAt a v = false := by
  rw [Bool.eq_false_iff]
  intro hbarred
  rw [child?_of_barredAt hbarred] at h
  cases h

theorem writeChild_array (new : Option Value) (segment : String) (items : List Value) :
    ∃ elements, writeChild new segment (.array items) = .array elements := by
  rw [writeChild]
  split
  · exact ⟨_, rfl⟩
  · split <;> exact ⟨_, rfl⟩

/-- Segments of the same number are one part of an array and two keys of an object. -/
theorem child?_writeChild_of_sameSlot (h : SameSlot a b) (hchild : child? b v = some child) :
    (∀ part, child? b (writeChild part a v) = some child) ∨
      child? a v = some child ∧ ∀ w, child? b (writeChild (some w) a v) = some w := by
  by_cases hab : a = b
  · rw [hab]
    exact .inr ⟨hchild, fun w => child?_writeChild_self (barredAt_of_child? hchild)⟩
  · cases v with
    | object fields =>
      refine .inl fun part => ?_
      rw [← hchild]
      cases part with
      | some w => exact Fields.get?_insert_of_ne (Ne.symm hab) w fields
      | none => exact Fields.get?_erase_of_ne (Ne.symm hab) fields
    | array items =>
      have hread : ∀ elements, child? a (.array elements) = child? b (.array elements) := by
        intro elements
        rw [child?, child?, index?_congr h]
      rw [← hread] at hchild
      refine .inr ⟨hchild, fun w => ?_⟩
      obtain ⟨elements, helements⟩ := writeChild_array (some w) a items
      have hself := child?_writeChild_self (w := w) (barredAt_of_child? hchild)
      rw [helements] at hself ⊢
      exact (hread elements).symm.trans hself
    | null | bool b | number n | text s => cases hchild

end Step

/-! ## Walks -/

section Walk

variable {new : Option Value} {p q : List String} {v w : Value}

theorem isContainer_of_follow? (hne : q ≠ []) (h : follow? q v = some w) :
    v.isContainer = true := by
  obtain ⟨segment, rest, rfl⟩ := List.exists_cons_of_ne_nil hne
  cases v with
  | array items => rfl
  | object fields => rfl
  | null | bool b | number n | text s => cases h

/-- A write changes at most the part under the first segment of its path. It removes that part only
    if it is a deletion that has no further to go. -/
theorem write_cons_cases (new : Option Value) (segment : String) (rest : List String) (v : Value) :
    write new (segment :: rest) v = v ∨
      ∃ part, write new (segment :: rest) v = writeChild part segment v ∧
        (part = none → new = none ∧ rest = []) := by
  cases rest with
  | nil => exact .inr ⟨new, rfl, fun hnone => ⟨hnone, rfl⟩⟩
  | cons next rest =>
    rw [write]
    split
    · exact .inl rfl
    · exact .inr ⟨_, rfl, fun hnone => by cases hnone⟩

/-- Past a container that is there, a write goes on in it. -/
theorem write_of_child? {segment next : String} {rest : List String} {child : Value}
    (hchild : child? segment v = some child) (hcontainer : child.isContainer = true) :
    write new (segment :: next :: rest) v =
      writeChild (some (write new (next :: rest) child)) segment v := by
  rw [write, hchild, Option.getD_some, hcontainer, Bool.not_true, Bool.and_false,
    containerFor_of_isContainer next hcontainer]
  rfl

/-- What stands at a path stays, if a write takes another way. The induction follows both paths as
    far as they name the same parts. -/
theorem follow?_write_of_diverge (h : Diverge p q)
    (hlast : new = none → ∀ segment ∈ p.getLast?, isIndex segment = false)
    (hq : follow? q v = some w) : follow? q (write new p v) = some w := by
  induction p generalizing q v with
  | nil => exact absurd h (not_diverge_nil_left q)
  | cons a p ih =>
    cases q with
    | nil => exact absurd h (not_diverge_nil_right _)
    | cons b q =>
      rw [follow?, Option.bind_eq_some_iff] at hq
      obtain ⟨child, hchild, hrest⟩ := hq
      by_cases hab : SameSlot a b
      · -- the paths part further on, so both go through the child
        have hpq : Diverge p q := (diverge_cons_iff.1 h).resolve_left (not_not_intro hab)
        have hcontainer : child.isContainer = true := by
          refine isContainer_of_follow? ?_ hrest
          rintro rfl
          exact not_diverge_nil_right p hpq
        obtain ⟨next, rest, rfl⟩ : ∃ next rest, p = next :: rest := by
          refine List.exists_cons_of_ne_nil ?_
          rintro rfl
          exact not_diverge_nil_left q hpq
        have hbelow : follow? q (write new (next :: rest) child) = some w :=
          ih hpq (by simpa using hlast) hrest
        rcases child?_writeChild_of_sameSlot hab hchild with hkeep | ⟨hsame, hwritten⟩
        · rcases write_cons_cases new a (next :: rest) v with heq | ⟨part, heq, -⟩
          · rw [heq, follow?, hchild, Option.bind_some, hrest]
          · rw [heq, follow?, hkeep part, Option.bind_some, hrest]
        · rw [write_of_child? hsame hcontainer, follow?, hwritten, Option.bind_some, hbelow]
      · rcases write_cons_cases new a p v with heq | ⟨part, heq, hpart⟩
        · rw [heq, follow?, hchild, Option.bind_some, hrest]
        · have hindex : part = none → isIndex a = false := by
            intro hnone
            obtain ⟨hnew, rfl⟩ := hpart hnone
            exact hlast hnew a rfl
          rw [heq, follow?, child?_writeChild_of_diverge hab hindex hchild, Option.bind_some, hrest]

/-- Reading is following, unless the path ends in `length`. -/
theorem read?_eq_follow? (hne : q ≠ []) (h : q.getLast? ≠ some "length") (v : Value) :
    read? q v = follow? q v := by
  refine Option.ext fun w => ?_
  rw [read?_eq_some_iff]
  constructor
  · rintro (⟨-, hfollow⟩ | ⟨front, items, rfl, -, -⟩)
    · exact hfollow
    · exact absurd List.getLast?_concat h
  · intro hfollow
    exact .inl ⟨hne, hfollow⟩

end Walk

/-- What a document has at a path stays, if a write takes another way. -/
theorem get?_update_of_diverge {path other : String} {new : Option Value} {document w : Value}
    (h : path ≠ "" → Diverge (segments path) (segments other))
    (hlast : new = none → ∀ segment ∈ (segments path).getLast?, isIndex segment = false)
    (hlength : (segments other).getLast? ≠ some "length") (hw : get? other document = some w) :
    get? other (update path new document) = some w := by
  by_cases hempty : path = ""
  · rw [hempty, update_nil, hw]
  · have hne : segments other ≠ [] := by
      intro hnil
      rw [get?, hnil] at hw
      cases hw
    rw [get?, read?_eq_follow? hne hlength] at hw ⊢
    exact follow?_write_of_diverge (h hempty) hlast hw

end DataBinding.Path
