import DataBinding.Proofs.Path.Writable

/-!
# How much a write can add

The nodes of a document are the values in it. At every segment of its path a write adds at most the
padding of one array and the value there, so a document grows by the value that is put in and a
fixed number of nodes for every segment. No array outside of that value grows by more than one
padding, and none that the write creates is longer than that.

A place is the way to a value by keys and indices, whatever segments may have led there.

Results:
* `append_of_pad?`, `getElem?_pad?`: what padding adds, and what stands at the index after it.
* `size_writeChild_le`, `size_write_le`: how many nodes a write adds.
* `part?_writeChild_of_ne`: a write under one segment leaves the other parts, or adds a `null`.
* `lengthAt_write_le`: how much the array at a place grows.
-/

namespace DataBinding

/-! ## Nodes -/

namespace Value

mutual

/-- The number of values in a value, itself included. -/
def size : Value → Nat
  | array items => 1 + itemsSize items
  | object fields => 1 + fieldsSize fields
  | _ => 1

def itemsSize : List Value → Nat
  | [] => 0
  | v :: rest => size v + itemsSize rest

def fieldsSize : Fields → Nat
  | [] => 0
  | (_, v) :: rest => size v + fieldsSize rest

end

theorem one_le_size (v : Value) : 1 ≤ v.size := by
  cases v <;> unfold size <;> omega

theorem itemsSize_append (a b : List Value) :
    itemsSize (a ++ b) = itemsSize a + itemsSize b := by
  induction a with
  | nil => simp [itemsSize]
  | cons v rest ih =>
    rw [List.cons_append, itemsSize, itemsSize, ih]
    omega

theorem itemsSize_replicate_null (n : Nat) : itemsSize (List.replicate n null) = n := by
  induction n with
  | zero => rfl
  | succ n ih =>
    rw [List.replicate_succ, itemsSize, ih, size]
    · omega
    all_goals nofun

theorem itemsSize_set {items : List Value} {i : Nat} {old : Value} (h : items[i]? = some old)
    (new : Value) : itemsSize (items.set i new) + old.size = itemsSize items + new.size := by
  induction items generalizing i with
  | nil => cases h
  | cons v rest ih =>
    cases i with
    | zero =>
      obtain rfl := Option.some.inj h
      rw [List.set_cons_zero, itemsSize, itemsSize]
      omega
    | succ i =>
      have hrest := ih h
      rw [List.set_cons_succ, itemsSize, itemsSize]
      omega

/-- A new value under a key takes the room of the old one, if there is one. -/
theorem fieldsSize_insert (key : String) (new : Value) (fields : Fields) :
    fieldsSize (Fields.insert key new fields) + ((Fields.get? key fields).elim 0 size) =
      fieldsSize fields + new.size := by
  induction fields with
  | nil => simp [Fields.insert, Fields.get?, fieldsSize]
  | cons field rest ih =>
    obtain ⟨k, v⟩ := field
    by_cases hk : k = key
    · rw [Fields.insert, Fields.get?, if_pos hk, if_pos hk, fieldsSize, fieldsSize, Option.elim]
      omega
    · rw [Fields.insert, Fields.get?, if_neg hk, if_neg hk, fieldsSize, fieldsSize]
      omega

theorem length_le_itemsSize (items : List Value) : items.length ≤ itemsSize items := by
  induction items with
  | nil => exact Nat.zero_le _
  | cons v rest ih =>
    have hone := one_le_size v
    rw [List.length_cons, itemsSize]
    omega

theorem size_le_itemsSize {items : List Value} {i : Nat} {v : Value} (h : items[i]? = some v) :
    v.size ≤ itemsSize items := by
  induction items generalizing i with
  | nil => cases h
  | cons u rest ih =>
    rw [itemsSize]
    cases i with
    | zero =>
      obtain rfl := Option.some.inj h
      omega
    | succ i =>
      have hrest := ih h
      omega

theorem size_le_fieldsSize {key : String} {fields : Fields} {v : Value}
    (h : Fields.get? key fields = some v) : v.size ≤ fieldsSize fields := by
  induction fields with
  | nil => cases h
  | cons field rest ih =>
    obtain ⟨k, u⟩ := field
    rw [fieldsSize]
    rw [Fields.get?] at h
    split at h
    · obtain rfl := Option.some.inj h
      omega
    · have hrest := ih h
      omega

end Value

namespace Path

/-! ## Padding -/

section Padding

variable {items padded : List Value} {index : Nat}

/-- Padding adds nothing in front of the end, and past it as much as the index asks for. -/
theorem append_of_pad? (h : pad? items index = some padded) :
    index + 1 - items.length ≤ maxPadding + 1 ∧
      padded = items ++ List.replicate (index + 1 - items.length) .null := by
  rw [pad?] at h
  split at h
  · rw [show index + 1 - items.length = 0 by omega]
    exact ⟨by omega, by simpa using h.symm⟩
  · split at h
    · exact ⟨by omega, (Option.some.inj h).symm⟩
    · cases h

theorem getElem?_pad? (h : pad? items index = some padded) :
    padded[index]? = some (items[index]?.getD .null) := by
  obtain ⟨-, rfl⟩ := append_of_pad? h
  rcases Nat.lt_or_ge index items.length with hlt | hge
  · rw [List.getElem?_append_left hlt, List.getElem?_eq_getElem hlt, Option.getD_some]
  · rw [List.getElem?_append_right hge, List.getElem?_eq_none hge, Option.getD_none,
      List.getElem?_replicate_of_lt (by omega)]

theorem writeChild_of_pad? {segment : String} {w : Value}
    (hindex : index? segment = some index) (hpad : pad? items index = some padded) :
    writeChild (some w) segment (.array items) = .array (padded.set index w) := by
  simp only [writeChild, hindex, hpad, Option.map_some, Option.getD_some]

/-- What a segment stands for in an array that takes it. -/
theorem exists_pad?_of_barredAt {segment : String}
    (h : barredAt segment (.array items) = false) :
    ∃ index padded, index? segment = some index ∧ pad? items index = some padded := by
  rw [barredAt] at h
  cases hindex : index? segment with
  | none => simp [hindex] at h
  | some index =>
    simp only [hindex, Option.isNone_eq_false_iff, Option.isSome_iff_exists] at h
    obtain ⟨padded, hpadded⟩ := h
    exact ⟨index, padded, rfl, hpadded⟩

end Padding

/-! ## Nodes of a write -/

theorem size_containerFor_le (next : String) (v : Value) : (containerFor next v).size ≤ v.size := by
  rw [containerFor, emptyFor]
  split
  · exact Nat.le_refl _
  · split <;> exact v.one_le_size

/-- What is written under a segment takes the room of what was there, and the padding. -/
theorem size_writeChild_le (w : Value) (segment : String) (v : Value) :
    (writeChild (some w) segment v).size + ((child? segment v).getD .null).size ≤
      v.size + w.size + (maxPadding + 1) := by
  cases hat : barredAt segment v with
  | true =>
    rw [writeChild_of_barredAt hat, child?_of_barredAt hat]
    show v.size + 1 ≤ _
    omega
  | false =>
    cases v with
    | object fields =>
      have hsize := Value.fieldsSize_insert segment w fields
      rw [writeChild, child?, Value.size, Value.size]
      cases h : Fields.get? segment fields with
      | none =>
        rw [h, Option.elim] at hsize
        show 1 + _ + 1 ≤ _
        omega
      | some old =>
        rw [h, Option.elim] at hsize
        rw [Option.getD_some]
        omega
    | array items =>
      obtain ⟨index, padded, hindex, hpad⟩ := exists_pad?_of_barredAt hat
      have hset := Value.itemsSize_set (getElem?_pad? hpad) w
      rw [writeChild_of_pad? hindex hpad, child?, hindex, Option.bind_some]
      obtain ⟨hadded, rfl⟩ := append_of_pad? hpad
      rw [Value.itemsSize_append, Value.itemsSize_replicate_null] at hset
      rw [Value.size, Value.size]
      omega
    | null | bool b | number n | text s => cases hat

/-- A write adds at most the value and, for every segment, one padding. -/
theorem size_write_le (w : Value) (segments : List String) (v : Value) :
    (write (some w) segments v).size ≤ v.size + w.size + (maxPadding + 1) * segments.length := by
  induction segments generalizing v with
  | nil =>
    rw [write]
    omega
  | cons segment rest ih =>
    cases rest with
    | nil =>
      have hstep := size_writeChild_le w segment v
      rw [write, List.length_singleton]
      omega
    | cons next rest =>
      have hstep := size_writeChild_le (write (some w) (next :: rest)
        (containerFor next ((child? segment v).getD .null))) segment v
      have hbelow := ih (containerFor next ((child? segment v).getD .null))
      have hchild := size_containerFor_le next ((child? segment v).getD .null)
      rw [write_cons, List.length_cons, Nat.mul_succ]
      omega

/-! ## Places -/

/-- A step down from a value to one of its parts. -/
inductive Step where
  | field (key : String)
  | item (index : Nat)
deriving DecidableEq, Repr

/-- The part of a value that a step leads to. -/
def part? : Step → Value → Option Value
  | .field key, .object fields => Fields.get? key fields
  | .item index, .array items => items[index]?
  | _, _ => none

/-- The value at a place. -/
def at? : List Step → Value → Option Value
  | [], v => some v
  | step :: place, v => (part? step v).bind (at? place)

/-- The length of the array at a place, which counts as empty if there is none. -/
def lengthAt (place : List Step) (v : Value) : Nat :=
  ((at? place v).bind Value.array?).elim 0 List.length

theorem size_le_of_part? {step : Step} {v child : Value} (h : part? step v = some child) :
    child.size ≤ v.size := by
  cases v with
  | array items =>
    cases step with
    | field key => cases h
    | item i =>
      have hsize := Value.size_le_itemsSize h
      rw [Value.size]
      omega
  | object fields =>
    cases step with
    | field key =>
      have hsize := Value.size_le_fieldsSize h
      rw [Value.size]
      omega
    | item i => cases h
  | null | bool b | number n | text s => cases step <;> cases h

/-- An array has fewer elements than its document has nodes. -/
theorem lengthAt_lt_size (place : List Step) (v : Value) : lengthAt place v < v.size := by
  induction place generalizing v with
  | nil =>
    cases v with
    | array items =>
      have hlength := Value.length_le_itemsSize items
      rw [Value.size]
      show items.length < _
      omega
    | object fields | null | bool b | number n | text s => exact Value.one_le_size _
  | cons step place ih =>
    cases hpart : part? step v with
    | none =>
      rw [lengthAt, at?, hpart]
      exact v.one_le_size
    | some child =>
      have hchild := ih child
      have hsize := size_le_of_part? hpart
      rw [lengthAt, at?, hpart]
      exact Nat.lt_of_lt_of_le hchild hsize

/-- The step that a segment stands for in a value. -/
def step? (segment : String) : Value → Option Step
  | .object _ => some (.field segment)
  | .array _ => (index? segment).map .item
  | _ => none

/-- The place of the value that the segments lead to. -/
def place? : List String → Value → Option (List Step)
  | [], _ => some []
  | segment :: rest, v =>
    (step? segment v).bind fun step =>
      (part? step v).bind fun child => (place? rest child).map (step :: ·)

theorem child?_eq_bind (segment : String) (v : Value) :
    child? segment v = (step? segment v).bind (part? · v) := by
  cases v with
  | object fields => rfl
  | array items =>
    rw [child?, step?]
    cases index? segment <;> rfl
  | null | bool b | number n | text s => rfl

/-- Following segments is going to the place they stand for. -/
theorem follow?_eq_bind (segments : List String) (v : Value) :
    follow? segments v = (place? segments v).bind (at? · v) := by
  induction segments generalizing v with
  | nil => rfl
  | cons segment rest ih =>
    rw [follow?, place?, child?_eq_bind]
    cases step? segment v with
    | none => rfl
    | some step =>
      rw [Option.bind_some, Option.bind_some]
      cases hpart : part? step v with
      | none => rfl
      | some child =>
        rw [Option.bind_some, Option.bind_some, ih]
        cases place? rest child with
        | none => rfl
        | some place => simp [at?, hpart]

/-- The place that segments stand for is there. -/
theorem isSome_at?_of_place? {segments : List String} {v : Value} {place : List Step}
    (h : place? segments v = some place) : (at? place v).isSome = true := by
  induction segments generalizing v place with
  | nil =>
    obtain rfl := Option.some.inj h
    rfl
  | cons segment rest ih =>
    rw [place?, Option.bind_eq_some_iff] at h
    obtain ⟨step, -, h⟩ := h
    obtain ⟨child, hpart, h⟩ := Option.bind_eq_some_iff.1 h
    obtain ⟨below, hbelow, rfl⟩ := Option.map_eq_some_iff.1 h
    rw [at?, hpart, Option.bind_some]
    exact ih hbelow

theorem lengthAt_cons {step : Step} {v child : Value} (place : List Step)
    (h : part? step v = some child) : lengthAt (step :: place) v = lengthAt place child := by
  rw [lengthAt, at?, h, Option.bind_some, lengthAt]

theorem lengthAt_of_part?_eq_none {step : Step} {v : Value} (place : List Step)
    (h : part? step v = none) : lengthAt (step :: place) v = 0 := by
  rw [lengthAt, at?, h]
  rfl

theorem lengthAt_null (place : List Step) : lengthAt place .null = 0 := by
  cases place with
  | nil => rfl
  | cons step place => exact lengthAt_of_part?_eq_none place (by cases step <;> rfl)

theorem lengthAt_emptyFor (segment : String) (place : List Step) :
    lengthAt place (emptyFor segment) = 0 := by
  rw [emptyFor]
  cases place with
  | nil => split <;> rfl
  | cons step place =>
    split <;> exact lengthAt_of_part?_eq_none place (by cases step <;> rfl)

/-- A container made in place of something else is empty. -/
theorem lengthAt_containerFor_le (next : String) (place : List Step) (v : Value) :
    lengthAt place (containerFor next v) ≤ lengthAt place v := by
  rw [containerFor]
  split
  · exact Nat.le_refl _
  · rw [lengthAt_emptyFor]
    exact Nat.zero_le _

theorem lengthAt_child {segment : String} {step : Step} {v : Value} (place : List Step)
    (h : step? segment v = some step) :
    lengthAt place ((child? segment v).getD .null) = lengthAt (step :: place) v := by
  rw [child?_eq_bind, h, Option.bind_some]
  cases hpart : part? step v with
  | none => rw [Option.getD_none, lengthAt_null, lengthAt_of_part?_eq_none place hpart]
  | some child => rw [Option.getD_some, lengthAt_cons place hpart]

/-! ## Arrays after a write -/

section Step

variable {segment : String} {v w : Value}

/-- A write under a segment leaves the kind of the value, and so what the segment stands for. -/
theorem step?_writeChild (new : Option Value) (other : String) :
    step? other (writeChild new segment v) = step? other v := by
  cases v with
  | object fields => cases new <;> rfl
  | array items =>
    obtain ⟨elements, helements⟩ := writeChild_array new segment items
    rw [helements]
    rfl
  | null | bool b | number n | text s => rfl

theorem part?_writeChild_self {step : Step} (hat : barredAt segment v = false)
    (h : step? segment v = some step) : part? step (writeChild (some w) segment v) = some w := by
  have hchild := child?_writeChild_self (w := w) hat
  rwa [child?_eq_bind, step?_writeChild, h, Option.bind_some] at hchild

theorem lengthAt_nil_writeChild_le :
    lengthAt [] (writeChild (some w) segment v) ≤ lengthAt [] v + (maxPadding + 1) := by
  cases hat : barredAt segment v with
  | true =>
    rw [writeChild_of_barredAt hat]
    exact Nat.le_add_right _ _
  | false =>
    cases v with
    | object fields => exact Nat.zero_le _
    | array items =>
      obtain ⟨index, padded, hindex, hpad⟩ := exists_pad?_of_barredAt hat
      rw [writeChild_of_pad? hindex hpad]
      obtain ⟨hadded, rfl⟩ := append_of_pad? hpad
      show (List.set _ index w).length ≤ items.length + (maxPadding + 1)
      rw [List.length_set, List.length_append, List.length_replicate]
      omega
    | null | bool b | number n | text s => cases hat

/-- The other parts stay, up to a `null` where there was nothing. -/
theorem part?_writeChild_of_ne {step : Step} (h : step? segment v ≠ some step) :
    part? step (writeChild (some w) segment v) = part? step v ∨
      part? step (writeChild (some w) segment v) = some .null := by
  cases hat : barredAt segment v with
  | true =>
    rw [writeChild_of_barredAt hat]
    exact .inl rfl
  | false =>
    cases v with
    | object fields =>
      cases step with
      | field key =>
        have hne : key ≠ segment := fun hkey => h (by rw [hkey]; rfl)
        exact .inl (Fields.get?_insert_of_ne hne w fields)
      | item j => exact .inl rfl
    | array items =>
      obtain ⟨index, padded, hindex, hpad⟩ := exists_pad?_of_barredAt hat
      rw [writeChild_of_pad? hindex hpad]
      obtain ⟨-, rfl⟩ := append_of_pad? hpad
      cases step with
      | field key => exact .inl rfl
      | item j =>
        have hne : index ≠ j := by
          rintro rfl
          exact h (by rw [step?, hindex]; rfl)
        show (List.set _ index w)[j]? = items[j]? ∨ (List.set _ index w)[j]? = some Value.null
        rw [List.getElem?_set_ne hne]
        rcases Nat.lt_or_ge j items.length with hlt | hge
        · exact .inl (List.getElem?_append_left hlt)
        · rw [List.getElem?_append_right hge, List.getElem?_eq_none hge, List.getElem?_replicate]
          split
          · exact .inr rfl
          · exact .inl rfl
    | null | bool b | number n | text s => cases hat

theorem lengthAt_writeChild_of_ne {step : Step} (place : List Step)
    (h : step? segment v ≠ some step) :
    lengthAt (step :: place) (writeChild (some w) segment v) ≤ lengthAt (step :: place) v := by
  rcases part?_writeChild_of_ne (w := w) h with hsame | hnull
  · exact Nat.le_of_eq (by rw [lengthAt, lengthAt, at?, at?, hsame])
  · rw [lengthAt_cons place hnull, lengthAt_null]
    exact Nat.zero_le _

end Step

section Walk

variable {w : Value}

/-- The place is the one that the segments lead to, or lies in the value there. -/
def Inside (segments : List String) (v : Value) (place : List Step) : Prop :=
  ∃ target, place? segments v = some target ∧ target <+: place

theorem inside_nil (v : Value) (place : List Step) : Inside [] v place :=
  ⟨[], rfl, List.nil_prefix⟩

theorem Inside.cons {segment : String} {rest : List String} {step : Step} {v child : Value}
    {place : List Step} (hstep : step? segment v = some step) (hpart : part? step v = some child)
    (h : Inside rest child place) : Inside (segment :: rest) v (step :: place) := by
  obtain ⟨target, htarget, hprefix⟩ := h
  refine ⟨step :: target, ?_, List.cons_prefix_cons.2 ⟨rfl, hprefix⟩⟩
  rw [place?, hstep, Option.bind_some, hpart, Option.bind_some, htarget]
  rfl

/-- Outside of what is written, no array grows by more than one padding; a place where there was no
    array counts as an empty one. The induction follows the walk, and the place along with it as far
    as the two lead the same way. -/
theorem lengthAt_write_le {segments : List String} (hne : segments ≠ []) {v : Value}
    {place : List Step} (hout : ¬Inside segments (write (some w) segments v) place) :
    lengthAt place (write (some w) segments v) ≤ lengthAt place v + (maxPadding + 1) := by
  induction segments generalizing v place with
  | nil => exact absurd rfl hne
  | cons segment rest ih =>
    obtain ⟨new, hwrite, hbelow⟩ : ∃ new,
        write (some w) (segment :: rest) v = writeChild (some new) segment v ∧
          (rest = [] ∨ ∃ child : Value, new = write (some w) rest child ∧ ∀ place,
            lengthAt place child ≤ lengthAt place ((child? segment v).getD .null)) := by
      cases rest with
      | nil => exact ⟨w, rfl, .inl rfl⟩
      | cons next rest =>
        exact ⟨_, write_cons segment next rest, .inr ⟨_, rfl, fun place =>
          lengthAt_containerFor_le next place _⟩⟩
    rw [hwrite] at hout ⊢
    cases place with
    | nil => exact lengthAt_nil_writeChild_le
    | cons step place =>
      by_cases hstep : step? segment v = some step
      · cases hat : barredAt segment v with
        | true =>
          rw [writeChild_of_barredAt hat]
          exact Nat.le_add_right _ _
        | false =>
          have hpart := part?_writeChild_self (w := new) hat hstep
          have hstep' : step? segment (writeChild (some new) segment v) = some step := by
            rw [step?_writeChild, hstep]
          have hin : ¬Inside rest new place := fun h => hout (h.cons hstep' hpart)
          rcases hbelow with rfl | ⟨child, rfl, hchild⟩
          · exact absurd (inside_nil new place) hin
          · rw [lengthAt_cons place hpart]
            have hrest : rest ≠ [] := by
              rintro rfl
              exact hin (inside_nil _ place)
            have hgrown := ih hrest hin
            have hsame := hchild place
            rw [lengthAt_child place hstep] at hsame
            omega
      · have hother := lengthAt_writeChild_of_ne (w := new) place hstep
        omega

/-- The place that the segments lead to after a write has what was written. -/
theorem at?_of_place?_write {segments : List String} (hne : segments ≠ []) {v : Value}
    {target : List Step} (h : place? segments (write (some w) segments v) = some target) :
    at? target (write (some w) segments v) = some w := by
  have hthere := isSome_at?_of_place? h
  have hfollow := follow?_write hne v w
  rw [follow?_eq_bind, h, Option.bind_some] at hfollow
  rw [hfollow] at hthere ⊢
  cases hbarred : barred segments v with
  | true => simp [hbarred] at hthere
  | false => rfl

end Walk

end Path

end DataBinding
