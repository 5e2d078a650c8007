import DataBinding.Path.Update

/-!
# Writes that are barred

A write is barred if the walk along its path ends at a place where nothing can be written: at a
value that is no container, at an array under a segment that is no index, or too far past the end
of an array. What is written can be read back exactly if the write is not barred. A barred write
leaves the document alone only if the walk ends among the containers that are there already: any
container that was created or put in the place of another value stays.

Results:
* `follow?_write`: what can be read back after a write.
* `isContainer_write`: a container remains one.
* `write_eq_self_iff`, `update_eq_self_iff`: when a barred write changes nothing.
-/

namespace DataBinding

namespace Path

/-! ## Barriers -/

/-- Nothing can be written under the segment of a value. -/
def barredAt (segment : String) : Value → Bool
  | .object _ => false
  | .array items =>
    match index? segment with
    | none => true
    | some index => (pad? items index).isNone
  | _ => true

/-- Nothing can be written where the segments lead, once what is missing on the way and what is no
    container has given way to an empty container. -/
def barred : List String → Value → Bool
  | [], _ => false
  | [segment], v => barredAt segment v
  | segment :: next :: rest, v =>
    barredAt segment v || barred (next :: rest) (containerFor next ((child? segment v).getD .null))

/-- Nothing can be written where the segments lead, and the walk finds that out among the containers
    that are there. -/
def barredInPlace : List String → Value → Bool
  | [], _ => false
  | [segment], v => barredAt segment v
  | segment :: next :: rest, v =>
    barredAt segment v ||
      (child? segment v).any fun child => child.isContainer && barredInPlace (next :: rest) child

/-! ## One step -/

section Step

variable {segment : String} {v w : Value}

theorem pad?_eq_none_of_le {items : List Value} {index : Nat} (h : pad? items index = none) :
    items.length ≤ index := by
  rcases Nat.lt_or_ge index items.length with hlt | hge
  · rw [pad?_of_lt hlt] at h
    cases h
  · exact hge

theorem writeChild_of_barredAt (h : barredAt segment v = true) :
    writeChild (some w) segment v = v := by
  cases v with
  | object fields => simp [barredAt] at h
  | array items =>
    simp only [barredAt, writeChild] at h ⊢
    cases hindex : index? segment with
    | none => rfl
    | some index =>
      simp only [hindex, Option.isNone_iff_eq_none] at h
      simp only [h, Option.map_none, Option.getD_none]
  | null | bool b | number n | text s => rfl

theorem child?_of_barredAt (h : barredAt segment v = true) : child? segment v = none := by
  cases v with
  | object fields => simp [barredAt] at h
  | array items =>
    simp only [barredAt, child?] at h ⊢
    cases hindex : index? segment with
    | none => rfl
    | some index =>
      simp only [hindex, Option.isNone_iff_eq_none] at h
      exact List.getElem?_eq_none (pad?_eq_none_of_le h)
  | null | bool b | number n | text s => rfl

theorem child?_writeChild_self (h : barredAt segment v = false) :
    child? segment (writeChild (some w) segment v) = some w := by
  cases v with
  | object fields => exact Fields.get?_insert_self segment w fields
  | array items =>
    simp only [barredAt] at h
    cases hindex : index? segment with
    | none => simp [hindex] at h
    | some index =>
      simp only [hindex, Option.isNone_eq_false_iff, Option.isSome_iff_exists] at h
      obtain ⟨padded, hpadded⟩ := h
      have hlt := length_of_pad? hpadded
      simp only [writeChild, hindex, hpadded, Option.map_some, Option.getD_some, child?,
        Option.bind_some]
      exact List.getElem?_set_self hlt
  | null | bool b | number n | text s => simp [barredAt] at h

/-- Writing what is there already changes nothing. -/
theorem writeChild_of_child? (h : child? segment v = some w) :
    writeChild (some w) segment v = v := by
  cases v with
  | object fields => rw [writeChild, Fields.insert_of_get? h]
  | array items =>
    rw [child?, Option.bind_eq_some_iff] at h
    obtain ⟨index, hindex, hitem⟩ := h
    obtain ⟨hlt, hget⟩ := List.getElem?_eq_some_iff.1 hitem
    simp only [writeChild, hindex, pad?_of_lt hlt, Option.map_some, Option.getD_some]
    rw [← hget, List.set_getElem_self]
  | null | bool b | number n | text s => cases h

end Step

/-! ## Walks -/

variable {v w : Value}

theorem isContainer_writeChild (new : Option Value) (segment : String)
    (h : v.isContainer = true) : (writeChild new segment v).isContainer = true := by
  cases v with
  | object fields => cases new <;> rfl
  | array items =>
    simp only [writeChild]
    split
    · rfl
    · split <;> rfl
  | null | bool b | number n | text s => cases h

theorem isContainer_write (new : Option Value) (segments : List String)
    (h : v.isContainer = true) : (write new segments v).isContainer = true := by
  match segments with
  | [] => exact h
  | [segment] => exact isContainer_writeChild new segment h
  | segment :: next :: rest =>
    rw [write]
    split
    · exact h
    · exact isContainer_writeChild _ segment h

theorem isContainer_containerFor (next : String) (v : Value) :
    (containerFor next v).isContainer = true := by
  rw [containerFor]
  split
  · assumption
  · rw [emptyFor]
    split <;> rfl

theorem write_cons (segment next : String) (rest : List String) :
    write (some w) (segment :: next :: rest) v =
      writeChild (some (write (some w) (next :: rest)
        (containerFor next ((child? segment v).getD .null)))) segment v := by
  simp [write]

/-- What was written is read back, and where the write is barred there is nothing to read. -/
theorem follow?_write {segments : List String} (hne : segments ≠ []) (v w : Value) :
    follow? segments (write (some w) segments v) =
      if barred segments v then none else some w := by
  induction segments generalizing v with
  | nil => exact absurd rfl hne
  | cons segment rest ih =>
    cases rest with
    | nil =>
      rw [write, follow?, barred]
      cases h : barredAt segment v with
      | true => rw [writeChild_of_barredAt h, child?_of_barredAt h]; rfl
      | false => rw [child?_writeChild_self h]; rfl
    | cons next rest =>
      rw [write_cons, follow?, barred]
      cases h : barredAt segment v with
      | true => rw [writeChild_of_barredAt h, child?_of_barredAt h]; rfl
      | false =>
        rw [child?_writeChild_self h, Option.bind_some, Bool.false_or]
        exact ih (by simp) _

theorem containerFor_of_isContainer (next : String) (h : v.isContainer = true) :
    containerFor next v = v := by
  rw [containerFor, if_pos h]

/-- A write that gets past the first segment changes nothing exactly if it finds a container there
    and changes nothing in it. -/
theorem write_cons_eq_self_iff {segment : String} (hat : barredAt segment v = false)
    (next : String) (rest : List String) :
    write (some w) (segment :: next :: rest) v = v ↔
      ∃ child, child? segment v = some child ∧ child.isContainer = true ∧
        write (some w) (next :: rest) child = child := by
  rw [write_cons]
  constructor
  · intro heq
    -- the child of the unchanged value is the one that was written
    have hchild := child?_writeChild_self (w := write (some w) (next :: rest)
      (containerFor next ((child? segment v).getD .null))) hat
    rw [heq] at hchild
    have hcontainer := isContainer_write (some w) (next :: rest)
      (isContainer_containerFor next ((child? segment v).getD .null))
    refine ⟨_, hchild, hcontainer, ?_⟩
    rw [hchild, Option.getD_some, containerFor_of_isContainer next hcontainer] at hchild
    exact (Option.some.inj hchild).symm
  · rintro ⟨child, hchild, hcontainer, hwrite⟩
    rw [hchild, Option.getD_some, containerFor_of_isContainer next hcontainer, hwrite]
    exact writeChild_of_child? hchild

/-- The induction follows the walk as far as it is the same for what is there and for what would be
    created. -/
theorem write_eq_self_iff {segments : List String} (h : barred segments v = true) :
    write (some w) segments v = v ↔ barredInPlace segments v = true := by
  induction segments generalizing v with
  | nil => cases h
  | cons segment rest ih =>
    cases rest with
    | nil =>
      rw [write, barredInPlace]
      exact iff_of_true (writeChild_of_barredAt h) h
    | cons next rest =>
      rw [barred] at h
      rw [barredInPlace]
      cases hat : barredAt segment v with
      | true =>
        rw [write_cons]
        exact iff_of_true (writeChild_of_barredAt hat) rfl
      | false =>
        rw [hat, Bool.false_or] at h
        rw [write_cons_eq_self_iff hat, Bool.false_or, Option.any_eq_true]
        have hbelow : ∀ child, child? segment v = some child → child.isContainer = true →
            (write (some w) (next :: rest) child = child ↔
              barredInPlace (next :: rest) child = true) := by
          intro child hchild hcontainer
          rw [hchild, Option.getD_some, containerFor_of_isContainer next hcontainer] at h
          exact ih h
        constructor
        · rintro ⟨child, hchild, hcontainer, hwrite⟩
          rw [hbelow child hchild hcontainer] at hwrite
          exact ⟨child, hchild, by rw [hcontainer, hwrite]; rfl⟩
        · rintro ⟨child, hchild, hboth⟩
          obtain ⟨hcontainer, hbarred⟩ := Bool.and_eq_true_iff.1 hboth
          exact ⟨child, hchild, hcontainer, (hbelow child hchild hcontainer).2 hbarred⟩

/-- A barred write leaves a document as it was exactly if nothing on the way to the barrier was
    missing, or was no container. -/
theorem update_eq_self_iff {path : String} {document : Value}
    (h : barred (segments path) document = true) :
    update path (some w) document = document ↔ barredInPlace (segments path) document = true :=
  write_eq_self_iff h

/-- An index too far out for a new array, where the old value was no container: it is lost. -/
theorem update_far_ne_self :
    update "a.5000" (some .null) (.object [("a", .bool true)]) ≠ .object [("a", .bool true)] :=
  fun h => absurd ((update_eq_self_iff (by decide)).1 h) (by decide)

end Path

end DataBinding
