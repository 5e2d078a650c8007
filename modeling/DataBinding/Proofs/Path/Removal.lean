import DataBinding.Proofs.Path.Diverging

/-!
# Deletions

A deletion takes away the part that its path leads to and nothing else. The object or array that
holds the part closes up around it; every container on the way has one part exchanged and keeps
the others in their places. Where the path leads nowhere, nothing changes.

Results:
* `exchanged_writeChild`: what one step of a write does to a part that is there.
* `write_none_of_follow?_eq_none`: a deletion that finds nothing changes nothing.
* `removed_write_none`: a deletion that finds a part takes away that part.
* `update_none_exact`: the same for dotted paths.
-/

namespace DataBinding

namespace Fields

theorem exists_split_of_get? {key : String} {value : Value} {fields : Fields}
    (h : get? key fields = some value) :
    ∃ front back, fields = front ++ (key, value) :: back ∧ key ∉ front.map Prod.fst := by
  induction fields with
  | nil => cases h
  | cons f rest ih =>
    obtain ⟨k, v⟩ := f
    by_cases hk : k = key
    · simp only [get?, hk, if_true, Option.some.injEq] at h
      exact ⟨[], rest, by rw [hk, h]; rfl, by simp⟩
    · simp only [get?, hk, if_false] at h
      obtain ⟨front, back, hrest, hfront⟩ := ih h
      exact ⟨(k, v) :: front, back, by rw [hrest]; rfl, by simp [Ne.symm hk, hfront]⟩

variable {key : String} {front : Fields} (h : key ∉ front.map Prod.fst) (value : Value)
  (back : Fields)
include h

theorem insert_append (new : Value) :
    insert key new (front ++ (key, value) :: back) = front ++ (key, new) :: back := by
  induction front with
  | nil => simp [insert]
  | cons f rest ih =>
    rw [List.map_cons, List.mem_cons, not_or] at h
    rw [List.cons_append, insert, if_neg (Ne.symm h.1), ih h.2, List.cons_append]

theorem erase_append : erase key (front ++ (key, value) :: back) = front ++ back := by
  induction front with
  | nil => simp [erase]
  | cons f rest ih =>
    rw [List.map_cons, List.mem_cons, not_or] at h
    rw [List.cons_append, erase, if_neg (Ne.symm h.1), ih h.2, List.cons_append]

end Fields

namespace Path

/-! ## One step -/

/-- The second value is the first with `new` in the place of the part under a segment, or with that
    part taken out. What stands before and after it is the same. -/
inductive Exchanged (segment : String) (part : Value) (new : Option Value) : Value → Value → Prop
  | field {front back : Fields} (h : segment ∉ front.map Prod.fst) :
      Exchanged segment part new (.object (front ++ (segment, part) :: back))
        (.object (front ++ (new.toList.map fun w => (segment, w)) ++ back))
  | element {front back : List Value} (h : index? segment = some front.length) :
      Exchanged segment part new (.array (front ++ part :: back))
        (.array (front ++ new.toList ++ back))

theorem exists_split_of_getElem? {items : List Value} {i : Nat} {part : Value}
    (h : items[i]? = some part) :
    ∃ front back, items = front ++ part :: back ∧ front.length = i := by
  obtain ⟨hlt, hpart⟩ := List.getElem?_eq_some_iff.1 h
  refine ⟨items.take i, items.drop (i + 1), ?_, by rw [List.length_take]; omega⟩
  rw [← hpart, ← List.drop_eq_getElem_cons hlt, List.take_append_drop]

/-- A write under a segment exchanges the part that is there, and a deletion takes it out. -/
theorem exchanged_writeChild {segment : String} {v part : Value}
    (h : child? segment v = some part) (new : Option Value) :
    Exchanged segment part new v (writeChild new segment v) := by
  cases v with
  | object fields =>
    obtain ⟨front, back, rfl, hfront⟩ := Fields.exists_split_of_get? h
    have hexchanged : Exchanged segment part new (.object (front ++ (segment, part) :: back))
        (.object (front ++ (new.toList.map fun w => (segment, w)) ++ back)) := .field hfront
    cases new with
    | some w =>
      rw [writeChild, Fields.insert_append hfront]
      simpa using hexchanged
    | none =>
      rw [writeChild, Fields.erase_append hfront]
      simpa using hexchanged
  | array items =>
    obtain ⟨i, hi, hitem⟩ := Option.bind_eq_some_iff.1 h
    obtain ⟨front, back, rfl, rfl⟩ := exists_split_of_getElem? hitem
    have hlt : front.length < (front ++ part :: back).length := by simp
    have hexchanged : Exchanged segment part new (.array (front ++ part :: back))
        (.array (front ++ new.toList ++ back)) := .element hi
    cases new with
    | some w =>
      simp only [writeChild, hi, pad?_of_lt hlt, Option.map_some, Option.getD_some]
      rw [List.set_append_right _ _ (Nat.le_refl _)]
      simpa using hexchanged
    | none =>
      simp only [writeChild, hi]
      rw [List.eraseIdx_append_of_length_le (Nat.le_refl _)]
      simpa using hexchanged
  | null | bool b | number n | text s => cases h

theorem writeChild_none_of_child?_eq_none {segment : String} {v : Value}
    (h : child? segment v = none) : writeChild none segment v = v := by
  cases v with
  | object fields => rw [writeChild, Fields.erase_of_get?_eq_none h]
  | array items =>
    simp only [writeChild]
    cases hi : index? segment with
    | none => rfl
    | some i =>
      rw [child?, hi, Option.bind_some, List.getElem?_eq_none_iff] at h
      show Value.array (items.eraseIdx i) = _
      rw [List.eraseIdx_of_length_le h]
  | null | bool b | number n | text s => rfl

/-! ## Walks -/

/-- The second value is the first without the part `w` where the segments lead: the value that holds
    it loses it, and on the way to that value one part of each is exchanged. -/
inductive Removed (w : Value) : List String → Value → Value → Prop
  | last {segment : String} {v v' : Value} (h : Exchanged segment w none v v') :
      Removed w [segment] v v'
  | through {segment : String} {rest : List String} {v v' child child' : Value}
      (h : Exchanged segment child (some child') v v') (hbelow : Removed w rest child child') :
      Removed w (segment :: rest) v v'

theorem write_none_of_follow?_eq_none {segments : List String} {v : Value}
    (h : follow? segments v = none) : write none segments v = v := by
  induction segments generalizing v with
  | nil => rfl
  | cons segment rest ih =>
    rw [follow?, Option.bind_eq_none_iff] at h
    cases hchild : child? segment v with
    | none =>
      cases rest with
      | nil => exact writeChild_none_of_child?_eq_none hchild
      | cons next rest =>
        rw [write, hchild]
        rfl
    | some child =>
      have hbelow := h child hchild
      cases rest with
      | nil => cases hbelow
      | cons next rest =>
        cases hcontainer : child.isContainer with
        | true => rw [write_of_child? hchild hcontainer, ih hbelow, writeChild_of_child? hchild]
        | false =>
          rw [write, hchild, Option.getD_some, hcontainer]
          rfl

theorem removed_write_none {segments : List String} (hne : segments ≠ []) {v w : Value}
    (h : follow? segments v = some w) : Removed w segments v (write none segments v) := by
  induction segments generalizing v with
  | nil => exact absurd rfl hne
  | cons segment rest ih =>
    obtain ⟨child, hchild, hbelow⟩ := Option.bind_eq_some_iff.1 h
    cases rest with
    | nil =>
      obtain rfl := Option.some.inj hbelow
      exact .last (exchanged_writeChild hchild none)
    | cons next rest =>
      have hcontainer := isContainer_of_follow? (by simp) hbelow
      rw [write_of_child? hchild hcontainer]
      exact .through (exchanged_writeChild hchild _) (ih (by simp) hbelow)

/-! ## Dotted paths -/

/-- The path leads to an array and goes on with `length`, which is no part of it. -/
def AsksLength (segments : List String) (v : Value) : Prop :=
  ∃ front items, segments = front ++ ["length"] ∧ follow? front v = some (.array items)

/-- A deletion changes nothing where there is nothing to read, and takes away what there is to read
    unless that is the length of an array. -/
theorem update_none_exact (path : String) (document : Value) :
    (get? path document = none → update path none document = document) ∧
      ∀ w, get? path document = some w → ¬AsksLength (segments path) document →
        Removed w (segments path) document (update path none document) := by
  constructor
  · intro h
    by_cases hne : segments path = []
    · rw [update, hne, write]
    · refine write_none_of_follow?_eq_none (Option.eq_none_iff_forall_ne_some.2 fun w hw => ?_)
      rw [get?, read?_of_follow? hne hw] at h
      cases h
  · intro w hw hlength
    rcases read?_eq_some_iff.1 hw with ⟨hne, hfollow⟩ | ⟨front, items, hfront, hitems, -⟩
    · exact removed_write_none hne hfollow
    · exact absurd ⟨front, items, hfront, hitems⟩ hlength

/-- A document with a list and a `null`. -/
def listedDocument : Value :=
  .object [("list", .array [.bool true, .null, .text "c"]), ("n", .null)]

/-- A name where an index is wanted leads nowhere; an element in the middle is taken out. -/
theorem update_none_listedDocument :
    update "list.first" none listedDocument = listedDocument ∧
      Removed .null ["list", "1"] listedDocument (update "list.1" none listedDocument) := by
  have hsegments : segments "list.1" = ["list", "1"] := by decide
  refine ⟨(update_none_exact "list.first" listedDocument).1 rfl, ?_⟩
  have hremoved := (update_none_exact "list.1" listedDocument).2 .null rfl
  rw [hsegments] at hremoved
  refine hremoved ?_
  rintro ⟨front, items, hfront, -⟩
  have hlast := congrArg List.getLast? hfront
  rw [List.getLast?_concat] at hlast
  exact absurd hlast (by decide)

end Path

end DataBinding
