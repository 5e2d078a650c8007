import DataBinding.Proofs.Path.Positions
import DataBinding.Proofs.Path.Removal
import DataBinding.Proofs.Text.Classes

/-!
# Elements of an array

The elements of an array at a path have paths of their own, which end in the digits of their
positions. What is written under such a path is written into the array, and the document gets the
new array in the place of the old one. So deletions of elements, one after the other, come to
deletions from the list of elements.

Results:
* `segments_elementPath`, `index?_position`: the path of an element.
* `write_of_follow?`, `write_write`: a part that is written back, and one that is written twice.
* `write_concat`: a write below a part is a write of that part.
* `replaced_write`: what the write of a part does to the document.
* `follow?_of_replaced`: the new part is there.
* `foldl_update_none`: deletions of elements, one after the other.
-/

namespace DataBinding.Path

open Positions (deleteAll deleteAll_cons)

/-! ## Positions in a path -/

/-- The segment that names the element at a position. -/
def position (i : Nat) : String := String.ofList (Text.digitsOf i)

/-- The path of an element of the array at a path. -/
def elementPath (path : String) (i : Nat) : String := path ++ "." ++ position i

theorem index?_position {i : Nat} (h : i < wordBound) : index? (position i) = some i := by
  rw [index?_eq_some_iff, position, isIndex, String.toList_ofList]
  refine ⟨?_, h, Text.digitsValue_digitsOf i⟩
  rw [Text.isDigits, Bool.and_eq_true, List.all_eq_true]
  exact ⟨by simpa using Text.digitsOf_ne_nil i, fun c hc => Text.isDigit_of_mem_digitsOf hc⟩

theorem not_mem_digitsOf (i : Nat) : '.' ∉ Text.digitsOf i := by
  intro h
  exact absurd (Text.isDigit_of_mem_digitsOf h) (by decide)

theorem segments_elementPath {path : String} (hne : segments path ≠ []) (i : Nat) :
    segments (elementPath path i) = segments path ++ [position i] := by
  have hempty : path.toList ≠ [] := by
    intro hnil
    rw [String.toList_eq_nil_iff.1 hnil] at hne
    exact hne rfl
  have hparts : elementPath path i =
      String.ofList (path.toList ++ '.' :: Text.digitsOf i) := by
    rw [← String.toList_inj, String.toList_ofList, elementPath, position]
    simp
  have hpath : segments path = (Text.splitOn '.' path.toList).map String.ofList := by
    rw [← segments_ofList hempty, String.ofList_toList]
  rw [hparts, segments_ofList (by simp), Text.splitOn_append,
    Text.splitOn_of_not_mem (not_mem_digitsOf i), List.map_append, ← hpath]
  rfl

/-! ## Writing a part that is there -/

section Write

variable {v part : Value}

theorem writeChild_writeChild {segment : String} (h : child? segment v = some part)
    (old new : Value) :
    writeChild (some new) segment (writeChild (some old) segment v) =
      writeChild (some new) segment v := by
  cases v with
  | object fields => rw [writeChild, writeChild, writeChild, Fields.insert_insert]
  | array items =>
    obtain ⟨i, hi, hitem⟩ := Option.bind_eq_some_iff.1 h
    obtain ⟨hlt, -⟩ := List.getElem?_eq_some_iff.1 hitem
    have hset : i < (items.set i old).length := by rwa [List.length_set]
    simp only [writeChild, hi, pad?_of_lt hlt, pad?_of_lt hset, Option.map_some, Option.getD_some,
      List.set_set]
  | null | bool b | number n | text s => cases h

variable {segments : List String} (hne : segments ≠ []) (h : follow? segments v = some part)
include hne h

theorem write_of_follow? : write (some part) segments v = v := by
  induction segments generalizing v with
  | nil => exact absurd rfl hne
  | cons segment rest ih =>
    obtain ⟨child, hchild, hbelow⟩ := Option.bind_eq_some_iff.1 h
    cases rest with
    | nil =>
      obtain rfl := Option.some.inj hbelow
      exact writeChild_of_child? hchild
    | cons next rest =>
      have hcontainer := isContainer_of_follow? (by simp) hbelow
      rw [write_of_child? hchild hcontainer, ih (by simp) hbelow, writeChild_of_child? hchild]

theorem follow?_write_of_follow? (new : Value) :
    follow? segments (write (some new) segments v) = some new := by
  have hself := follow?_write hne v part
  rw [write_of_follow? hne h, h] at hself
  have hbarred : barred segments v = false := by
    rw [Bool.eq_false_iff]
    intro hbarred
    rw [hbarred] at hself
    cases hself
  rw [follow?_write hne, hbarred]
  rfl

theorem write_write (old new : Value) :
    write (some new) segments (write (some old) segments v) = write (some new) segments v := by
  induction segments generalizing v with
  | nil => rfl
  | cons segment rest ih =>
    obtain ⟨child, hchild, hbelow⟩ := Option.bind_eq_some_iff.1 h
    cases rest with
    | nil => exact writeChild_writeChild hchild old new
    | cons next rest =>
      have hcontainer := isContainer_of_follow? (by simp) hbelow
      have hwritten := child?_writeChild_self (w := write (some old) (next :: rest) child)
        (barredAt_of_child? hchild)
      rw [write_of_child? hchild hcontainer, write_of_child? hchild hcontainer,
        write_of_child? hwritten (isContainer_write _ _ hcontainer), ih (by simp) hbelow,
        writeChild_writeChild hchild]

/-- A write below a container that is there is a write of the container it makes. -/
theorem write_concat (hcontainer : part.isContainer = true) (new : Option Value) (last : String) :
    write new (segments ++ [last]) v = write (some (writeChild new last part)) segments v := by
  induction segments generalizing v with
  | nil => exact absurd rfl hne
  | cons segment rest ih =>
    obtain ⟨child, hchild, hbelow⟩ := Option.bind_eq_some_iff.1 h
    cases rest with
    | nil =>
      obtain rfl := Option.some.inj hbelow
      exact write_of_child? hchild hcontainer
    | cons next rest =>
      have hchildContainer := isContainer_of_follow? (by simp) hbelow
      rw [write_of_child? hchild hchildContainer, ← ih (by simp) hbelow]
      exact write_of_child? hchild hchildContainer

end Write

/-! ## A part in the place of another -/

/-- The second value is the first with `new` in the place of the part that the segments lead to: on
    the way there one part of each value is exchanged. -/
inductive Replaced (part new : Value) : List String → Value → Value → Prop
  | here : Replaced part new [] part new
  | through {segment : String} {rest : List String} {v v' child child' : Value}
      (h : Exchanged segment child (some child') v v')
      (hbelow : Replaced part new rest child child') : Replaced part new (segment :: rest) v v'

theorem replaced_write {segments : List String} (hne : segments ≠ []) {v part : Value}
    (h : follow? segments v = some part) (new : Value) :
    Replaced part new segments v (write (some new) segments v) := by
  induction segments generalizing v with
  | nil => exact absurd rfl hne
  | cons segment rest ih =>
    obtain ⟨child, hchild, hbelow⟩ := Option.bind_eq_some_iff.1 h
    cases rest with
    | nil =>
      obtain rfl := Option.some.inj hbelow
      exact .through (exchanged_writeChild hchild _) .here
    | cons next rest =>
      have hcontainer := isContainer_of_follow? (by simp) hbelow
      rw [write_of_child? hchild hcontainer]
      exact .through (exchanged_writeChild hchild _) (ih (by simp) hbelow)

theorem child?_of_exchanged {segment : String} {v v' child new : Value}
    (h : Exchanged segment child (some new) v v') : child? segment v' = some new := by
  cases h with
  | field hfront =>
    rename_i front back
    have hget := Fields.get?_insert_self segment new (front ++ (segment, child) :: back)
    rw [Fields.insert_append hfront] at hget
    simpa [child?] using hget
  | element hindex => simp [child?, hindex]

theorem follow?_of_replaced {part new : Value} {segments : List String} {v v' : Value}
    (h : Replaced part new segments v v') : follow? segments v' = some new := by
  induction h with
  | here => rfl
  | through hexchanged _ ih => rw [follow?, child?_of_exchanged hexchanged, Option.bind_some, ih]

/-! ## Arrays -/

theorem follow?_of_get?_array {path : String} {document : Value} {items : List Value}
    (h : get? path document = some (.array items)) :
    segments path ≠ [] ∧ follow? (segments path) document = some (.array items) := by
  rcases read?_eq_some_iff.1 h with hfollow | ⟨_, _, -, -, hlength⟩
  · exact hfollow
  · cases hlength

/-- Deletions of elements come to deletions from the list. The induction is on the positions: every
    deletion finds the array as the ones before left it. -/
theorem foldl_update_none {path : String} (hne : segments path ≠ []) {positions : List Nat}
    (hbounds : ∀ i ∈ positions, i < wordBound) {document : Value} {items : List Value}
    (h : follow? (segments path) document = some (.array items)) :
    positions.foldl (fun d i => update (elementPath path i) none d) document =
      update path (some (.array (deleteAll positions items))) document := by
  induction positions generalizing document items with
  | nil => exact (write_of_follow? hne h).symm
  | cons i rest ih =>
    obtain ⟨hi, hrest⟩ := List.forall_mem_cons.1 hbounds
    have herase : writeChild none (position i) (.array items) = .array (items.eraseIdx i) := by
      rw [writeChild, index?_position hi]
    have hdelete : update (elementPath path i) none document =
        write (some (.array (items.eraseIdx i))) (segments path) document := by
      rw [update, segments_elementPath hne, write_concat hne h rfl, herase]
    rw [List.foldl_cons, hdelete, ih hrest (follow?_write_of_follow? hne h _), update,
      write_write hne h, deleteAll_cons]
    rfl

end DataBinding.Path
