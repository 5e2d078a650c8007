import DataBinding.Value.Basic
import DataBinding.Text.Numeric
import DataBinding.Text.Search

/-!
# Dotted paths

A path such as `data.cart.items.0.price` is a list of segments. A segment names a field of an
object or, if it is all digits, an element of an array. The last segment may also be `length`, the
number of elements of an array.

Results:
* `not_mem_of_segments`, `exists_of_segments_cons`: how a path is made up of its segments.
* `follow?_append`: following a path is following its parts one after the other.
* `read?_eq_some_iff`: reading is following, or asking for the length of an array.
-/

namespace DataBinding.Path

/-- The segments of a path. The empty path has none. -/
def segments (path : String) : List String :=
  if path.isEmpty then [] else (Text.splitOn '.' path.toList).map String.ofList

theorem splitOn_of_segments {path first : String} {rest : List String}
    (h : segments path = first :: rest) :
    Text.splitOn '.' path.toList = first.toList :: rest.map String.toList := by
  rw [segments] at h
  split at h
  · cases h
  · have hparts := congrArg (List.map String.toList) h
    rw [List.map_map] at hparts
    simpa [Function.comp_def] using hparts

theorem segments_ofList {cs : List Char} (h : cs ≠ []) :
    segments (String.ofList cs) = (Text.splitOn '.' cs).map String.ofList := by
  rw [segments, if_neg (by simpa using h), String.toList_ofList]

theorem not_mem_of_segments {path first : String} {rest : List String}
    (h : segments path = first :: rest) : '.' ∉ first.toList :=
  (Text.splitOn_eq_cons (splitOn_of_segments h)).1

theorem eq_of_segments_singleton {path first : String} (h : segments path = [first]) :
    path = first := by
  obtain ⟨-, ⟨-, hpath⟩ | ⟨back, -, hback⟩⟩ := Text.splitOn_eq_cons (splitOn_of_segments h)
  · exact String.toList_inj.1 hpath
  · exact absurd hback (Text.splitOn_ne_nil '.' back)

/-- After the first of several segments comes a path with the others. -/
theorem exists_of_segments_cons {path first next : String} {rest : List String}
    (h : segments path = first :: next :: rest) (hnext : next.toList ≠ []) :
    ∃ back, path.toList = first.toList ++ '.' :: back ∧
      segments (String.ofList back) = next :: rest := by
  obtain ⟨-, ⟨hnil, -⟩ | ⟨back, hpath, hback⟩⟩ := Text.splitOn_eq_cons (splitOn_of_segments h)
  · cases hnil
  · refine ⟨back, hpath, ?_⟩
    have hne : back ≠ [] := by
      rintro rfl
      exact hnext (List.cons.inj hback).1.symm
    rw [segments_ofList hne, hback, List.map_cons, List.map_cons, List.map_map]
    simp [Function.comp_def]

/-- The segment is all digits, and not empty. -/
def isIndex (segment : String) : Bool := Text.isDigits segment.toList

/-- The index that a segment stands for, if it is all digits and fits 64 bits. -/
def index? (segment : String) : Option Nat := Text.word64? segment.toList

/-- The part of a value that one segment names. -/
def child? (segment : String) : Value → Option Value
  | .object fields => Fields.get? segment fields
  | .array items => (index? segment).bind (items[·]?)
  | _ => none

/-- The length of an array, under its name. -/
def length? (segment : String) : Value → Option Value
  | .array items => if segment = "length" then some (.ofNat items.length) else none
  | _ => none

/-- The part of a value that the segments lead to. -/
def follow? : List String → Value → Option Value
  | [], v => some v
  | segment :: rest, v => (child? segment v).bind (follow? rest)

theorem follow?_append (s t : List String) (v : Value) :
    follow? (s ++ t) v = (follow? s v).bind (follow? t) := by
  induction s generalizing v with
  | nil => simp [follow?]
  | cons a s ih => cases h : child? a v <;> simp [follow?, h, ih]

/-- What the segments lead to, the last of which may be the length of an array. -/
def read? : List String → Value → Option Value
  | [], _ => none
  | [segment], v => (child? segment v).or (length? segment v)
  | segment :: next :: rest, v => (child? segment v).bind (read? (next :: rest))

theorem read?_concat_length {front : List String} {items : List Value} {v : Value}
    (h : follow? front v = some (.array items)) :
    read? (front ++ ["length"]) v = some (.ofNat items.length) := by
  induction front generalizing v with
  | nil =>
    obtain rfl := Option.some.inj h
    rfl
  | cons segment rest ih =>
    rw [follow?, Option.bind_eq_some_iff] at h
    obtain ⟨child, hchild, hrest⟩ := h
    rw [List.cons_append]
    cases rest with
    | nil => simpa [read?, hchild] using ih hrest
    | cons next rest => simpa [read?, hchild] using ih hrest

theorem read?_of_follow? {segments : List String} (hne : segments ≠ []) {v w : Value}
    (h : follow? segments v = some w) : read? segments v = some w := by
  induction segments generalizing v with
  | nil => exact absurd rfl hne
  | cons segment rest ih =>
    rw [follow?, Option.bind_eq_some_iff] at h
    obtain ⟨child, hchild, hrest⟩ := h
    cases rest with
    | nil => rw [read?, hchild, ← Option.some.inj hrest, Option.some_or]
    | cons next rest => rw [read?, hchild, Option.bind_some, ih (by simp) hrest]

/-- What is read at a path is what it leads to, or the length of an array. -/
theorem read?_eq_some_iff {segments : List String} {v w : Value} :
    read? segments v = some w ↔ segments ≠ [] ∧ follow? segments v = some w ∨
      ∃ front items, segments = front ++ ["length"] ∧ follow? front v = some (.array items) ∧
        w = .ofNat items.length := by
  constructor
  · intro h
    induction segments generalizing v with
    | nil => cases h
    | cons segment rest ih =>
      cases rest with
      | nil =>
        rcases Option.or_eq_some_iff.1 h with hchild | ⟨-, hlength⟩
        · exact .inl ⟨by simp, by rw [follow?, hchild]; rfl⟩
        · cases v with
          | array items =>
            rw [length?] at hlength
            split at hlength
            · rename_i hsegment
              exact .inr ⟨[], items, by rw [hsegment]; rfl, rfl, (Option.some.inj hlength).symm⟩
            · cases hlength
          | object fields | null | bool b | number n | text s => cases hlength
      | cons next rest =>
        obtain ⟨child, hchild, hrest⟩ := Option.bind_eq_some_iff.1 h
        rcases ih hrest with ⟨-, hfollow⟩ | ⟨front, items, hsegments, hfollow, hw⟩
        · exact .inl ⟨by simp, by rw [follow?, hchild, Option.bind_some, hfollow]⟩
        · refine .inr ⟨segment :: front, items, by rw [hsegments]; rfl, ?_, hw⟩
          rw [follow?, hchild, Option.bind_some, hfollow]
  · rintro (⟨hne, hfollow⟩ | ⟨front, items, rfl, hfollow, rfl⟩)
    · exact read?_of_follow? hne hfollow
    · exact read?_concat_length hfollow

/-- The value at a path of a document. -/
def get? (path : String) (document : Value) : Option Value := read? (segments path) document

end DataBinding.Path
