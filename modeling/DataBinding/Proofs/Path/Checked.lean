import DataBinding.Proofs.Path.Growth

/-!
# Writes in the arithmetic of words

Indices and lengths are numbers of 64 bits, for which the length after padding is the index plus
one, and the gap to be padded the index minus the length. Here a write is computed with sums and
differences that fail where they leave the 64 bits, and with an access that fails where the index is
none of the array. No array in memory has as many as `2 ^ 63` elements, and then nothing fails, and
the result is that of a write.

Results:
* `padWords?_eq`: padding in words is padding.
* `changePart?_eq`: the element that was padded for is there.
* `writeWords_eq`: no step of a write fails.
* `update_bounded`: what a write may add, and that it is computed without a fault.
-/

namespace DataBinding.Path

/-! ## Words -/

/-- The sum, if it fits 64 bits. -/
def addWord? (a b : Nat) : Option Nat := if a + b < wordBound then some (a + b) else none

/-- The difference, if it is not below zero. -/
def subWord? (a b : Nat) : Option Nat := if b ≤ a then some (a - b) else none

/-- The first `length` elements, with `null` for those that are missing. -/
def resize (length : Nat) (items : List Value) : List Value :=
  items.take length ++ List.replicate (length - items.length) .null

/-- The elements padded up to an index, or nothing for an index that is too far out; no result at
    all if the gap cannot be computed. -/
def padWords? (items : List Value) (index : Nat) : Option (Option (List Value)) :=
  if index < items.length then some (some items)
  else
    match addWord? index 1 with
    | none => some none
    | some length =>
      (subWord? index items.length).map fun gap =>
        if gap ≤ maxPadding then some (resize length items) else none

/-- The elements after a change of the one at an index, which padding makes addressable; no result
    if it is not. -/
def changeItem? (change : Value → Option Value) (index : Nat) (items : List Value) :
    Option (List Value) :=
  (padWords? items index).bind fun
    | none => some items
    | some padded => padded[index]?.bind fun item => (change item).map (padded.set index ·)

/-- The value after a change of the part under a segment. -/
def changePart? (change : Value → Option Value) (segment : String) : Value → Option Value
  | .object fields =>
    (change ((Fields.get? segment fields).getD .null)).map fun new =>
      .object (Fields.insert segment new fields)
  | .array items =>
    match index? segment with
    | none => some (.array items)
    | some index => (changeItem? change index items).map .array
  | v => some v

/-- The value after a write where the segments lead; no result if a step of it fails. -/
def writeWords (w : Value) : List String → Value → Option Value
  | [], v => some v
  | [segment], v => changePart? (fun _ => some w) segment v
  | segment :: next :: rest, v =>
    changePart? (fun child => writeWords w (next :: rest) (containerFor next child)) segment v

def updateWords (path : String) (w document : Value) : Option Value :=
  writeWords w (segments path) document

/-! ## Nothing fails -/

/-- Every array is short enough for the memory of a machine. -/
def FitsMemory (v : Value) : Prop := ∀ place, lengthAt place v < signBit

theorem resize_of_le {items : List Value} {length : Nat} (h : items.length ≤ length) :
    resize length items = items ++ List.replicate (length - items.length) .null := by
  rw [resize, List.take_of_length_le h]

/-- Where the sum does not fit, the index is too far out for any array in memory. -/
theorem padWords?_eq {items : List Value} (h : items.length < signBit) (index : Nat) :
    padWords? items index = some (pad? items index) := by
  rw [padWords?, pad?]
  split
  · rfl
  · have hsub : subWord? index items.length = some (index - items.length) := if_pos (by omega)
    by_cases hadd : index + 1 < wordBound
    · rw [addWord?, if_pos hadd]
      simp only [hsub, Option.map_some, resize_of_le (show items.length ≤ index + 1 by omega)]
    · have hbounds : signBit + maxPadding + 1 < wordBound := by decide
      rw [addWord?, if_neg hadd, if_neg (by omega)]

theorem changeItem?_eq {change : Value → Option Value} {items : List Value}
    (h : items.length < signBit) {index : Nat} {new : Value}
    (hchange : change (items[index]?.getD .null) = some new) :
    changeItem? change index items = some (((pad? items index).map (·.set index new)).getD items) := by
  rw [changeItem?, padWords?_eq h, Option.bind_some]
  cases hpad : pad? items index with
  | none => rfl
  | some padded => simp [getElem?_pad? hpad, hchange]

theorem changePart?_eq {change : Value → Option Value} {segment : String} {v new : Value}
    (h : lengthAt [] v < signBit) (hchange : change ((child? segment v).getD .null) = some new) :
    changePart? change segment v = some (writeChild (some new) segment v) := by
  cases v with
  | object fields =>
    rw [child?] at hchange
    rw [changePart?, hchange]
    rfl
  | array items =>
    rw [changePart?, writeChild]
    rw [child?] at hchange
    cases hindex : index? segment with
    | none => rfl
    | some index =>
      rw [hindex, Option.bind_some] at hchange
      simp only [changeItem?_eq h hchange, Option.map_some]
  | null | bool b | number n | text s => rfl

theorem FitsMemory.containerFor_child {v : Value} (h : FitsMemory v) (next segment : String) :
    FitsMemory (containerFor next ((child? segment v).getD .null)) := by
  intro place
  refine Nat.lt_of_le_of_lt (lengthAt_containerFor_le next place _) ?_
  cases hstep : step? segment v with
  | none =>
    rw [child?_eq_bind, hstep, Option.bind_none, Option.getD_none, lengthAt_null]
    decide
  | some step =>
    rw [lengthAt_child place hstep]
    exact h (step :: place)

/-- The induction follows the walk: what it goes into is a part of the value, or empty. -/
theorem writeWords_eq {v : Value} (h : FitsMemory v) (w : Value) (segments : List String) :
    writeWords w segments v = some (write (some w) segments v) := by
  induction segments generalizing v with
  | nil => rfl
  | cons segment rest ih =>
    cases rest with
    | nil =>
      rw [writeWords, write]
      exact changePart?_eq (h []) rfl
    | cons next rest =>
      rw [writeWords, write_cons]
      exact changePart?_eq (h []) (ih (h.containerFor_child next segment))

/-- A write adds at most the value and one padding for each segment of the path. An array that does
    not lie in the value that was written has grown by at most one padding, from nothing if it is
    new. The indices and lengths of the write stay within 64 bits, and the element that it pads for
    is there. -/
theorem update_bounded (path : String) (w document : Value) :
    (update path (some w) document).size ≤
        document.size + w.size + (maxPadding + 1) * (segments path).length ∧
      (∀ place,
        (∃ target, place? (segments path) (update path (some w) document) = some target ∧
          at? target (update path (some w) document) = some w ∧ target <+: place) ∨
        lengthAt place (update path (some w) document) ≤
          lengthAt place document + (maxPadding + 1)) ∧
      (FitsMemory document →
        updateWords path w document = some (update path (some w) document)) := by
  refine ⟨size_write_le w (segments path) document, fun place => ?_,
    fun h => writeWords_eq h w (segments path)⟩
  by_cases hne : segments path = []
  · right
    rw [update, hne, write]
    exact Nat.le_add_right _ _
  · by_cases hin : Inside (segments path) (update path (some w) document) place
    · obtain ⟨target, htarget, hprefix⟩ := hin
      exact .inl ⟨target, htarget, at?_of_place?_write hne htarget, hprefix⟩
    · exact .inr (lengthAt_write_le hne hin)

/-- A list of three in place of an empty one. -/
theorem update_bounded_padded :
    FitsMemory (.object [("a", .array [])]) ∧
      updateWords "a.2" (.bool true) (.object [("a", .array [])]) =
        some (.object [("a", .array [.null, .null, .bool true])]) := by
  have hfits : FitsMemory (.object [("a", .array [])]) := fun place =>
    Nat.lt_trans (lengthAt_lt_size place _) (by decide)
  exact ⟨hfits, (update_bounded "a.2" (.bool true) _).2.2 hfits⟩

end DataBinding.Path
