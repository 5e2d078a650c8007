import DataBinding.Engine.Basic
import DataBinding.Proofs.Path.Diverging
import DataBinding.Proofs.Value.Distinct

/-!
# Elements between brackets

The part of a container under a key can be read in two ways: between brackets in an expression, with
the key as a text, and by a path of one segment. Both ways an object answers its own keys, and an
array the indices below its length and `length`. They differ about a plus sign in front of an index:
brackets pass over it, and a path takes it for a name that no array has.

Results:
* `elementIndex?_eq_or`: an index between brackets is an index of paths, or stands behind a plus
  sign.
* `property?_eq_or`: what brackets read is what the path reads, or stands behind a plus sign.
* `exists_path_get?_iff`: the keys that a container answers.
* `eval_index_eq_get?_iff`: the two ways agree unless there is an element behind a plus sign.
-/

namespace DataBinding

open DataBinding.Path (index? isIndex index?_eq_some_iff)

/-! ## Keys -/

/-- The index that stands behind a plus sign. -/
def signedIndex? (key : String) : Option Nat :=
  match key.toList with
  | '+' :: digits => Text.word64? digits
  | _ => none

/-- The element of an array whose index stands behind a plus sign. -/
def signedElement? (key : String) : Value → Option Value
  | .array items => (signedIndex? key).bind (items[·]?)
  | _ => none

/-- The keys that a container answers: an object those it has, an array its length and the indices
    below it, which have 64 bits. -/
def Answers (key : String) : Value → Prop
  | .object fields => key ∈ Fields.keys fields
  | .array items =>
    key = "length" ∨ isIndex key = true ∧ Text.digitsValue key.toList < min items.length wordBound
  | _ => False

section Key

variable {key : String} {digits : List Char}

theorem index?_eq_none_of_plus (h : key.toList = '+' :: digits) : index? key = none := by
  have hplus : isIndex key = false := by
    rw [isIndex, h]
    rfl
  exact Path.index?_eq_none_of_isIndex hplus

theorem signedIndex?_of_plus (h : key.toList = '+' :: digits) :
    signedIndex? key = Text.word64? digits := by
  simp only [signedIndex?, h]

theorem signedIndex?_of_no_plus (h : ∀ digits, key.toList ≠ '+' :: digits) :
    signedIndex? key = none := by
  rw [signedIndex?]
  split
  · rename_i digits hplus
    exact absurd hplus (h digits)
  · rfl

theorem exists_digits_of_signedIndex? {i : Nat} (h : signedIndex? key = some i) :
    ∃ digits, key.toList = '+' :: digits ∧ Text.word64? digits = some i := by
  rw [signedIndex?] at h
  split at h
  · rename_i digits hplus
    exact ⟨digits, hplus, h⟩
  · cases h

theorem signedIndex?_of_index? {i : Nat} (h : index? key = some i) : signedIndex? key = none := by
  refine signedIndex?_of_no_plus fun digits hplus => ?_
  rw [index?_eq_none_of_plus hplus] at h
  cases h

theorem elementIndex?_eq_or (key : String) :
    elementIndex? key = (index? key).or (signedIndex? key) := by
  rw [elementIndex?]
  split
  · rename_i digits hplus
    rw [index?_eq_none_of_plus hplus, signedIndex?_of_plus hplus, Option.none_or]
  · rename_i hplus
    rw [signedIndex?_of_no_plus hplus, Option.or_none, index?]

end Key

theorem exists_getElem?_index?_iff {key : String} {items : List Value} :
    (∃ v, (index? key).bind (items[·]?) = some v) ↔
      isIndex key = true ∧ Text.digitsValue key.toList < min items.length wordBound := by
  constructor
  · rintro ⟨v, hv⟩
    obtain ⟨i, hi, hitem⟩ := Option.bind_eq_some_iff.1 hv
    obtain ⟨hindex, hbound, hvalue⟩ := index?_eq_some_iff.1 hi
    obtain ⟨hlt, -⟩ := List.getElem?_eq_some_iff.1 hitem
    exact ⟨hindex, by omega⟩
  · rintro ⟨hindex, hlt⟩
    have hi : index? key = some (Text.digitsValue key.toList) :=
      index?_eq_some_iff.2 ⟨hindex, by omega, rfl⟩
    exact ⟨items[Text.digitsValue key.toList], by
      rw [hi, Option.bind_some, List.getElem?_eq_getElem]⟩

/-! ## Reading a container -/

section Container

variable {key : String} (hne : key ≠ "") (hdot : '.' ∉ key.toList)
include hne hdot

theorem get?_of_segment (v : Value) :
    Path.get? key v = (Path.child? key v).or (Path.length? key v) := by
  have hsegments : Path.segments key = [key] := by
    rw [Path.segments, if_neg (by simpa using hne), Text.splitOn_of_not_mem hdot]
    simp
  rw [Path.get?, hsegments, Path.read?]

theorem property?_eq_or {v : Value} (hv : v.isContainer = true) :
    v.property? key = (Path.get? key v).or (signedElement? key v) := by
  rw [get?_of_segment hne hdot]
  cases v with
  | object fields => exact (Option.or_none.trans Option.or_none).symm
  | array items =>
    rw [Value.property?, Path.child?, Path.length?, signedElement?]
    by_cases hlength : key = "length"
    · have hindex : index? "length" = none := rfl
      rw [if_pos hlength, if_pos hlength, hlength, hindex]
      rfl
    · rw [if_neg hlength, if_neg hlength, Option.or_none, elementIndex?_eq_or]
      cases hi : index? key with
      | none => rfl
      | some i => rw [signedIndex?_of_index? hi, Option.or_none, Option.bind_none, Option.or_none]
  | null | bool b | number n | text s => cases hv

theorem exists_path_get?_iff (v : Value) :
    (∃ w, Path.get? key v = some w) ↔ Answers key v := by
  rw [get?_of_segment hne hdot]
  cases v with
  | object fields =>
    show (∃ w, (Fields.get? key fields).or none = some w) ↔ _
    rw [Option.or_none, Fields.exists_get?_iff]
    rfl
  | array items =>
    rw [Path.child?, Path.length?, Answers]
    by_cases hlength : key = "length"
    · subst hlength
      exact iff_of_true ⟨.ofNat items.length, rfl⟩ (.inl rfl)
    · rw [if_neg hlength, Option.or_none, exists_getElem?_index?_iff]
      exact ⟨.inr, fun h => h.resolve_left hlength⟩
  | null | bool b | number n | text s => simp [Path.child?, Path.length?, Answers]

/-! ## Expressions -/

theorem eval_index_text {env : Environment} {object index : Expr} {v : Value}
    (ho : object.eval env = .ok (some v)) (hi : index.eval env = .ok (some (.text key)))
    (hv : v.isContainer = true) :
    (Expr.index object index).eval env = .ok ((Path.get? key v).or (signedElement? key v)) := by
  have hkey : keyText (some (.text key)) = key := by
    show String.ofList (Value.displayText (.text key)) = key
    rw [Value.displayText_text, String.ofList_toList]
  have hnull : v.isNull = false := by
    cases v with
    | array items | object fields => rfl
    | null | bool b | number n | text s => cases hv
  simp only [Expr.eval, ho, hi, Expr.ok_bind, hkey, readProperty, hnull]
  rw [← property?_eq_or hne hdot hv]
  rfl

/-- A signed index is no name for a path, so the path reads nothing where it has an element. -/
theorem get?_of_signedElement? {v w : Value} (h : signedElement? key v = some w) :
    Path.get? key v = none := by
  cases v with
  | array items =>
    obtain ⟨i, hi, -⟩ := Option.bind_eq_some_iff.1 h
    obtain ⟨digits, hplus, -⟩ := exists_digits_of_signedIndex? hi
    have hlength : key ≠ "length" := by
      rintro rfl
      cases hi
    rw [get?_of_segment hne hdot, Path.child?, index?_eq_none_of_plus hplus, Path.length?,
      if_neg hlength]
    rfl
  | null | bool b | number n | text s | object fields => cases h

/-- Between brackets a container answers the keys that it answers to a path, with the same values,
    and an array also its indices behind a plus sign: there, and nowhere else, the two ways
    differ. -/
theorem eval_index_eq_get?_iff {env : Environment} {object index : Expr} {v : Value}
    (ho : object.eval env = .ok (some v)) (hi : index.eval env = .ok (some (.text key)))
    (hv : v.isContainer = true) :
    ((Expr.index object index).eval env = .ok (Path.get? key v) ↔
      ¬∃ items digits i, v = .array items ∧ key.toList = '+' :: digits ∧
        Text.word64? digits = some i ∧ i < items.length) ∧
    (Expr.index object index).eval env = .ok ((Path.get? key v).or (signedElement? key v)) ∧
    ((∃ w, Path.get? key v = some w) ↔ Answers key v) := by
  have heval := eval_index_text hne hdot ho hi hv
  refine ⟨?_, heval, exists_path_get?_iff hne hdot v⟩
  have hsigned : (∃ items digits i, v = .array items ∧ key.toList = '+' :: digits ∧
      Text.word64? digits = some i ∧ i < items.length) ↔ ∃ w, signedElement? key v = some w := by
    constructor
    · rintro ⟨items, digits, i, rfl, hplus, hdigits, hlt⟩
      exact ⟨items[i], by
        rw [signedElement?, signedIndex?_of_plus hplus, hdigits, Option.bind_some,
          List.getElem?_eq_getElem hlt]⟩
    · rintro ⟨w, hw⟩
      cases v with
      | array items =>
        obtain ⟨i, hindex, hitem⟩ := Option.bind_eq_some_iff.1 hw
        obtain ⟨hlt, -⟩ := List.getElem?_eq_some_iff.1 hitem
        obtain ⟨digits, hplus, hdigits⟩ := exists_digits_of_signedIndex? hindex
        exact ⟨items, digits, i, rfl, hplus, hdigits, hlt⟩
      | null | bool b | number n | text s | object fields => cases hw
  rw [hsigned, heval]
  cases hw : signedElement? key v with
  | none => simp
  | some w =>
    rw [get?_of_signedElement? hne hdot hw]
    simp

end Container

/-- A context with a list of two. -/
def listContext : Value := .object [("xs", .array [.ofNat 7, .ofNat 8])]

/-- Between brackets `+1` is the second of two elements; a path finds nothing there. -/
theorem eval_index_plus :
    let env := Engine.default.environment listContext []
    let e := Expr.index (.ident "xs") (.literal (.text "+1"))
    e.eval env = .ok (some (.ofNat 8)) ∧
      Path.get? "+1" (.array [.ofNat 7, .ofNat 8]) = none ∧
      e.eval env ≠ .ok (Path.get? "+1" (.array [.ofNat 7, .ofNat 8])) := by
  intro env e
  have hlist : (Expr.ident "xs").eval env = .ok (some (.array [.ofNat 7, .ofNat 8])) := rfl
  have hkey : (Expr.literal (.text "+1")).eval env = .ok (some (.text "+1")) := rfl
  obtain ⟨hiff, heval, -⟩ := eval_index_eq_get?_iff (by decide) (by decide) hlist hkey rfl
  exact ⟨heval, rfl, fun h => hiff.1 h ⟨_, ['1'], 1, rfl, rfl, rfl, by decide⟩⟩

end DataBinding
