import DataBinding.Proofs.Path.Diverging

/-!
# Writes that fit

A write fits if every container on its way takes the next segment: an object takes any key, and an
array takes an index that fits 64 bits and lies not too far past the end. A part on the way that is
missing, or that is no container, counts as the empty container that the next segment asks for.
Exactly the writes that fit can be read back.

Results:
* `barredAt_eq_false_iff`, `barred_eq_false_iff`: the writes that fit are those that are not barred.
* `get?_update_iff`: what is written at a path is read there, whatever it is, exactly if it fits.
-/

namespace DataBinding.Path

/-- Something can be put under the segment of the value. -/
def Takes (segment : String) : Value → Prop
  | .object _ => True
  | .array items => isIndex segment = true ∧ Text.digitsValue segment.toList < wordBound ∧
      Text.digitsValue segment.toList ≤ items.length + maxPadding
  | _ => False

/-- Something can be put where the segments lead. -/
inductive Writable : List String → Value → Prop
  | leaf {segment : String} {v : Value} (h : Takes segment v) : Writable [segment] v
  /-- The way goes on in a container that is there. -/
  | through {segment next : String} {rest : List String} {v child : Value} (h : Takes segment v)
      (hchild : child? segment v = some child) (hcontainer : child.isContainer = true)
      (hbelow : Writable (next :: rest) child) : Writable (segment :: next :: rest) v
  /-- The way goes on in a new container. -/
  | anew {segment next : String} {rest : List String} {v : Value} (h : Takes segment v)
      (hchild : ∀ child, child? segment v = some child → child.isContainer = false)
      (hbelow : Writable (next :: rest) (if isIndex next then .array [] else .object [])) :
      Writable (segment :: next :: rest) v

/-! ## Writes that are not barred -/

theorem pad?_isSome_iff {items : List Value} {index : Nat} :
    (pad? items index).isSome = true ↔ index ≤ items.length + maxPadding := by
  rw [pad?]
  split
  · exact iff_of_true rfl (by omega)
  · split
    · exact iff_of_true rfl (by omega)
    · exact iff_of_false (by simp) (by omega)

theorem barredAt_eq_false_iff {segment : String} {v : Value} :
    barredAt segment v = false ↔ Takes segment v := by
  cases v with
  | object fields => exact iff_of_true rfl trivial
  | array items =>
    rw [barredAt, Takes]
    cases h : index? segment with
    | none =>
      refine iff_of_false (by simp) fun htakes => ?_
      rw [index?_eq_some_iff.2 ⟨htakes.1, htakes.2.1, rfl⟩] at h
      cases h
    | some i =>
      obtain ⟨hindex, hlt, rfl⟩ := index?_eq_some_iff.1 h
      show (pad? items _).isNone = false ↔ _
      rw [Option.isNone_eq_false_iff, pad?_isSome_iff]
      exact ⟨fun hle => ⟨hindex, hlt, hle⟩, fun h => h.2.2⟩
  | null | bool b | number n | text s => exact iff_of_false (by simp [barredAt]) id

theorem containerFor_of_not_isContainer (next : String) {v : Value} (h : v.isContainer = false) :
    containerFor next v = if isIndex next then .array [] else .object [] := by
  rw [containerFor, h, emptyFor]
  rfl

/-- The induction follows the walk of the write. -/
theorem barred_eq_false_iff {segments : List String} (hne : segments ≠ []) {v : Value} :
    barred segments v = false ↔ Writable segments v := by
  induction segments generalizing v with
  | nil => exact absurd rfl hne
  | cons segment rest ih =>
    cases rest with
    | nil =>
      rw [barred, barredAt_eq_false_iff]
      exact ⟨.leaf, fun h => by cases h; assumption⟩
    | cons next rest =>
      rw [barred, Bool.or_eq_false_iff, barredAt_eq_false_iff, ih (by simp)]
      constructor
      · rintro ⟨hat, hbelow⟩
        cases hcontainer : ((child? segment v).getD .null).isContainer with
        | true =>
          rw [containerFor_of_isContainer next hcontainer] at hbelow
          cases hchild : child? segment v with
          | none => simp [hchild, Value.isContainer] at hcontainer
          | some child =>
            rw [hchild, Option.getD_some] at hcontainer hbelow
            exact .through hat hchild hcontainer hbelow
        | false =>
          rw [containerFor_of_not_isContainer next hcontainer] at hbelow
          refine .anew hat (fun child hchild => ?_) hbelow
          rwa [hchild] at hcontainer
      · intro h
        cases h with
        | through hat hchild hcontainer hbelow =>
          rw [hchild, Option.getD_some, containerFor_of_isContainer next hcontainer]
          exact ⟨hat, hbelow⟩
        | anew hat hchild hbelow =>
          have hcontainer : ((child? segment v).getD .null).isContainer = false := by
            cases h : child? segment v with
            | none => rfl
            | some child => exact hchild child h
          rw [containerFor_of_not_isContainer next hcontainer]
          exact ⟨hat, hbelow⟩

/-! ## Reading back -/

/-- A write that fits is read back, whatever is written. One that does not leaves nothing to read
    there, or the length of an array, which is not what was written except by chance. -/
theorem get?_update_iff {path : String} {document : Value} :
    (∀ w, get? path (update path (some w) document) = some w) ↔
      Writable (segments path) document := by
  constructor
  · intro h
    have hne : segments path ≠ [] := by
      intro hnil
      have hnull := h .null
      rw [get?, hnil] at hnull
      cases hnull
    rw [← barred_eq_false_iff hne, Bool.eq_false_iff]
    intro hbarred
    rcases read?_eq_some_iff.1 (h .null) with ⟨-, hfollow⟩ | ⟨_, _, -, -, hlength⟩
    · rw [update, follow?_write hne, hbarred] at hfollow
      cases hfollow
    · cases hlength
  · intro h w
    have hne : segments path ≠ [] := by
      intro hnil
      rw [hnil] at h
      cases h
    have hfollow := follow?_write hne document w
    rw [(barred_eq_false_iff hne).2 h] at hfollow
    exact read?_of_follow? hne hfollow

end DataBinding.Path
