import Mathlib.Data.List.Forall2
import DataBinding.Eval.Operation
import DataBinding.Proofs.Value.Equality

/-!
# Strict equality of containers, part by part

Two numbers are strictly equal if they stand for equal doubles, but inside containers they have to
be the same number of a document: `1` and `1.0` are strictly equal, and `[1]` and `[1.0]` are not.
So strict equality of containers is that of their parts, except for numbers that are equal as
doubles only. Putting such a number in the place of another leaves the members of an array as they
are, and its text, and yet makes it a different array.

Results:
* `strictEqual_array_iff`, `strictEqual_object_iff`: containers are compared part by part.
* `indistinguishable_iff`: neither equality nor membership tells strictly equal values apart.
* `alikeBesideScalars_set`, `alikeBesideScalars_insert`: after such a replacement only containers
  can tell.
* `strictEqual_by_parts`: what replacing a part by a strictly equal one changes.
-/

namespace DataBinding

theorem any_eq_any {α β : Type} {p : α → Bool} {q : β → Bool} {as : List α} {bs : List β}
    (h : List.Forall₂ (fun a b => p a = q b) as bs) : as.any p = bs.any q := by
  induction h with
  | nil => rfl
  | cons hhead _ ih => rw [List.any_cons, List.any_cons, hhead, ih]

namespace Value

open Fields (keys)

/-! ## Numbers that are equal as doubles only -/

/-- Two numbers that stand for equal doubles and are not the same number of a document: an integer
    and a float, or two integers that are rounded to one double. -/
def onlyAsDoubles : Value → Value → Bool
  | number m, number n => m.toDouble.equal n.toDouble && !m.same n
  | _, _ => false

theorem onlyAsDoubles_of_not_number {v : Value} (h : v.number? = none) (w : Value) :
    onlyAsDoubles v w = false := by
  cases v with
  | number n => cases h
  | null | bool b | text s | array items | object fields => rfl

theorem same_iff {v w : Value} :
    same v w = true ↔
      strictEqual (some v) (some w) = true ∧ onlyAsDoubles v w = false := by
  cases v with
  | number m =>
    cases w with
    | number n =>
      have hplace : m.same n = true → m.toDouble.equal n.toDouble = true := fun h =>
        Number.equal_toDouble_iff.2 (Number.position_of_same h)
      rw [same, strictEqual, onlyAsDoubles]
      cases hsame : m.same n with
      | true => simp [hplace hsame]
      | false => simp
    | null | bool b | text s | array items | object fields => simp [same, strictEqual]
  | null | bool b | text s | array items | object fields =>
    rw [strictEqual_of_not_number rfl, onlyAsDoubles_of_not_number rfl, eq_self, and_true]

theorem strictEqual_array_iff {as bs : List Value} :
    strictEqual (some (array as)) (some (array bs)) = true ↔
      as.length = bs.length ∧ ∀ (i : Nat) (ha : i < as.length) (hb : i < bs.length),
        strictEqual (some as[i]) (some bs[i]) = true ∧ onlyAsDoubles as[i] bs[i] = false := by
  rw [strictEqual_of_not_number rfl, same_array_iff]
  simp only [same_iff]

theorem strictEqual_object_iff {as bs : Fields} (ha : (keys as).Nodup) (hb : (keys bs).Nodup) :
    strictEqual (some (object as)) (some (object bs)) = true ↔
      (∀ key, key ∈ keys as ↔ key ∈ keys bs) ∧
        ∀ key a b, Fields.get? key as = some a → Fields.get? key bs = some b →
          strictEqual (some a) (some b) = true ∧ onlyAsDoubles a b = false := by
  rw [strictEqual_of_not_number rfl, same_object_iff ha hb]
  simp only [same_iff]

/-! ## Values that read alike -/

theorem isContainer_of_kind {v w : Value} (h : v.kind = w.kind) :
    v.isContainer = w.isContainer := by
  cases v <;> cases w <;> first | rfl | cases h

/-- The values are of one kind, are displayed alike and are at one place as numbers. -/
structure ReadsAlike (v w : Value) : Prop where
  kind : v.kind = w.kind
  text : v.displayText = w.displayText
  place : v.toDouble.position? = w.toDouble.position?

namespace ReadsAlike

theorem displayItems {as bs : List Value} (h : List.Forall₂ ReadsAlike as bs) :
    displayItems as = displayItems bs := by
  induction h with
  | nil => rfl
  | cons hhead _ ih =>
    rw [Value.displayItems, Value.displayItems, isNull_of_kind hhead.kind, hhead.text, ih]

theorem array {as bs : List Value} (h : List.Forall₂ ReadsAlike as bs) :
    ReadsAlike (array as) (array bs) where
  kind := rfl
  text := by rw [displayText, displayText, displayItems h]
  place := by
    cases h with
    | nil => rfl
    | cons hhead htail =>
      cases htail with
      | nil => rw [toDouble, toDouble, hhead.place]
      | cons => rw [toDouble, toDouble]

theorem object (as bs : Fields) : ReadsAlike (object as) (object bs) where
  kind := rfl
  text := by rw [displayText, displayText]
  place := by rw [toDouble, toDouble]

theorem number {m n : Number} (h : m.position = n.position) :
    ReadsAlike (number m) (number n) where
  kind := rfl
  text := by
    rw [displayText, displayText, Double.displayText_of_equal (Number.equal_toDouble_iff.2 h)]
  place := by
    rw [toDouble_number, toDouble_number, Number.position?_toDouble, Number.position?_toDouble, h]

end ReadsAlike

theorem readsAlike_of_same {v w : Value} (h : same v w = true) : ReadsAlike v w := by
  induction v using induction_parts generalizing w with
  | scalar v hscalar =>
    cases v with
    | array items | object fields => cases hscalar
    | number m =>
      obtain ⟨n, rfl, hn⟩ := exists_number_of_same h
      exact .number (Number.position_of_same hn)
    | null | bool b | text s =>
      obtain rfl := eq_of_same rfl rfl h
      exact ⟨rfl, rfl, rfl⟩
  | array items ih =>
    obtain ⟨others, rfl⟩ := exists_array_of_same h
    obtain ⟨hlength, hall⟩ := same_array_iff.1 h
    exact .array (List.forall₂_iff_get.2 ⟨hlength, fun i hi hj =>
      ih _ (List.getElem_mem hi) (hall i hi hj)⟩)
  | object fields _ =>
    obtain ⟨others, rfl⟩ := exists_object_of_same h
    exact .object fields others

theorem readsAlike_of_strictEqual {v w : Value} (h : strictEqual (some v) (some w) = true) :
    ReadsAlike v w := by
  rcases strictEqual_iff.1 h with hsame | ⟨m, n, rfl, rfl, hplace⟩
  · exact readsAlike_of_same hsame
  · exact .number hplace

/-! ## Equality with a third value -/

section Third

variable {v w : Value} {x : Option Value}

theorem strictEqual_congr (hv : v.isDistinct = true) (hw : w.isDistinct = true)
    (hx : x.all isDistinct = true) (h : strictEqual (some v) (some w) = true) :
    strictEqual (some v) x = strictEqual (some w) x :=
  have hv : (some v).all isDistinct = true := hv
  have hw : (some w).all isDistinct = true := hw
  Bool.eq_iff_iff.2 ⟨strictEqual_trans hw hv hx (strictEqual_symm hv hw h),
    strictEqual_trans hv hw hx h⟩

theorem looseEqualPlain_congr (halike : ReadsAlike v w) {y : Value}
    (h : strictEqual (some v) (some y) = strictEqual (some w) (some y)) :
    looseEqualPlain v y = looseEqualPlain w y := by
  rw [looseEqualPlain_eq, looseEqualPlain_eq, halike.kind, Double.equal, Double.equal, halike.place,
    h]

theorem strictEqual_beside (kind : Kind) (h : strictEqual (some v) (some w) = true) :
    strictEqual (some (beside kind v)) (some (beside kind w)) = true := by
  have halike := readsAlike_of_strictEqual h
  rw [beside, beside, isContainer_of_kind halike.kind]
  split
  · rw [asText, asText, halike.text]
    exact strictEqual_refl rfl
  · exact h

/-- Values that read alike are `null` together and are beside the other side as one kind. -/
theorem looseEqual_congr_of_readsAlike (halike : ReadsAlike v w)
    (h : ∀ y, x = some y → looseEqualPlain (beside y.kind v) (beside w.kind y) =
      looseEqualPlain (beside y.kind w) (beside w.kind y)) :
    looseEqual (some v) x = looseEqual (some w) x := by
  have hnull := isNull_of_kind halike.kind
  cases hnullish : isNullish (some v) || isNullish x with
  | true =>
    have hnullish' : (isNullish (some w) || isNullish x) = true := by
      rwa [isNullish, ← hnull]
    rw [looseEqual_of_isNullish hnullish, looseEqual_of_isNullish hnullish', isNullish, isNullish,
      hnull]
  | false =>
    obtain ⟨hv, hx⟩ := Bool.or_eq_false_iff.1 hnullish
    cases x with
    | none => cases hx
    | some y => rw [looseEqual_eq hv hx, looseEqual_eq (hnull ▸ hv) hx, halike.kind, h y rfl]

theorem looseEqual_congr (hv : v.isDistinct = true) (hw : w.isDistinct = true)
    (hx : x.all isDistinct = true) (h : strictEqual (some v) (some w) = true) :
    looseEqual (some v) x = looseEqual (some w) x := by
  refine looseEqual_congr_of_readsAlike (readsAlike_of_strictEqual h) fun y hy => ?_
  subst hy
  have hbeside := strictEqual_beside y.kind h
  exact looseEqualPlain_congr (readsAlike_of_strictEqual hbeside)
    (strictEqual_congr (isDistinct_beside _ hv) (isDistinct_beside _ hw)
      (isDistinct_beside _ hx) hbeside)

theorem strictEqual_of_isContainer (hv : v.isContainer = true) {y : Value}
    (hy : y.isContainer = false) : strictEqual (some v) (some y) = false := by
  rw [Bool.eq_false_iff]
  intro h
  rw [isContainer_of_kind (kind_of_strictEqual h), hy] at hv
  cases hv

/-- Beside a value that is no container, a container counts as its text or as its number. -/
theorem looseEqual_scalar_congr (halike : ReadsAlike v w) (hv : v.isContainer = true) {y : Value}
    (hy : y.isContainer = false) : looseEqual (some v) (some y) = looseEqual (some w) (some y) := by
  have hw : w.isContainer = true := by rwa [← isContainer_of_kind halike.kind]
  refine looseEqual_congr_of_readsAlike halike fun y' hy' => ?_
  cases hy'
  -- a number or a text is compared with the text of the container, a truth value with its number
  cases hreads : y.kind.readsText with
  | true =>
    rw [beside_eq_asText hv hreads, beside_eq_asText hw hreads, asText, asText, halike.text]
  | false =>
    rw [beside_eq_self hreads, beside_eq_self hreads]
    refine looseEqualPlain_congr halike ?_
    have hy' : (beside w.kind y).isContainer = false := by
      rwa [beside, hy, Bool.false_and, if_neg Bool.false_ne_true]
    rw [strictEqual_of_isContainer hv hy', strictEqual_of_isContainer hw hy']

/-! ## Membership -/

theorem contains_congr_right (halike : ReadsAlike v w)
    (h : ∀ items, x = some (array items) → ∀ item ∈ items,
      strictEqual (some item) (some v) = strictEqual (some item) (some w)) :
    contains x (some v) = contains x (some w) := by
  have htext : displayText? (some v) = displayText? (some w) := halike.text
  cases x with
  | none => rfl
  | some haystack =>
    cases haystack with
    | array items =>
      rw [contains_array, contains_array, any_eq_any (List.forall₂_same.2 (h items rfl))]
    | text s => simp only [contains, htext]
    | object fields => simp only [contains, htext]
    | null | bool b | number n => rfl

theorem contains_array_congr {as bs : List Value}
    (h : List.Forall₂ (fun v w => strictEqual (some v) x = strictEqual (some w) x) as bs) :
    contains (some (array as)) x = contains (some (array bs)) x := by
  rw [contains_array, contains_array, any_eq_any h]

theorem contains_object_congr {as bs : Fields} (h : ∀ key, key ∈ keys as ↔ key ∈ keys bs) :
    contains (some (object as)) x = contains (some (object bs)) x := by
  have hcontains : ∀ key, Fields.contains key as = Fields.contains key bs := fun key => by
    rw [Fields.contains, Fields.contains, Bool.eq_iff_iff, Option.isSome_iff_exists,
      Option.isSome_iff_exists, Fields.exists_get?_iff, Fields.exists_get?_iff, h]
  simp only [contains, hcontains]

theorem contains_congr_left (hv : v.isDistinct = true) (hw : w.isDistinct = true)
    (hx : x.all isDistinct = true) (h : strictEqual (some v) (some w) = true) :
    contains (some v) x = contains (some w) x := by
  rcases strictEqual_iff.1 h with hsame | ⟨m, n, rfl, rfl, -⟩
  · cases v with
    | null | bool b | text s =>
      obtain rfl := eq_of_same rfl rfl hsame
      rfl
    | number m =>
      obtain ⟨n, rfl, -⟩ := exists_number_of_same hsame
      rfl
    | array as =>
      obtain ⟨bs, rfl⟩ := exists_array_of_same hsame
      obtain ⟨hlength, hall⟩ := same_array_iff.1 hsame
      rw [isDistinct_array] at hv hw
      exact contains_array_congr (List.forall₂_iff_get.2 ⟨hlength, fun i ha hb =>
        strictEqual_congr (hv _ (List.get_mem as ⟨i, ha⟩)) (hw _ (List.get_mem bs ⟨i, hb⟩)) hx
          (same_iff.1 (hall i ha hb)).1⟩)
    | object as =>
      obtain ⟨bs, rfl⟩ := exists_object_of_same hsame
      exact contains_object_congr
        ((same_object_iff (isDistinct_object.1 hv).1 (isDistinct_object.1 hw).1).1 hsame).1
  · rfl

end Third

/-! ## Values that are not told apart -/

/-- Equality with a third value, on either side, and membership, as what is searched and as what is
    searched for, come out the same. -/
structure Indistinguishable (v w : Value) : Prop where
  strict : ∀ x : Option Value, x.all isDistinct = true →
    strictEqual (some v) x = strictEqual (some w) x ∧
      strictEqual x (some v) = strictEqual x (some w)
  loose : ∀ x : Option Value, x.all isDistinct = true →
    looseEqual (some v) x = looseEqual (some w) x ∧ looseEqual x (some v) = looseEqual x (some w)
  haystack : ∀ x : Option Value, x.all isDistinct = true →
    contains (some v) x = contains (some w) x
  needle : ∀ x : Option Value, x.all isDistinct = true →
    contains x (some v) = contains x (some w)

/-- The values may differ beside other containers only: they are loosely equal to the same values
    without parts, have the same members, and are searched for alike but in arrays. -/
structure AlikeBesideScalars (v w : Value) : Prop where
  loose : ∀ x : Value, x.isContainer = false →
    looseEqual (some v) (some x) = looseEqual (some w) (some x)
  haystack : ∀ x : Option Value, x.all isDistinct = true →
    contains (some v) x = contains (some w) x
  needle : ∀ x : Option Value, (∀ items, x ≠ some (array items)) →
    contains x (some v) = contains x (some w)

theorem indistinguishable_iff {v w : Value} (hv : v.isDistinct = true) (hw : w.isDistinct = true) :
    Indistinguishable v w ↔ strictEqual (some v) (some w) = true := by
  have hv' : (some v).all isDistinct = true := hv
  have hw' : (some w).all isDistinct = true := hw
  constructor
  · intro h
    rw [(h.strict (some w) hw').1]
    exact strictEqual_refl hw'
  · intro h
    have hstrict : ∀ x : Option Value, x.all isDistinct = true →
        strictEqual x (some v) = strictEqual x (some w) := fun x hx => by
      rw [strictEqual_comm hv' hx, strictEqual_comm hw' hx, strictEqual_congr hv hw hx h]
    refine ⟨fun x hx => ⟨strictEqual_congr hv hw hx h, hstrict x hx⟩, fun x hx => ⟨?_, ?_⟩,
      fun x hx => contains_congr_left hv hw hx h, fun x hx => ?_⟩
    · exact looseEqual_congr hv hw hx h
    · rw [looseEqual_comm hv' hx, looseEqual_comm hw' hx, looseEqual_congr hv hw hx h]
    · refine contains_congr_right (readsAlike_of_strictEqual h) fun items hitems item hitem => ?_
      subst hitems
      exact hstrict (some item) (isDistinct_array.1 hx item hitem)

theorem alikeBesideScalars_of_readsAlike {v w : Value} (halike : ReadsAlike v w)
    (hv : v.isContainer = true)
    (hcontains : ∀ x : Option Value, x.all isDistinct = true →
      contains (some v) x = contains (some w) x) :
    AlikeBesideScalars v w where
  loose _ hx := looseEqual_scalar_congr halike hv hx
  haystack := hcontains
  needle _ hx := contains_congr_right halike fun items hitems => absurd hitems (hx items)

/-! ## Replacing a part -/

theorem forall₂_set {R : Value → Value → Prop} {items : List Value} {i : Nat} {v : Value}
    (hrefl : ∀ item ∈ items, R item item) (hi : i < items.length) (h : R items[i] v) :
    List.Forall₂ R items (items.set i v) := by
  refine List.forall₂_iff_get.2 ⟨List.length_set.symm, fun j hj hj' => ?_⟩
  rw [List.get_eq_getElem, List.get_eq_getElem, List.getElem_set]
  split
  · rename_i heq
    subst heq
    exact h
  · exact hrefl _ (List.getElem_mem hj)

theorem strictEqual_set_iff {items : List Value} {i : Nat} {v : Value}
    (hitems : (array items).isDistinct = true) (hi : i < items.length)
    (h : strictEqual (some items[i]) (some v) = true) :
    strictEqual (some (array items)) (some (array (items.set i v))) = true ↔
      onlyAsDoubles items[i] v = false := by
  rw [strictEqual_of_not_number rfl]
  have hsame : same items[i] v = true ↔ onlyAsDoubles items[i] v = false :=
    same_iff.trans (and_iff_right h)
  rw [← hsame, same_array_iff]
  constructor
  · rintro ⟨-, hall⟩
    have hnew := hall i hi (by rwa [List.length_set])
    rwa [List.getElem_set_self] at hnew
  · intro hnew
    have hrefl : ∀ item ∈ items, same item item = true := fun item hitem =>
      same_refl (isDistinct_array.1 hitems item hitem)
    exact List.forall₂_iff_get.1 (forall₂_set (R := fun v w => same v w = true) hrefl hi hnew)

theorem strictEqual_insert_iff {fields : Fields} {key : String} {v w : Value}
    (hfields : (object fields).isDistinct = true) (hv : Fields.get? key fields = some v)
    (h : strictEqual (some v) (some w) = true) :
    strictEqual (some (object fields)) (some (object (Fields.insert key w fields))) = true ↔
      onlyAsDoubles v w = false := by
  have hsame : same v w = true ↔ onlyAsDoubles v w = false := same_iff.trans (and_iff_right h)
  obtain ⟨hkeys, hparts⟩ := isDistinct_object.1 hfields
  rw [strictEqual_of_not_number rfl, ← hsame,
    same_object_iff hkeys (Fields.nodup_keys_insert hkeys), Fields.keys_insert,
    if_pos (Fields.exists_get?_iff.1 ⟨v, hv⟩)]
  constructor
  · rintro ⟨-, hvalues⟩
    exact hvalues key v w hv (Fields.get?_insert_self key w fields)
  · refine fun hnew => ⟨fun _ => Iff.rfl, fun other a b ha hb => ?_⟩
    -- under any other key both objects have the same value
    by_cases hother : other = key
    · subst hother
      rw [Fields.get?_insert_self] at hb
      rw [hv] at ha
      rwa [← Option.some.inj ha, ← Option.some.inj hb]
    · rw [Fields.get?_insert_of_ne hother, ha] at hb
      rw [← Option.some.inj hb]
      exact same_refl (hparts _ (Fields.mem_of_get?_eq_some ha))

/-- An element replaced by a strictly equal one goes unnoticed beside values without parts, and
    among the members of the array. -/
theorem alikeBesideScalars_set {items : List Value} {i : Nat} {v : Value}
    (hitems : (array items).isDistinct = true) (hv : v.isDistinct = true) (hi : i < items.length)
    (h : strictEqual (some items[i]) (some v) = true) :
    AlikeBesideScalars (array items) (array (items.set i v)) := by
  have hitem : (items[i]).isDistinct = true := isDistinct_array.1 hitems _ (List.getElem_mem hi)
  refine alikeBesideScalars_of_readsAlike (.array ?_) rfl fun x hx => contains_array_congr ?_
  · exact forall₂_set (fun _ _ => ⟨rfl, rfl, rfl⟩) hi (readsAlike_of_strictEqual h)
  · exact forall₂_set (fun _ _ => rfl) hi (strictEqual_congr hitem hv hx h)

theorem alikeBesideScalars_insert {fields : Fields} {key : String} {v : Value} (w : Value)
    (hv : Fields.get? key fields = some v) :
    AlikeBesideScalars (object fields) (object (Fields.insert key w fields)) := by
  refine alikeBesideScalars_of_readsAlike (.object _ _) rfl fun x _ => contains_object_congr ?_
  intro other
  rw [Fields.keys_insert, if_pos (Fields.exists_get?_iff.1 ⟨v, hv⟩)]

/-! ## Part by part -/

/-- Containers are strictly equal if their parts are, one by one, and no two of these are numbers
    that are equal as doubles only. A part may be replaced by a strictly equal one, and nothing
    tells, if and only if the two are not such numbers; where they are, other containers alone
    tell, and membership in the container does not. -/
theorem strictEqual_by_parts {as bs : List Value} {fs gs : Fields}
    (has : (array as).isDistinct = true) (hfs : (object fs).isDistinct = true)
    (hgs : (object gs).isDistinct = true) :
    (strictEqual (some (array as)) (some (array bs)) = true ↔
      as.length = bs.length ∧ ∀ (i : Nat) (ha : i < as.length) (hb : i < bs.length),
        strictEqual (some as[i]) (some bs[i]) = true ∧ onlyAsDoubles as[i] bs[i] = false) ∧
    (strictEqual (some (object fs)) (some (object gs)) = true ↔
      (∀ key, key ∈ keys fs ↔ key ∈ keys gs) ∧
        ∀ key a b, Fields.get? key fs = some a → Fields.get? key gs = some b →
          strictEqual (some a) (some b) = true ∧ onlyAsDoubles a b = false) ∧
    (∀ (i : Nat) (hi : i < as.length) (v : Value), v.isDistinct = true →
      strictEqual (some as[i]) (some v) = true →
        AlikeBesideScalars (array as) (array (as.set i v)) ∧
        (Indistinguishable (array as) (array (as.set i v)) ↔ onlyAsDoubles as[i] v = false)) ∧
    (∀ key a v, Fields.get? key fs = some a → v.isDistinct = true →
      strictEqual (some a) (some v) = true →
        AlikeBesideScalars (object fs) (object (Fields.insert key v fs)) ∧
        (Indistinguishable (object fs) (object (Fields.insert key v fs)) ↔
          onlyAsDoubles a v = false)) := by
  refine ⟨strictEqual_array_iff, strictEqual_object_iff (isDistinct_object.1 hfs).1
    (isDistinct_object.1 hgs).1, fun i hi v hv h => ⟨?_, ?_⟩, fun key a v ha hv h => ⟨?_, ?_⟩⟩
  · exact alikeBesideScalars_set has hv hi h
  · rw [indistinguishable_iff has (isDistinct_set has hv), strictEqual_set_iff has hi h]
  · exact alikeBesideScalars_insert v ha
  · rw [indistinguishable_iff hfs (isDistinct_insert hfs hv), strictEqual_insert_iff hfs ha h]

/-- The float that is read from `1.0`. -/
def floatOne : Value := (read? "1.0".toList).getD null

/-- `1` and `1.0` are strictly equal, and `[1]` and `[1.0]` are told apart. -/
theorem strictEqual_by_parts_one :
    strictEqual (some (ofNat 1)) (some floatOne) = true ∧
      strictEqual (some (array [ofNat 1])) (some (array [floatOne])) = false ∧
      AlikeBesideScalars (array [ofNat 1]) (array [floatOne]) ∧
      ¬Indistinguishable (array [ofNat 1]) (array [floatOne]) := by
  have hequal : strictEqual (some (ofNat 1)) (some floatOne) = true := by decide +kernel
  have honly : onlyAsDoubles (ofNat 1) floatOne = true := by decide +kernel
  have hone : floatOne.isDistinct = true := by decide +kernel
  obtain ⟨harray, -, hset, -⟩ := @strictEqual_by_parts [ofNat 1] [floatOne] [] []
    (by decide) (by decide) (by decide)
  obtain ⟨halike, htold⟩ := hset 0 (by decide) floatOne hone hequal
  refine ⟨hequal, ?_, halike, fun h => ?_⟩
  · rw [Bool.eq_false_iff, Ne, harray]
    rintro ⟨-, hall⟩
    have hnot := (hall 0 (by decide) (by decide)).2
    rw [List.getElem_cons_zero, List.getElem_cons_zero, honly] at hnot
    cases hnot
  · have hnot := htold.1 h
    rw [List.getElem_cons_zero, honly] at hnot
    cases hnot

end Value

end DataBinding
