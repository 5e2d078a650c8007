import Mathlib.Order.Defs.Unbundled
import DataBinding.Value.Comparison
import DataBinding.Value.Kind
import DataBinding.Proofs.Double.Position
import DataBinding.Proofs.Value.Distinct

/-!
# Laws of equality and order

Strict equality is an equivalence and implies loose equality, which is symmetric. The order is the
same seen from both sides. It orders texts totally, and numbers by their places on the number line,
so that equal places are the only ties.

Results:
* `strictEqual_iff`: strictly equal values are the same, or numbers at one place.
* `strictEqual_refl`, `strictEqual_comm`, `strictEqual_trans`: an equivalence.
* `looseEqual_eq`: loose equality in terms of what each side is compared as.
* `looseEqual_of_strictEqual`, `looseEqual_comm`: loose equality is wider, and symmetric.
* `atMost_text_iff`, `atMost_number_iff`: the order of texts and of numbers.
* `equality_and_order_laws`: all laws together.
-/

namespace DataBinding

namespace Text

/-! ## Order of texts -/

/-- The order of texts is that of the lists of their code points. -/
theorem compareText_eq (s t : List Char) :
    compareText s t = compare (s.map Char.toNat) (t.map Char.toNat) := by
  induction s generalizing t with
  | nil => cases t <;> rfl
  | cons a s ih =>
    cases t with
    | nil => rfl
    | cons b t => rw [compareText, ih, List.map_cons, List.map_cons, List.compare_cons_cons]

theorem compareText_eq_eq_iff {s t : List Char} : compareText s t = .eq ↔ s = t := by
  rw [compareText_eq, Std.LawfulEqCmp.compare_eq_iff_eq]
  exact List.map_inj_right fun _ _ h => Char.toNat_inj.1 h

theorem isLE_compareText_trans {s t u : List Char} (h : (compareText s t).isLE = true)
    (h' : (compareText t u).isLE = true) : (compareText s u).isLE = true := by
  rw [compareText_eq] at h h' ⊢
  exact Std.TransCmp.isLE_trans h h'

theorem isLE_compareText_total (s t : List Char) :
    (compareText s t).isLE = true ∨ (compareText t s).isLE = true := by
  rw [← compareText_swap s t]
  cases compareText s t <;> simp

theorem isLE_compareText_antisymm {s t : List Char} (h : (compareText s t).isLE = true)
    (h' : (compareText t s).isLE = true) : s = t := by
  rw [← compareText_swap s t] at h'
  rw [← compareText_eq_eq_iff]
  cases hc : compareText s t <;> simp_all

end Text

namespace Kind

/-- Values of these kinds are loosely equal if they are equal as numbers. -/
def meetsAsNumber : Kind → Kind → Bool
  | number, text | text, number | bool, _ | _, bool => true
  | _, _ => false

theorem meetsAsNumber_comm (j k : Kind) : j.meetsAsNumber k = k.meetsAsNumber j := by
  cases j <;> cases k <;> rfl

theorem meetsAsNumber_self (k : Kind) : k.meetsAsNumber k = true ↔ k = bool := by
  cases k <;> decide

/-- Beside values of these kinds a container is read as text. -/
def readsText : Kind → Bool
  | number => true
  | text => true
  | _ => false

end Kind

namespace Value

/-! ## Strict equality -/

theorem strictEqual_of_not_number {v : Value} (h : v.number? = none) (w : Value) :
    strictEqual (some v) (some w) = same v w := by
  cases v with
  | number n => cases h
  | null | bool b | text s | array items | object fields => cases w <;> rfl

theorem strictEqual_number {m n : Number} :
    strictEqual (some (number m)) (some (number n)) = true ↔ m.position = n.position := by
  rw [strictEqual, Number.equal_toDouble_iff]

theorem strictEqual_iff {v w : Value} :
    strictEqual (some v) (some w) = true ↔
      same v w = true ∨ ∃ m n, v = number m ∧ w = number n ∧ m.position = n.position := by
  cases hv : v.number? with
  | none =>
    rw [strictEqual_of_not_number hv, or_iff_left]
    rintro ⟨m, n, rfl, -, -⟩
    cases hv
  | some m =>
    obtain rfl : v = number m := by
      cases v <;> cases hv
      rfl
    cases w with
    | number n =>
      rw [strictEqual_number]
      constructor
      · exact fun h => .inr ⟨m, n, rfl, rfl, h⟩
      · rintro (h | ⟨m', n', hm, hn, h⟩)
        · exact Number.position_of_same h
        · cases hm
          cases hn
          exact h
    | null | bool b | text s | array items | object fields =>
      refine iff_of_false (fun h => ?_) ?_
      · cases h
      · rintro (h | ⟨m', n', -, hn, -⟩)
        · cases h
        · cases hn

theorem kind_of_strictEqual {v w : Value} (h : strictEqual (some v) (some w) = true) :
    v.kind = w.kind := by
  cases v <;> cases w <;> first | rfl | cases h

theorem isNull_of_kind {v w : Value} (h : v.kind = w.kind) : v.isNull = w.isNull := by
  rw [Bool.eq_iff_iff, ← kind_eq_null_iff, ← kind_eq_null_iff, h]

variable {a b c : Option Value}

theorem strictEqual_refl (ha : a.all isDistinct = true) : strictEqual a a = true := by
  cases a with
  | none => rfl
  | some v => exact strictEqual_iff.2 (.inl (same_refl ha))

theorem strictEqual_symm (ha : a.all isDistinct = true) (hb : b.all isDistinct = true)
    (h : strictEqual a b = true) : strictEqual b a = true := by
  cases a with
  | none =>
    cases b with
    | none => rfl
    | some w => cases h
  | some v =>
    cases b with
    | none => cases h
    | some w =>
      rcases strictEqual_iff.1 h with hsame | ⟨m, n, rfl, rfl, hplace⟩
      · exact strictEqual_iff.2 (.inl (same_symm ha hb hsame))
      · exact strictEqual_number.2 hplace.symm

theorem strictEqual_comm (ha : a.all isDistinct = true) (hb : b.all isDistinct = true) :
    strictEqual b a = strictEqual a b :=
  Bool.eq_iff_iff.2 ⟨strictEqual_symm hb ha, strictEqual_symm ha hb⟩

theorem strictEqual_trans (ha : a.all isDistinct = true) (hb : b.all isDistinct = true)
    (hc : c.all isDistinct = true) (h : strictEqual a b = true) (h' : strictEqual b c = true) :
    strictEqual a c = true := by
  cases a with
  | none =>
    cases b with
    | none => exact h'
    | some v => cases h
  | some u =>
    cases b with
    | none => cases h
    | some v =>
      cases c with
      | none => cases h'
      | some w =>
        rcases strictEqual_iff.1 h with hsame | ⟨m, n, rfl, rfl, hplace⟩
        · rcases strictEqual_iff.1 h' with hsame' | ⟨n, k, rfl, rfl, hplace⟩
          · exact strictEqual_iff.2 (.inl (same_trans ha hb hc hsame hsame'))
          · obtain ⟨m, rfl, hm⟩ := exists_number_of_same (same_symm ha hb hsame)
            exact strictEqual_number.2 ((Number.position_of_same hm).symm.trans hplace)
        · rcases strictEqual_iff.1 h' with hsame' | ⟨n', k, hn, rfl, hplace'⟩
          · obtain ⟨k, rfl, hk⟩ := exists_number_of_same hsame'
            exact strictEqual_number.2 (hplace.trans (Number.position_of_same hk))
          · cases hn
            exact strictEqual_number.2 (hplace.trans hplace')

/-! ## Loose equality -/

/-- A value as it is compared with one of the given kind: beside a number or a text a container
    counts as its text. -/
def beside (kind : Kind) (v : Value) : Value :=
  if v.isContainer && kind.readsText then asText v else v

theorem beside_eq_asText {kind : Kind} {v : Value} (hv : v.isContainer = true)
    (hkind : kind.readsText = true) : beside kind v = asText v := by
  rw [beside, hv, hkind, Bool.and_self, if_pos rfl]

theorem beside_eq_self {kind : Kind} {v : Value} (hkind : kind.readsText = false) :
    beside kind v = v := by
  rw [beside, hkind, Bool.and_false, if_neg Bool.false_ne_true]

theorem isDistinct_beside (kind : Kind) {v : Value} (hv : v.isDistinct = true) :
    (beside kind v).isDistinct = true := by
  rw [beside]
  split
  · rfl
  · exact hv

theorem looseEqualPlain_eq (v w : Value) :
    looseEqualPlain v w =
      if v.kind.meetsAsNumber w.kind then v.toDouble.equal w.toDouble
      else strictEqual (some v) (some w) := by
  cases v <;> cases w <;> rfl

/-- Neither side being `null`, each is compared as it stands beside the other. -/
theorem looseEqual_eq {v w : Value} (hv : v.isNull = false) (hw : w.isNull = false) :
    looseEqual (some v) (some w) = looseEqualPlain (beside w.kind v) (beside v.kind w) := by
  cases v with
  | null => cases hv
  | bool b | number n | text s | array items | object fields =>
    cases w with
    | null => cases hw
    | bool b' | number n' | text s' | array items' | object fields' => rfl

theorem kind_eq_bool_iff {v : Value} : v.kind = .bool ↔ ∃ t, v = bool t := by
  cases v <;> simp [kind]

theorem equal_toDouble_bool (t : Bool) : (bool t).toDouble.equal (bool t).toDouble = true := by
  have hone : (Number.integer 1).toDouble.equal (Number.integer 1).toDouble = true :=
    Number.equal_toDouble_iff.2 rfl
  rw [toDouble]
  cases t with
  | false => rfl
  | true =>
    rw [if_pos rfl, Double.one]
    rwa [Number.toDouble] at hone

theorem looseEqualPlain_comm {v w : Value} (hv : v.isDistinct = true) (hw : w.isDistinct = true) :
    looseEqualPlain w v = looseEqualPlain v w := by
  have hstrict : strictEqual (some w) (some v) = strictEqual (some v) (some w) :=
    strictEqual_comm hv hw
  rw [looseEqualPlain_eq, looseEqualPlain_eq, Kind.meetsAsNumber_comm, Double.equal_comm, hstrict]

/-- Where one side is absent or `null` the other has to be so too. -/
theorem looseEqual_of_isNullish (h : (isNullish a || isNullish b) = true) :
    looseEqual a b = (isNullish a && isNullish b) := by
  cases a with
  | none => cases b <;> rfl
  | some v =>
    cases b with
    | none => rfl
    | some w =>
      rw [isNullish, isNullish] at h
      simp only [looseEqual, isNullish, if_pos h]

theorem looseEqual_comm (ha : a.all isDistinct = true) (hb : b.all isDistinct = true) :
    looseEqual b a = looseEqual a b := by
  cases hnullish : isNullish a || isNullish b with
  | true =>
    rw [looseEqual_of_isNullish hnullish, looseEqual_of_isNullish (by rwa [Bool.or_comm]),
      Bool.and_comm]
  | false =>
    obtain ⟨hnull, hnull'⟩ := Bool.or_eq_false_iff.1 hnullish
    cases a with
    | none => cases hnull
    | some v =>
      cases b with
      | none => cases hnull'
      | some w =>
        rw [looseEqual_eq hnull hnull', looseEqual_eq hnull' hnull]
        exact looseEqualPlain_comm (isDistinct_beside _ ha) (isDistinct_beside _ hb)

/-- Values of one kind are compared as they are. -/
theorem beside_kind (v : Value) : beside v.kind v = v := by
  cases v <;> rfl

/-- Strictly equal values are of one kind, so neither is converted but a truth value. -/
theorem looseEqual_of_strictEqual (h : strictEqual a b = true) : looseEqual a b = true := by
  cases a with
  | none =>
    cases b with
    | none => rfl
    | some w => cases h
  | some v =>
    cases b with
    | none => cases h
    | some w =>
      have hkind := kind_of_strictEqual h
      have hnull := isNull_of_kind hkind
      cases hv : v.isNull with
      | true =>
        have hnullish : (isNullish (some v) || isNullish (some w)) = true := by
          rw [isNullish, hv, Bool.true_or]
        rw [looseEqual_of_isNullish hnullish, isNullish, isNullish, ← hnull, hv, Bool.and_self]
      | false =>
        have hw : w.isNull = false := hnull ▸ hv
        rw [looseEqual_eq hv hw, hkind, beside_kind, ← hkind, beside_kind, looseEqualPlain_eq]
        split
        · rename_i hmeets
          rw [← hkind, Kind.meetsAsNumber_self, kind_eq_bool_iff] at hmeets
          obtain ⟨t, rfl⟩ := hmeets
          obtain rfl : bool t = w := eq_of_same rfl rfl (by rwa [strictEqual_of_not_number rfl] at h)
          exact equal_toDouble_bool t
        · exact h

/-! ## The order -/

/-- The first value comes before the second or ties with it. -/
def AtMost (v w : Value) : Prop :=
  ∃ o, compare? (some v) (some w) = some o ∧ o.isLE = true

theorem atMost_text_iff {s t : String} :
    AtMost (text s) (text t) ↔ (Text.compareText s.toList t.toList).isLE = true := by
  simp [AtMost, compare?]

theorem compare?_number (m n : Number) :
    compare? (some (number m)) (some (number n)) = some (compare m.position n.position) := by
  simp [compare?, toDouble?, toDouble_number, Double.compare?, Number.position?_toDouble]

theorem atMost_number_iff {m n : Number} :
    AtMost (number m) (number n) ↔ m.position ≤ n.position := by
  simp [AtMost, compare?_number, Int.isLE_compare]

theorem isLinearOrder_atMost_text :
    IsLinearOrder String fun s t => AtMost (text s) (text t) where
  refl s := by
    rw [atMost_text_iff, Text.compareText_eq_eq_iff.2 rfl]
    rfl
  trans s t u := by
    rw [atMost_text_iff, atMost_text_iff, atMost_text_iff]
    exact Text.isLE_compareText_trans
  antisymm s t := by
    rw [atMost_text_iff, atMost_text_iff]
    exact fun h h' => String.toList_inj.1 (Text.isLE_compareText_antisymm h h')
  total s t := by
    rw [atMost_text_iff, atMost_text_iff]
    exact Text.isLE_compareText_total s.toList t.toList

theorem isPreorder_atMost_number :
    IsPreorder Number fun m n => AtMost (number m) (number n) where
  refl _ := atMost_number_iff.2 (Int.le_refl _)
  trans _ _ _ h h' :=
    atMost_number_iff.2 (Int.le_trans (atMost_number_iff.1 h) (atMost_number_iff.1 h'))

theorem total_atMost_number : Std.Total fun m n => AtMost (number m) (number n) where
  total m n := by
    rw [atMost_number_iff, atMost_number_iff]
    exact Int.le_total m.position n.position

/-! ## All laws -/

/-- Strict equality is an equivalence that implies loose equality, loose equality is symmetric, and
    the order is reversed by exchanging its sides. Texts are ordered totally, numbers totally up to
    ties, and a tie of two texts or of two numbers is a strict equality. Each object is taken to be
    a map: no key occurs twice in it. -/
theorem equality_and_order_laws (ha : a.all isDistinct = true) (hb : b.all isDistinct = true)
    (hc : c.all isDistinct = true) :
    strictEqual a a = true ∧
    (strictEqual a b = true → strictEqual b a = true) ∧
    (strictEqual a b = true → strictEqual b c = true → strictEqual a c = true) ∧
    (strictEqual a b = true → looseEqual a b = true) ∧
    looseEqual b a = looseEqual a b ∧
    compare? b a = (compare? a b).map Ordering.swap ∧
    (compare? b a = none ↔ compare? a b = none) ∧
    (IsLinearOrder String fun s t => AtMost (text s) (text t)) ∧
    (∀ s t, compare? (some (text s)) (some (text t)) = some .eq ↔
      strictEqual (some (text s)) (some (text t)) = true) ∧
    (IsPreorder Number fun m n => AtMost (number m) (number n)) ∧
    (Std.Total fun m n => AtMost (number m) (number n)) ∧
    ∀ m n, compare? (some (number m)) (some (number n)) = some .eq ↔
      strictEqual (some (number m)) (some (number n)) = true := by
  refine ⟨strictEqual_refl ha, strictEqual_symm ha hb, strictEqual_trans ha hb hc,
    looseEqual_of_strictEqual, looseEqual_comm ha hb, (compare?_swap a b).symm, ?_,
    isLinearOrder_atMost_text, fun s t => ?_, isPreorder_atMost_number, total_atMost_number,
    fun m n => ?_⟩
  · rw [← compare?_swap a b, Option.map_eq_none_iff]
  · rw [compare?, Option.some_inj, Text.compareText_eq_eq_iff, String.toList_inj,
      strictEqual_of_not_number rfl, same, beq_iff_eq]
  · rw [compare?_number, strictEqual_number, Option.some_inj, Std.LawfulEqCmp.compare_eq_iff_eq]

/-- Three orders of the same three keys. -/
theorem equality_and_order_laws_rotated :
    let x := ("x", number (.integer 1))
    let y := ("y", array [null, text "t"])
    let z := ("z", bool true)
    strictEqual (some (object [x, y, z])) (some (object [z, x, y])) = true ∧
      looseEqual (some (object [x, y, z])) (some (object [y, z, x])) = true := by
  intro x y z
  have hxyz : (some (object [x, y, z])).all isDistinct = true := by decide
  have hyzx : (some (object [y, z, x])).all isDistinct = true := by decide
  have hzxy : (some (object [z, x, y])).all isDistinct = true := by decide
  have hfirst : strictEqual (some (object [x, y, z])) (some (object [y, z, x])) = true := by decide
  have hsecond : strictEqual (some (object [y, z, x])) (some (object [z, x, y])) = true := by decide
  obtain ⟨-, -, htrans, hloose, -⟩ := equality_and_order_laws hxyz hyzx hzxy
  exact ⟨htrans hfirst hsecond, hloose hfirst⟩

end Value

end DataBinding
