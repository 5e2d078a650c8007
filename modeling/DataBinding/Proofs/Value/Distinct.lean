import Mathlib.Data.List.Nodup
import Mathlib.Data.List.Perm.Subperm
import DataBinding.Value.Reader
import DataBinding.Proofs.Value.Plain

/-!
# Documents in which no key occurs twice

An object with distinct keys is a map: its fields are the values under its keys. Between documents
all of whose objects are maps, being the same document is an equivalence, and two objects are the
same if they have the same keys and the same document under each.

Results:
* `get?_eq_none_iff`, `get?_eq_some_iff`: objects as maps.
* `isDistinct_set`, `isDistinct_insert`: writes keep keys distinct.
* `induction_parts`: a statement about a container follows from that about its parts.
* `same_array_iff`, `same_object_iff`: the same containers have the same parts.
* `same_refl`, `same_symm`, `same_trans`: an equivalence.
* `isDistinct_of_read?`: in a document that is read no key occurs twice.
-/

namespace DataBinding

namespace Fields

/-! ## Keys -/

/-- The keys, in order. -/
def keys (fields : Fields) : List String := fields.map Prod.fst

theorem get?_eq_none_iff {key : String} {fields : Fields} :
    get? key fields = none ↔ key ∉ keys fields := by
  induction fields with
  | nil => simp [get?, keys]
  | cons f rest ih =>
    rw [get?, keys, List.map_cons, List.mem_cons, not_or]
    split
    · rename_i hk
      exact iff_of_false (by simp) fun h => h.1 hk.symm
    · rename_i hk
      rw [ih]
      exact ⟨fun h => ⟨Ne.symm hk, h⟩, fun h => h.2⟩

theorem exists_get?_iff {key : String} {fields : Fields} :
    (∃ v, get? key fields = some v) ↔ key ∈ keys fields := by
  rw [← Option.isSome_iff_exists, Option.isSome_iff_ne_none, ne_eq, get?_eq_none_iff, not_not]

theorem get?_eq_some_iff {fields : Fields} (h : (keys fields).Nodup) {f : String × Value} :
    get? f.1 fields = some f.2 ↔ f ∈ fields := by
  refine ⟨fun hf => mem_of_get?_eq_some hf, fun hf => ?_⟩
  induction fields with
  | nil => cases hf
  | cons g rest ih =>
    obtain ⟨hg, hrest⟩ := List.nodup_cons.1 h
    rcases List.mem_cons.1 hf with rfl | hf
    · rw [get?, if_pos rfl]
    · have hne : g.1 ≠ f.1 := fun heq => hg (heq ▸ List.mem_map_of_mem hf)
      rw [get?, if_neg hne, ih hrest hf]

/-- A key that is written again keeps its place. -/
theorem keys_insert (key : String) (v : Value) (fields : Fields) :
    keys (insert key v fields) =
      if key ∈ keys fields then keys fields else keys fields ++ [key] := by
  induction fields with
  | nil => rfl
  | cons f rest ih =>
    obtain ⟨k, w⟩ := f
    by_cases hk : k = key
    · simp [insert, keys, hk]
    · rw [insert, if_neg hk, keys, List.map_cons]
      have hmem : key ∈ keys ((k, w) :: rest) ↔ key ∈ keys rest := by
        simp [keys, Ne.symm hk]
      rw [← keys, ih]
      by_cases hrest : key ∈ keys rest
      · rw [if_pos hrest, if_pos (hmem.2 hrest)]
        rfl
      · rw [if_neg hrest, if_neg (mt hmem.1 hrest)]
        rfl

theorem nodup_keys_insert {key : String} {v : Value} {fields : Fields}
    (h : (keys fields).Nodup) : (keys (insert key v fields)).Nodup := by
  rw [keys_insert]
  split
  · exact h
  · rename_i hkey
    rw [← List.concat_eq_append]
    exact List.Nodup.concat hkey h

theorem mem_insert {key : String} {v : Value} {fields : Fields} {f : String × Value}
    (h : f ∈ insert key v fields) : f = (key, v) ∨ f ∈ fields := by
  induction fields with
  | nil => exact .inl (List.mem_singleton.1 h)
  | cons g rest ih =>
    rw [insert] at h
    split at h
    · rcases List.mem_cons.1 h with rfl | h
      · rename_i hkey
        exact .inl (by rw [hkey])
      · exact .inr (List.mem_cons_of_mem g h)
    · rcases List.mem_cons.1 h with rfl | h
      · exact .inr List.mem_cons_self
      · exact (ih h).imp_right (List.mem_cons_of_mem g)

end Fields

namespace Number

theorem same_refl (n : Number) : n.same n = true := by
  cases n <;> simp [same]

theorem same_trans {k m n : Number} (h : k.same m = true) (h' : m.same n = true) :
    k.same n = true := by
  cases k <;> cases m <;> cases n <;> simp_all [same]

end Number

open Fields (keys)

namespace Value

mutual

/-- In no object of the value, at any depth, a key occurs twice. -/
def isDistinct : Value → Bool
  | array items => isDistinctItems items
  | object fields => decide (keys fields).Nodup && isDistinctFields fields
  | _ => true

def isDistinctItems : List Value → Bool
  | [] => true
  | v :: rest => isDistinct v && isDistinctItems rest

def isDistinctFields : Fields → Bool
  | [] => true
  | (_, v) :: rest => isDistinct v && isDistinctFields rest

end

theorem isDistinct_array {items : List Value} :
    (array items).isDistinct = true ↔ ∀ v ∈ items, v.isDistinct = true := by
  rw [isDistinct]
  induction items with
  | nil => simp [isDistinctItems]
  | cons v rest ih => simp [isDistinctItems, ih]

theorem isDistinct_object {fields : Fields} :
    (object fields).isDistinct = true ↔
      (keys fields).Nodup ∧ ∀ f ∈ fields, f.2.isDistinct = true := by
  have hfields : isDistinctFields fields = true ↔ ∀ f ∈ fields, f.2.isDistinct = true := by
    induction fields with
    | nil => simp [isDistinctFields]
    | cons f rest ih => simp [isDistinctFields, ih]
  rw [isDistinct, Bool.and_eq_true, decide_eq_true_iff, hfields]

theorem isDistinct_set {items : List Value} {i : Nat} {v : Value}
    (h : (array items).isDistinct = true) (hv : v.isDistinct = true) :
    (array (items.set i v)).isDistinct = true := by
  rw [isDistinct_array] at h ⊢
  intro item hitem
  rcases List.mem_or_eq_of_mem_set hitem with hitem | rfl
  · exact h item hitem
  · exact hv

theorem isDistinct_insert {key : String} {v : Value} {fields : Fields}
    (h : (object fields).isDistinct = true) (hv : v.isDistinct = true) :
    (object (Fields.insert key v fields)).isDistinct = true := by
  obtain ⟨hkeys, hparts⟩ := isDistinct_object.1 h
  refine isDistinct_object.2 ⟨Fields.nodup_keys_insert hkeys, fun f hf => ?_⟩
  rcases Fields.mem_insert hf with rfl | hf
  · exact hv
  · exact hparts f hf

/-! ## Induction on parts -/

/-- A statement holds of every value if it holds of those without parts, and of each container whose
    parts it holds of. -/
@[elab_as_elim]
theorem induction_parts {motive : Value → Prop}
    (scalar : ∀ v, v.isContainer = false → motive v)
    (array : ∀ items, (∀ v ∈ items, motive v) → motive (array items))
    (object : ∀ fields : Fields, (∀ f ∈ fields, motive f.2) → motive (object fields)) :
    ∀ v, motive v
  | .null => scalar .null rfl
  | .bool b => scalar (.bool b) rfl
  | .number n => scalar (.number n) rfl
  | .text s => scalar (.text s) rfl
  | .array items => array items fun v hv =>
    have := List.sizeOf_lt_of_mem hv
    induction_parts scalar array object v
  | .object fields => object fields fun f hf =>
    have := List.sizeOf_lt_of_mem hf
    induction_parts scalar array object f.2
termination_by v => sizeOf v
decreasing_by
  · simp only [Value.array.sizeOf_spec]
    omega
  · obtain ⟨k, v⟩ := f
    simp only [Prod.mk.sizeOf_spec] at this
    simp only [Value.object.sizeOf_spec]
    omega

/-! ## The same parts -/

/-- `null`, a truth value and a text are the same as themselves only. -/
theorem eq_of_same {v w : Value} (hc : v.isContainer = false) (hn : v.number? = none)
    (h : same v w = true) : v = w := by
  cases v with
  | array items | object fields => cases hc
  | number n => cases hn
  | null | bool b | text s => cases w <;> simp_all [same]

theorem exists_number_of_same {n : Number} {w : Value} (h : same (number n) w = true) :
    ∃ k, w = number k ∧ n.same k = true := by
  cases w with
  | number k => exact ⟨k, rfl, h⟩
  | null | bool b | text s | array items | object fields => cases h

theorem exists_array_of_same {as : List Value} {w : Value} (h : same (array as) w = true) :
    ∃ bs, w = array bs := by
  cases w with
  | array bs => exact ⟨bs, rfl⟩
  | null | bool b | number n | text s | object fields => simp [same] at h

theorem exists_object_of_same {as : Fields} {w : Value} (h : same (object as) w = true) :
    ∃ bs, w = object bs := by
  cases w with
  | object bs => exact ⟨bs, rfl⟩
  | null | bool b | number n | text s | array items => simp [same] at h

theorem same_array_iff {as bs : List Value} :
    same (array as) (array bs) = true ↔
      as.length = bs.length ∧
        ∀ (i : Nat) (ha : i < as.length) (hb : i < bs.length), same as[i] bs[i] = true := by
  rw [same]
  induction as generalizing bs with
  | nil => cases bs <;> simp [sameItems]
  | cons a as ih =>
    cases bs with
    | nil => simp [sameItems]
    | cons b bs =>
      rw [sameItems, Bool.and_eq_true, ih]
      constructor
      · rintro ⟨hhead, hlength, htail⟩
        refine ⟨by simpa using hlength, fun i ha hb => ?_⟩
        cases i with
        | zero => exact hhead
        | succ i => exact htail i (by simpa using ha) (by simpa using hb)
      · rintro ⟨hlength, hall⟩
        exact ⟨hall 0 (by simp) (by simp), by simpa using hlength, fun i ha hb =>
          hall (i + 1) (by simpa using ha) (by simpa using hb)⟩

theorem sameFields_iff {as bs : Fields} :
    sameFields as bs = true ↔
      ∀ f ∈ as, ∃ b, Fields.get? f.1 bs = some b ∧ same f.2 b = true := by
  induction as with
  | nil => simp [sameFields]
  | cons f rest ih => simp [sameFields, ih, Option.any_eq_true]

/-- As many keys, each of which the other object has too, are the same keys. -/
theorem same_object_iff {as bs : Fields} (ha : (keys as).Nodup) (hb : (keys bs).Nodup) :
    same (object as) (object bs) = true ↔
      (∀ key, key ∈ keys as ↔ key ∈ keys bs) ∧
        ∀ key a b, Fields.get? key as = some a → Fields.get? key bs = some b →
          same a b = true := by
  rw [same, Bool.and_eq_true, beq_iff_eq, sameFields_iff]
  constructor
  · rintro ⟨hlength, hfields⟩
    have hsubset : keys as ⊆ keys bs := by
      intro key hkey
      obtain ⟨f, hf, rfl⟩ := List.mem_map.1 hkey
      obtain ⟨b, hget, -⟩ := hfields f hf
      exact Fields.exists_get?_iff.1 ⟨b, hget⟩
    have hperm : (keys as).Perm (keys bs) :=
      (List.subperm_of_subset ha hsubset).perm_of_length_le (by simp [keys, hlength])
    refine ⟨fun key => hperm.mem_iff, fun key a b hget hget' => ?_⟩
    obtain ⟨found, hfound, hsame⟩ := hfields (key, a) (Fields.mem_of_get?_eq_some hget)
    rw [hget'] at hfound
    rw [Option.some.inj hfound]
    exact hsame
  · rintro ⟨hkeys, hvalues⟩
    have hperm : (keys as).Perm (keys bs) := (List.perm_ext_iff_of_nodup ha hb).2 hkeys
    refine ⟨by simpa [keys] using hperm.length_eq, fun f hf => ?_⟩
    obtain ⟨b, hget⟩ := Fields.exists_get?_iff.2 ((hkeys f.1).1 (List.mem_map_of_mem hf))
    exact ⟨b, hget, hvalues f.1 f.2 b ((Fields.get?_eq_some_iff ha).2 hf) hget⟩

/-! ## An equivalence -/

theorem same_refl {v : Value} (h : v.isDistinct = true) : same v v = true := by
  induction v using induction_parts with
  | scalar v hv =>
    cases v with
    | array items | object fields => cases hv
    | number n => rw [same, Number.same_refl]
    | null | bool b | text s => simp [same]
  | array items ih =>
    rw [isDistinct_array] at h
    exact same_array_iff.2 ⟨rfl, fun i hi _ =>
      ih items[i] (List.getElem_mem hi) (h _ (List.getElem_mem hi))⟩
  | object fields ih =>
    obtain ⟨hkeys, hparts⟩ := isDistinct_object.1 h
    refine (same_object_iff hkeys hkeys).2 ⟨fun key => Iff.rfl, fun key a b hget hget' => ?_⟩
    rw [hget] at hget'
    rw [← Option.some.inj hget']
    have hmem := Fields.mem_of_get?_eq_some hget
    exact ih _ hmem (hparts _ hmem)

theorem same_symm {v w : Value} (hv : v.isDistinct = true) (hw : w.isDistinct = true)
    (h : same v w = true) : same w v = true := by
  induction v using induction_parts generalizing w with
  | scalar v hscalar =>
    cases v with
    | array items | object fields => cases hscalar
    | number n =>
      obtain ⟨k, rfl, hk⟩ := exists_number_of_same h
      rwa [same, Number.same_comm]
    | null | bool b | text s =>
      obtain rfl := eq_of_same rfl rfl h
      exact h
  | array items ih =>
    obtain ⟨others, rfl⟩ := exists_array_of_same h
    rw [isDistinct_array] at hv hw
    obtain ⟨hlength, hall⟩ := same_array_iff.1 h
    exact same_array_iff.2 ⟨hlength.symm, fun i hi hj =>
      ih _ (List.getElem_mem hj) (hv _ (List.getElem_mem hj)) (hw _ (List.getElem_mem hi))
        (hall i hj hi)⟩
  | object fields ih =>
    obtain ⟨others, rfl⟩ := exists_object_of_same h
    obtain ⟨hkeys, hparts⟩ := isDistinct_object.1 hv
    obtain ⟨hkeys', hparts'⟩ := isDistinct_object.1 hw
    obtain ⟨hiff, hvalues⟩ := (same_object_iff hkeys hkeys').1 h
    refine (same_object_iff hkeys' hkeys).2 ⟨fun key => (hiff key).symm, ?_⟩
    intro key b a hb ha
    have hmem := Fields.mem_of_get?_eq_some ha
    exact ih _ hmem (hparts _ hmem) (hparts' _ (Fields.mem_of_get?_eq_some hb))
      (hvalues key a b ha hb)

theorem same_trans {u v w : Value} (hu : u.isDistinct = true) (hv : v.isDistinct = true)
    (hw : w.isDistinct = true) (h : same u v = true) (h' : same v w = true) :
    same u w = true := by
  induction u using induction_parts generalizing v w with
  | scalar u hscalar =>
    cases u with
    | array items | object fields => cases hscalar
    | number n =>
      obtain ⟨m, rfl, hm⟩ := exists_number_of_same h
      obtain ⟨k, rfl, hk⟩ := exists_number_of_same h'
      exact Number.same_trans hm hk
    | null | bool b | text s =>
      obtain rfl := eq_of_same rfl rfl h
      exact h'
  | array items ih =>
    obtain ⟨others, rfl⟩ := exists_array_of_same h
    obtain ⟨thirds, rfl⟩ := exists_array_of_same h'
    rw [isDistinct_array] at hu hv hw
    obtain ⟨hlength, hall⟩ := same_array_iff.1 h
    obtain ⟨hlength', hall'⟩ := same_array_iff.1 h'
    refine same_array_iff.2 ⟨hlength.trans hlength', fun i hi hk => ?_⟩
    have hj : i < others.length := hlength ▸ hi
    exact ih _ (List.getElem_mem hi) (hu _ (List.getElem_mem hi)) (hv _ (List.getElem_mem hj))
      (hw _ (List.getElem_mem hk)) (hall i hi hj) (hall' i hj hk)
  | object fields ih =>
    obtain ⟨others, rfl⟩ := exists_object_of_same h
    obtain ⟨thirds, rfl⟩ := exists_object_of_same h'
    obtain ⟨hkeys, hparts⟩ := isDistinct_object.1 hu
    obtain ⟨hkeys', hparts'⟩ := isDistinct_object.1 hv
    obtain ⟨hkeys'', hparts''⟩ := isDistinct_object.1 hw
    obtain ⟨hiff, hvalues⟩ := (same_object_iff hkeys hkeys').1 h
    obtain ⟨hiff', hvalues'⟩ := (same_object_iff hkeys' hkeys'').1 h'
    refine (same_object_iff hkeys hkeys'').2 ⟨fun key => (hiff key).trans (hiff' key), ?_⟩
    intro key a c ha hc
    -- a key that both ends have is a key of the object between
    obtain ⟨b, hb⟩ := Fields.exists_get?_iff.2 ((hiff key).1 (Fields.exists_get?_iff.1 ⟨a, ha⟩))
    have hmem := Fields.mem_of_get?_eq_some ha
    exact ih _ hmem (hparts _ hmem) (hparts' _ (Fields.mem_of_get?_eq_some hb))
      (hparts'' _ (Fields.mem_of_get?_eq_some hc)) (hvalues key a b ha hb) (hvalues' key b c hb hc)

/-! ## Documents that are read -/

/-- What the reader of elements gives is distinct. -/
def ReadsDistinct (element : List Char → Option (Value × List Char)) : Prop :=
  ∀ cs v rest, element cs = some (v, rest) → v.isDistinct = true

theorem isDistinct_of_readItems? {element : List Char → Option (Value × List Char)}
    (helement : ReadsDistinct element) {fuel : Nat} {cs rest : List Char} {items : List Value}
    (h : readItems? element fuel cs = some (items, rest)) : (array items).isDistinct = true := by
  induction fuel generalizing cs items with
  | zero => cases h
  | succ fuel ih =>
    obtain ⟨⟨v, cs'⟩, hv, h⟩ := Option.bind_eq_some_iff.1 h
    dsimp only at h
    rw [isDistinct_array]
    split at h
    · obtain ⟨⟨more, rest'⟩, hmore, h⟩ := Option.bind_eq_some_iff.1 h
      cases h
      exact List.forall_mem_cons.2 ⟨helement _ _ _ hv, isDistinct_array.1 (ih hmore)⟩
    · cases h
      exact List.forall_mem_singleton.2 (helement _ _ _ hv)
    · cases h

theorem isDistinct_of_readFields? {element : List Char → Option (Value × List Char)}
    (helement : ReadsDistinct element) {length fuel : Nat} {before fields : Fields}
    {cs rest : List Char} (hbefore : (object before).isDistinct = true)
    (h : readFields? element length fuel before cs = some (fields, rest)) :
    (object fields).isDistinct = true := by
  induction fuel generalizing before cs with
  | zero => cases h
  | succ fuel ih =>
    rw [readFields?] at h
    split at h
    · obtain ⟨⟨key, cs'⟩, -, h⟩ := Option.bind_eq_some_iff.1 h
      dsimp only at h
      split at h
      · obtain ⟨⟨v, cs''⟩, hv, h⟩ := Option.bind_eq_some_iff.1 h
        dsimp only at h
        have hinsert : (object (Fields.insert (String.ofList key) v before)).isDistinct = true :=
          isDistinct_insert hbefore (helement _ _ _ hv)
        split at h
        · exact ih hinsert h
        · cases h
          exact hinsert
        · cases h
      · cases h
    · cases h

theorem readsDistinct_readAt? (length depth : Nat) : ReadsDistinct (readAt? length depth) := by
  induction depth using Nat.strongRecOn with
  | ind depth ih =>
    intro cs v rest h
    rw [readAt?] at h
    -- the three words, a text, an array, an object and a number, as the reader tries them
    split at h
    · cases h
      rfl
    · cases h
      rfl
    · cases h
      rfl
    · obtain ⟨s, -, h⟩ := Option.map_eq_some_iff.1 h
      cases h
      rfl
    · split at h
      · cases h
      · split at h
        · cases h
          rfl
        · obtain ⟨items, hitems, h⟩ := Option.map_eq_some_iff.1 h
          cases h
          exact isDistinct_of_readItems? (ih _ (Nat.lt_succ_self _)) hitems
    · split at h
      · cases h
      · split at h
        · cases h
          rfl
        · obtain ⟨fields, hfields, h⟩ := Option.map_eq_some_iff.1 h
          cases h
          exact isDistinct_of_readFields? (ih _ (Nat.lt_succ_self _)) rfl hfields
    · obtain ⟨n, -, h⟩ := Option.map_eq_some_iff.1 h
      cases h
      rfl

/-- Whatever is read has distinct keys: a key written again takes the later value. -/
theorem isDistinct_of_read? {cs : List Char} {v : Value} (h : read? cs = some v) :
    v.isDistinct = true := by
  obtain ⟨⟨w, rest⟩, hw, h⟩ := Option.bind_eq_some_iff.1 h
  dsimp only at h
  split at h
  · cases h
    exact readsDistinct_readAt? _ _ _ _ _ hw
  · cases h

end Value

end DataBinding
