import DataBinding.Engine.Resolve
import DataBinding.Proofs.Eval.Plain

/-!
# Rendered trees

Resolving the bindings of a tree leaves none, and resolving them again changes nothing, whatever
the surroundings are by then: data never turns into a binding. This needs the data to be plain, and
it needs that no object becomes a binding when the field under `reference` gets its value.

Results:
* `all_isPlain_resolveBinding`: in plain surroundings a binding has a plain value.
* `isPlain_resolveTree`: a renderable tree is plain once it is rendered.
* `resolveTree_of_isPlain`: a plain tree stays as it is.
* `resolveTree_settles`: so rendering twice is rendering once.
-/

namespace DataBinding

open Value

/-! ## Surroundings and trees -/

/-- The context and the items of all frames are plain. -/
def Surroundings.isPlain (around : Surroundings) : Bool :=
  around.context.isPlain && around.frames.all fun frame => frame.item.isPlain

theorem Surroundings.isPlain_iff {around : Surroundings} :
    around.isPlain = true ↔
      around.context.isPlain = true ∧ ∀ frame ∈ around.frames, frame.item.isPlain = true := by
  rw [isPlain, Bool.and_eq_true, List.all_eq_true]

namespace Value

mutual

/-- Each binding of the tree falls back to a plain value, and no other object has a binding under
    `reference`, whose value could make a binding of the object. -/
def isRenderable : Value → Bool
  | array items => isRenderableItems items
  | object fields =>
    match Binding.ofFields? fields with
    | some b => b.value.all isPlain
    | none =>
      ((Fields.get? "reference" fields).bind Binding.ofValue?).isNone && isRenderableFields fields
  | _ => true

def isRenderableItems : List Value → Bool
  | [] => true
  | v :: rest => isRenderable v && isRenderableItems rest

def isRenderableFields : Fields → Bool
  | [] => true
  | (_, v) :: rest => isRenderable v && isRenderableFields rest

end

theorem isRenderable_of_ofValue? {v : Value} {b : Binding} (h : Binding.ofValue? v = some b) :
    v.isRenderable = b.value.all isPlain := by
  cases v with
  | object fields =>
    rw [Binding.ofValue?] at h
    rw [isRenderable, h]
  | null | bool b | number n | text s | array items => cases h

end Value

theorem Binding.ofFields?_eq_none_iff {fields : Fields} :
    ofFields? fields = none ↔ ∀ s, Fields.get? "reference" fields ≠ some (.text s) := by
  unfold ofFields?
  split
  · rename_i s hs
    simp [hs]
  · rename_i h
    simpa using h

/-! ## Bindings -/

namespace Frame

theorem all_isPlain_find? {frame : Frame} (h : frame.item.isPlain = true) {default path : String}
    {r : Option Value} (hr : frame.find? default path = some r) : r.all isPlain = true := by
  simp only [find?] at hr
  split at hr
  · -- the item
    rw [← Option.some.inj hr]
    exact h
  split at hr
  · -- a part of the item
    rw [← Option.some.inj hr]
    exact Path.all_isPlain_get? h _
  -- numbers
  split at hr
  · obtain ⟨n, -, hn⟩ := Option.map_eq_some_iff.1 hr
    rw [← hn]
    rfl
  split at hr
  · obtain ⟨n, -, hn⟩ := Option.map_eq_some_iff.1 hr
    rw [← hn]
    rfl
  · cases hr

theorem all_isPlain_lookup? {frames : List Frame}
    (h : ∀ frame ∈ frames, frame.item.isPlain = true) {default path : String} {r : Option Value}
    (hr : lookup? default frames path = some r) : r.all isPlain = true := by
  rw [lookup?] at hr
  split at hr
  · cases hr
  · obtain ⟨frame, hmem, hfind⟩ := List.exists_of_findSome?_eq_some hr
    exact all_isPlain_find? (h frame (List.mem_reverse.1 hmem)) hfind

end Frame

namespace Engine

variable (engine : Engine) {around : Surroundings} (h : around.isPlain = true)

section Plain

include h

theorem all_isPlain_evaluate (input : List Char) :
    (engine.evaluate around input).all isPlain = true := by
  obtain ⟨hcontext, hitems⟩ := Surroundings.isPlain_iff.1 h
  exact Environment.all_isPlain_evaluate (Scope.plain_ofFrames hcontext hitems _) input

variable {b : Binding} (hb : b.value.all isPlain = true) {fallback : Option Value}
  (hf : fallback.all isPlain = true)
include hb hf

theorem all_isPlain_resolvePath (path : List Char) :
    (engine.resolvePath around b fallback path).all isPlain = true := by
  have hget := Path.all_isPlain_get? (Surroundings.isPlain_iff.1 h).1 (String.ofList path)
  rw [resolvePath]
  split
  · split
    · exact hb
    · rfl
  · rename_i v _ hv
    rw [hv] at hget
    exact hget
  · exact all_isPlain_or hb hf

theorem all_isPlain_resolveSingle (reference : List Char) :
    (engine.resolveSingle around b fallback reference).all isPlain = true := by
  have hpath := all_isPlain_resolvePath engine h hb hf reference
  obtain ⟨-, hitems⟩ := Surroundings.isPlain_iff.1 h
  rw [resolveSingle]
  split
  · -- an expression, or a path that looks like one
    exact all_isPlain_or (all_isPlain_evaluate engine h reference) hpath
  split
  · rename_i v hlookup
    exact Frame.all_isPlain_lookup? hitems hlookup
  · -- a frame knows the path, and its item lacks the part
    exact all_isPlain_or hb hf
  split
  · -- the empty reference
    rename_i frame hframe
    split at hframe
    · exact hitems frame (List.mem_of_getLast? hframe)
    · cases hframe
  · exact hpath

/-- A binding with a plain fallback has a plain value: templates give texts, and frames,
    expressions and paths only reach what is plain. -/
theorem all_isPlain_resolveBinding :
    (engine.resolveBinding around fallback b).all isPlain = true := by
  rw [resolveBinding]
  split
  · rfl
  · exact all_isPlain_resolveSingle engine h hb hf _

end Plain

/-! ## Displayed lists -/

theorem isPlain_project {items : List Value} (h : (array items).isPlain = true) (path : String) :
    (array (project path items)).isPlain = true := by
  rw [isPlain_array] at h ⊢
  intro v hv
  obtain ⟨item, hmem, rfl⟩ := List.mem_map.1 hv
  have hitem := h item hmem
  split
  · exact isPlain_getD_null (Path.all_isPlain_get? hitem path)
  · exact hitem

theorem isPlain_displayed {v : Value} (h : v.isPlain = true) (key : String)
    (displayPath : Option String) : (displayed key displayPath v).isPlain = true := by
  unfold displayed
  split
  · split
    · exact isPlain_project h _
    · exact h
  · exact h

/-! ## Trees -/

/-- Only a text or a binding can be rendered as a text. -/
theorem eq_text_of_resolveTree {v : Value} (hb : Binding.ofValue? v = none) {s : String}
    (h : engine.resolveTree around v = .text s) : v = .text s := by
  cases v with
  | object fields =>
    rw [Binding.ofValue?] at hb
    rw [resolveTree, hb] at h
    cases h
  | array items =>
    rw [resolveTree] at h
    cases h
  | null | bool b | number n | text t => exact h

/-- An object that is no binding does not become one: what is under `reference` is no text before,
    and no binding that could give one. -/
theorem ofFields?_resolveFields {fields : Fields} (hb : Binding.ofFields? fields = none)
    (hr : (Fields.get? "reference" fields).bind Binding.ofValue? = none)
    (displayPath : Option String) :
    Binding.ofFields? (engine.resolveFields around displayPath fields) = none := by
  rw [Binding.ofFields?_eq_none_iff] at hb ⊢
  induction fields with
  | nil =>
    intro s hs
    cases hs
  | cons f rest ih =>
    obtain ⟨key, v⟩ := f
    by_cases hk : key = "reference"
    · -- the first field under this key is the one that counts, and it is kept
      simp only [Fields.get?, if_pos hk, Option.bind_some] at hb hr
      intro s hs
      simp only [resolveFields, hr, Fields.get?, if_pos hk] at hs
      exact hb s (congrArg some (eq_text_of_resolveTree engine hr (Option.some.inj hs)))
    · simp only [Fields.get?, if_neg hk] at hb hr
      have hrest := ih hb hr
      rw [resolveFields]
      split
      · split
        · simp only [Fields.get?, if_neg hk]
          exact hrest
        · exact hrest
      · simp only [Fields.get?, if_neg hk]
        exact hrest

mutual

theorem isPlain_resolveTree (h : around.isPlain = true) :
    ∀ tree : Value, tree.isRenderable = true → (engine.resolveTree around tree).isPlain = true
  | .object fields, ht => by
    rw [isRenderable.eq_def] at ht
    rw [resolveTree]
    cases hb : Binding.ofFields? fields with
    | some b =>
      simp only [hb] at ht
      exact isPlain_getD_null (all_isPlain_resolveBinding engine h ht rfl)
    | none =>
      simp only [hb, Bool.and_eq_true, Option.isNone_iff_eq_none] at ht
      rw [isPlain_object]
      exact ⟨ofFields?_resolveFields engine hb ht.1 _, isPlain_resolveFields h _ fields ht.2⟩
  | .array items, ht => by
    rw [isRenderable] at ht
    rw [resolveTree, isPlain_array]
    exact isPlain_resolveItems h items ht
  | .null, _ | .bool _, _ | .number _, _ | .text _, _ => rfl

theorem isPlain_resolveItems (h : around.isPlain = true) :
    ∀ items : List Value, isRenderableItems items = true →
      ∀ v ∈ engine.resolveItems around items, v.isPlain = true
  | [], _ => by
    intro v hv
    cases hv
  | item :: rest, ht => by
    simp only [isRenderableItems, Bool.and_eq_true] at ht
    rw [resolveItems]
    exact List.forall_mem_cons.2
      ⟨isPlain_resolveTree h item ht.1, isPlain_resolveItems h rest ht.2⟩

theorem isPlain_resolveFields (h : around.isPlain = true) (displayPath : Option String) :
    ∀ fields : Fields, isRenderableFields fields = true →
      ∀ f ∈ engine.resolveFields around displayPath fields, f.2.isPlain = true
  | [], _ => by
    intro f hf
    cases hf
  | (key, v) :: rest, ht => by
    simp only [isRenderableFields, Bool.and_eq_true] at ht
    have hrest := isPlain_resolveFields h displayPath rest ht.2
    rw [resolveFields]
    cases hb : Binding.ofValue? v with
    | some b =>
      rw [isRenderable_of_ofValue? hb] at ht
      have hw : (engine.resolveBinding around none b).all isPlain = true :=
        all_isPlain_resolveBinding engine h ht.1 rfl
      cases hr : engine.resolveBinding around none b with
      | none =>
        simp only [hr]
        exact hrest
      | some w =>
        rw [hr] at hw
        simp only [hr]
        rw [List.forall_mem_cons]
        exact ⟨isPlain_displayed hw key displayPath, hrest⟩
    | none =>
      rw [List.forall_mem_cons]
      exact ⟨isPlain_resolveTree h v ht.1, hrest⟩

end

/-! ## Trees without bindings -/

variable (around)

mutual

theorem resolveTree_of_isPlain :
    ∀ tree : Value, tree.isPlain = true → engine.resolveTree around tree = tree
  | .object fields, h => by
    obtain ⟨hb, -⟩ := isPlain_object.1 h
    rw [isPlain, Bool.and_eq_true] at h
    rw [resolveTree, hb]
    exact congrArg Value.object (resolveFields_of_isPlain _ fields h.2)
  | .array items, h => by
    rw [isPlain] at h
    rw [resolveTree, resolveItems_of_isPlain items h]
  | .null, _ | .bool _, _ | .number _, _ | .text _, _ => rfl

theorem resolveItems_of_isPlain :
    ∀ items : List Value, isPlainItems items = true → engine.resolveItems around items = items
  | [], _ => rfl
  | v :: rest, h => by
    simp only [isPlainItems, Bool.and_eq_true] at h
    rw [resolveItems, resolveTree_of_isPlain v h.1, resolveItems_of_isPlain rest h.2]

theorem resolveFields_of_isPlain (displayPath : Option String) :
    ∀ fields : Fields, isPlainFields fields = true →
      engine.resolveFields around displayPath fields = fields
  | [], _ => rfl
  | (key, v) :: rest, h => by
    simp only [isPlainFields, Bool.and_eq_true] at h
    rw [resolveFields, ofValue?_of_isPlain h.1]
    simp only [resolveTree_of_isPlain v h.1, resolveFields_of_isPlain displayPath rest h.2]

end

/-- A plain tree stays as it is. In plain surroundings a renderable tree becomes plain, and then
    no engine changes it any more, whatever it is rendered against. -/
theorem resolveTree_settles (tree : Value) :
    (tree.isPlain = true → engine.resolveTree around tree = tree) ∧
      (around.isPlain = true → tree.isRenderable = true →
        (engine.resolveTree around tree).isPlain = true ∧
          ∀ (other : Engine) (later : Surroundings),
            other.resolveTree later (engine.resolveTree around tree) =
              engine.resolveTree around tree) := by
  refine ⟨resolveTree_of_isPlain engine around tree, fun h ht => ?_⟩
  have hplain := isPlain_resolveTree engine h tree ht
  exact ⟨hplain, fun other later => resolveTree_of_isPlain other later _ hplain⟩

/-- A projected list, a function that takes an object apart, an array fallback and a binding
    without a value, beside a field `reference` that is no text. -/
theorem resolveTree_settles_page :
    let around : Surroundings :=
      ⟨.object [("goods", .array [.object [("name", .text "tea"), ("price", .ofNat 2)]])],
        [⟨"row", .object [("tags", .array [.text "new"])], some 0, none⟩]⟩
    let page : Value := .object
      [("list", .object [("items", Binding.toValue ⟨"goods", none⟩), ("displayPath", .text "name")]),
        ("tags", .array [Binding.toValue ⟨"Object.values(row)", none⟩]),
        ("rest", Binding.toValue ⟨"none", some (.array [.object [("reference", .null)]])⟩),
        ("gone", Binding.toValue ⟨"none", none⟩),
        ("reference", .array [Binding.toValue ⟨"${goods.length} ${row.tags}", none⟩])]
    (Engine.default.resolveTree around page).isPlain = true ∧
      ∀ (other : Engine) (later : Surroundings),
        other.resolveTree later (Engine.default.resolveTree around page) =
          Engine.default.resolveTree around page :=
  (resolveTree_settles Engine.default _ _).2 rfl rfl

end Engine

end DataBinding
