import DataBinding.Engine.Resolve

/-!
# Fallbacks

What a binding falls back to plays no part until everything else has failed. The reference alone
says what is found, together with the array or object that the binding may prefer to empty text;
only where nothing is found does the binding's own value count, and only without that the fallback
of the caller.

Results:
* `exists_found_path`, `exists_found_single`, `exists_found`: what is found, exit by exit.
* `resolve_of_binding`: the value of a property that is a binding.
* `resolve_last_resort`: the fallback of the caller, the own value of the binding, and what depends
  on them.
-/

namespace DataBinding

/-- The binding's own value, if it is an array or an object. -/
def Binding.structural? (b : Binding) : Option Value := b.value.filter Value.isContainer

theorem Binding.value_of_structural? {b : Binding} {v : Value} (h : b.structural? = some v) :
    b.value = some v ∧ b.hasStructuralFallback = true := by
  obtain ⟨hvalue, hcontainer⟩ := Option.filter_eq_some_iff.1 h
  exact ⟨hvalue, by rw [hasStructuralFallback, hvalue]; exact hcontainer⟩

theorem Binding.hasStructuralFallback_of_structural? {b : Binding} (h : b.structural? = none) :
    b.hasStructuralFallback = false := by
  unfold structural? at h
  unfold hasStructuralFallback
  cases hvalue : b.value with
  | none => rfl
  | some v =>
    rw [hvalue] at h
    simpa using h

namespace Engine

variable (engine : Engine) (around : Surroundings)

/-! ## What is found -/

section Found

variable (structural : Option Value)

theorem exists_found_path (path : List Char) : ∃ found : Option Value, ∀ b fallback,
    b.structural? = structural →
      engine.resolvePath around b fallback path = found.or (b.fallbackOr fallback) := by
  unfold resolvePath
  cases hget : Path.get? (String.ofList path) around.context with
  | none => exact ⟨none, fun b fallback _ => rfl⟩
  | some v =>
    cases v with
    | text s =>
      by_cases hempty : (engine.config.preferStructuralFallback && s.isEmpty) = true
      · -- empty text gives way to an array or an object
        refine ⟨structural.or (some (.text s)), fun b fallback hb => ?_⟩
        cases structural with
        | none =>
          have hnone := Binding.hasStructuralFallback_of_structural? hb
          simp only [hnone, Bool.and_false, Bool.false_eq_true, if_false]
          rfl
        | some w =>
          obtain ⟨hvalue, hstructural⟩ := Binding.value_of_structural? hb
          simp only [hempty, hstructural, Bool.and_true, if_true, hvalue]
          rfl
      · refine ⟨some (.text s), fun b fallback _ => ?_⟩
        rw [Bool.not_eq_true] at hempty
        simp only [hempty, Bool.false_and, Bool.false_eq_true, if_false]
        rfl
    | null | bool b | number n | array items | object fields =>
      exact ⟨some _, fun b fallback _ => rfl⟩

theorem exists_found_single (reference : List Char) : ∃ found : Option Value, ∀ b fallback,
    b.structural? = structural →
      engine.resolveSingle around b fallback reference = found.or (b.fallbackOr fallback) := by
  obtain ⟨foundPath, hpath⟩ := engine.exists_found_path around structural reference
  unfold resolveSingle
  split
  · -- an expression, or else a path that looks like one
    refine ⟨(engine.evaluate around reference).or foundPath, fun b fallback hb => ?_⟩
    rw [hpath b fallback hb, Option.or_assoc]
  split
  · -- a frame knows the name
    exact ⟨some _, fun b fallback _ => rfl⟩
  · -- a frame knows the alias, and its item lacks the part
    exact ⟨none, fun b fallback _ => rfl⟩
  split
  · -- the empty reference
    exact ⟨some _, fun b fallback _ => rfl⟩
  · exact ⟨foundPath, hpath⟩

/-- What a reference finds does not depend on any fallback, and on the binding's own value only if
    that is an array or an object. -/
theorem exists_found (reference : String) : ∃ found : Option Value, ∀ b fallback,
    b.reference = reference → b.structural? = structural →
      engine.resolveBinding around fallback b = found.or (b.fallbackOr fallback) := by
  cases hclass : Reference.classify reference.toList with
  | template parts =>
    refine ⟨some (.text (String.ofList (engine.renderTemplate around parts))), ?_⟩
    intro b fallback href _
    rw [resolveBinding, href, hclass]
    rfl
  | single cs =>
    obtain ⟨found, hfound⟩ := engine.exists_found_single around structural (Reference.normalize cs)
    refine ⟨found, fun b fallback href hb => ?_⟩
    rw [resolveBinding, href, hclass]
    exact hfound b fallback hb

end Found

/-! ## Properties -/

variable {v : Value} {b : Binding}

theorem resolve_of_binding (h : Binding.ofValue? v = some b) (fallback : Option Value) :
    engine.resolve around fallback v = engine.resolveBinding around fallback b := by
  rw [resolve, h]

theorem value_of_ofValue? {fields : Fields} (h : Binding.ofValue? (.object fields) = some b) :
    b.value = Fields.get? "value" fields := by
  simp only [Binding.ofValue?, Binding.ofFields?] at h
  split at h
  · rw [← Option.some.inj h]
  · cases h

theorem ofValue?_insert_value {fields : Fields}
    (h : Binding.ofValue? (.object fields) = some b) (w : Value) :
    Binding.ofValue? (.object (Fields.insert "value" w fields)) =
      some { b with value := some w } := by
  have hreference : Fields.get? "reference" (Fields.insert "value" w fields) =
      Fields.get? "reference" fields := Fields.get?_insert_of_ne (by decide) w fields
  simp only [Binding.ofValue?, Binding.ofFields?] at h ⊢
  rw [hreference, Fields.get?_insert_self]
  split at h
  · rw [← Option.some.inj h]
  · cases h

theorem resolve_some_fallback (v w : Value) :
    engine.resolve around (some w) v = some ((engine.resolve around none v).getD w) := by
  cases hb : Binding.ofValue? v with
  | none =>
    rw [resolve, resolve, hb]
    cases hnull : v.isNull <;> simp
  | some b =>
    obtain ⟨found, hfound⟩ := engine.exists_found around b.structural? b.reference
    have hwith := hfound b (some w) rfl rfl
    have hwithout := hfound b none rfl rfl
    rw [resolve_of_binding engine around hb, resolve_of_binding engine around hb, hwith, hwithout]
    unfold Binding.fallbackOr
    cases found <;> cases b.value <;> rfl

/-- A binding with a value always gives one, whatever the fallback of the caller is. -/
theorem exists_resolve_of_value (h : Binding.ofValue? v = some b) {own : Value}
    (hown : b.value = some own) :
    ∃ w, ∀ fallback, engine.resolve around fallback v = some w := by
  obtain ⟨found, hfound⟩ := engine.exists_found around b.structural? b.reference
  refine ⟨found.getD own, fun fallback => ?_⟩
  rw [resolve_of_binding engine around h, hfound b fallback rfl rfl, Binding.fallbackOr, hown]
  cases found <;> rfl

/-- Two scalars make a difference only where nothing is found. -/
theorem resolve_insert_value {fields : Fields} {own other : Value}
    (h : Binding.ofValue? (.object fields) = some b)
    (hvalue : Fields.get? "value" fields = some own) (hown : own.isContainer = false)
    (hother : other.isContainer = false) (fallback : Option Value) :
    engine.resolve around fallback (.object (Fields.insert "value" other fields)) =
        engine.resolve around fallback (.object fields) ∨
      engine.resolve around fallback (.object fields) = some own ∧
        engine.resolve around fallback (.object (Fields.insert "value" other fields)) =
          some other := by
  have hscalar : ∀ w : Value, w.isContainer = false →
      Binding.structural? { b with value := some w } = none := by
    intro w hw
    rw [Binding.structural?, Option.filter_some, hw]
    rfl
  have hsame := ofValue?_insert_value h own
  rw [Fields.insert_of_get? hvalue] at hsame
  have hchanged := ofValue?_insert_value h other
  obtain ⟨found, hfound⟩ := engine.exists_found around none b.reference
  have hfoundSame := hfound { b with value := some own } fallback rfl (hscalar own hown)
  have hfoundChanged := hfound { b with value := some other } fallback rfl (hscalar other hother)
  rw [resolve_of_binding engine around hsame, resolve_of_binding engine around hchanged,
    hfoundSame, hfoundChanged]
  cases found with
  | some w => exact .inl rfl
  | none => exact .inr ⟨rfl, rfl⟩

/-- The fallback of the caller takes effect only where there is no value without it. A binding with
    a value of its own always has one, whatever that fallback is; and another scalar in its place
    makes a difference only where both are fallen back to. -/
theorem resolve_last_resort (v : Value) :
    (∀ w, engine.resolve around (some w) v = some ((engine.resolve around none v).getD w)) ∧
      ∀ b fields own, Binding.ofValue? v = some b → v = .object fields →
        Fields.get? "value" fields = some own →
        (∃ w, ∀ fallback, engine.resolve around fallback v = some w) ∧
          ∀ other fallback, own.isContainer = false → other.isContainer = false →
            engine.resolve around fallback (.object (Fields.insert "value" other fields)) ≠
              engine.resolve around fallback v →
            engine.resolve around fallback v = some own ∧
              engine.resolve around fallback (.object (Fields.insert "value" other fields)) =
                some other := by
  refine ⟨engine.resolve_some_fallback around v, ?_⟩
  rintro b fields own hb rfl hvalue
  refine ⟨engine.exists_resolve_of_value around hb ((value_of_ofValue? hb).trans hvalue), ?_⟩
  intro other fallback hown hother hne
  have hcases := engine.resolve_insert_value around hb hvalue hown hother fallback
  exact hcases.resolve_left hne

/-- Bindings to a path that leads nowhere: one has no value, another falls back to `null`. -/
theorem resolve_last_resort_title :
    let around : Surroundings := ⟨.object [], []⟩
    let bare : Value := .object [("reference", .text "title")]
    let fields : Fields := [("reference", .text "title"), ("value", .null)]
    Engine.default.resolve around (some (.bool true)) bare = some (.bool true) ∧
      (∃ w, ∀ fallback, Engine.default.resolve around fallback (.object fields) = some w) ∧
      Engine.default.resolve around none (.object (Fields.insert "value" (.bool false) fields)) =
        some (.bool false) := by
  intro around bare fields
  have hbare : Engine.default.resolve around none bare = none := by decide +kernel
  have hfallback := (Engine.default.resolve_last_resort around bare).1 (.bool true)
  rw [hbare] at hfallback
  obtain ⟨hsome, hchange⟩ := (Engine.default.resolve_last_resort around (.object fields)).2
    ⟨"title", some .null⟩ fields .null rfl rfl rfl
  have hne : Engine.default.resolve around none
      (.object (Fields.insert "value" (.bool false) fields)) ≠
        Engine.default.resolve around none (.object fields) := by
    intro h
    have hnull := congrArg (Option.map Value.isNull) h
    exact absurd hnull (by decide +kernel)
  exact ⟨hfallback, hsome, (hchange (.bool false) none rfl rfl hne).2⟩

end Engine

end DataBinding
