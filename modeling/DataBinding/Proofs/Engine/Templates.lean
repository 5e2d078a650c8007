import DataBinding.Engine.Resolve
import DataBinding.Proofs.Reference.Splitting

/-!
# Rendered templates

A reference that is not single is text: the reference with each segment replaced by the text of its
value. Neither the value of the binding nor the fallback of the caller plays a part, and what takes
the place of a segment is not searched for segments.

Results:
* `renderTemplate_eq`: a template is rendered part by part.
* `resolveBinding_by_segments`: the value of a binding, by the segments of its reference.
-/

namespace DataBinding

open Template (parts IsSplit)
open Reference (IsSingle classify)

/-- A part as it is shown: text as it stands, a segment by its body. -/
def Part.shown (shownBody : List Char → List Char) : Part → List Char
  | .text t => t
  | .expr body => shownBody body

namespace Engine

variable (engine : Engine) (around : Surroundings)

/-- What takes the place of a segment: the text of its value, and nothing if there is an error. -/
def segmentText (body : List Char) : List Char :=
  match (engine.environment around.context around.frames).tryEvaluate (Text.trim body) with
  | .ok v => Value.templateText v
  | .error _ => []

theorem renderTemplate_eq (ps : List Part) :
    engine.renderTemplate around ps = ps.flatMap (Part.shown (engine.segmentText around)) := by
  rw [renderTemplate, Template.render]
  congr 1
  funext p
  cases p with
  | text t => rfl
  | expr body =>
    show Value.templateText (engine.evaluate around (Text.trim body)) = _
    rw [evaluate, Environment.evaluate, Part.shown, segmentText]
    cases (engine.environment around.context around.frames).tryEvaluate (Text.trim body) <;> rfl

/-- The parts of a reference are its split at the leftmost segments; it is single if it has no
    segment or is one but for blanks, and a template of its parts otherwise. Then each segment is
    replaced by the text of its value, whatever the binding's own value and the fallback are. -/
theorem resolveBinding_by_segments (reference : String) :
    (∀ ps, parts reference.toList = ps ↔ IsSplit reference.toList ps) ∧
      (∀ t, .text t ∈ parts reference.toList → ∀ segment, IsSegment segment → ¬segment <:+: t) ∧
      (classify reference.toList = .single reference.toList ↔ IsSingle reference.toList) ∧
      (classify reference.toList = .template (parts reference.toList) ↔
        ¬IsSingle reference.toList) ∧
      (¬IsSingle reference.toList →
        ∀ (engine : Engine) (around : Surroundings) (fallback value : Option Value),
          engine.resolveBinding around fallback ⟨reference, value⟩ =
            some (.text (String.ofList
              ((parts reference.toList).flatMap (Part.shown (engine.segmentText around)))))) := by
  have hcases := Reference.classify_cases reference.toList
  refine ⟨fun ps => Template.parts_eq_iff, ?_, ?_, ?_, ?_⟩
  · intro t ht segment hsegment
    obtain ⟨before, after, hparts⟩ := List.append_of_mem ht
    exact ((Template.isSplit_parts _).leftmost before t after hparts).not_occurs hsegment
  · rcases hcases with ⟨hclass, hsingle⟩ | ⟨hclass, hsingle⟩
    · exact iff_of_true hclass hsingle
    · exact iff_of_false (by rw [hclass]; simp) hsingle
  · rcases hcases with ⟨hclass, hsingle⟩ | ⟨hclass, hsingle⟩
    · exact iff_of_false (by rw [hclass]; simp) (not_not_intro hsingle)
    · exact iff_of_true hclass hsingle
  · intro hsingle engine around fallback value
    obtain ⟨hclass, -⟩ := hcases.resolve_left fun h => hsingle h.2
    simp only [resolveBinding, hclass, renderTemplate_eq]

/-- An empty segment is text, the first segment has a text that looks like a segment, and the second
    one fails. -/
def pricedReference : String := "${} ${ price }${count +}"

def pricedContext : Surroundings := ⟨.object [("price", .text "${count}")], []⟩

theorem parts_pricedReference :
    parts pricedReference.toList =
      [.text "${} ".toList, .expr " price ".toList, .expr "count +".toList] := by
  simp [pricedReference, parts, Template.partsFrom, Text.cut?, Text.dropPrefix?, Template.textPart]

theorem resolveBinding_pricedReference :
    Engine.default.resolveBinding pricedContext (some .null)
      ⟨pricedReference, some (.text "z")⟩ = some (.text "${} ${count}") := by
  have hparts := parts_pricedReference
  have htemplate : ¬IsSingle pricedReference.toList := by
    rintro (hnone | ⟨body, hfilter, -⟩)
    · refine hnone "${count +}".toList ⟨"count +".toList, by decide, by decide, by decide⟩ ?_
      exact ⟨"${} ${ price }".toList, [], by decide⟩
    · rw [hparts] at hfilter
      cases hfilter
  have hprice : Engine.default.segmentText pricedContext " price ".toList = "${count}".toList := by
    decide +kernel
  have hfails : Engine.default.segmentText pricedContext "count +".toList = [] := by decide +kernel
  rw [(resolveBinding_by_segments pricedReference).2.2.2.2 htemplate, hparts]
  simp only [List.flatMap_cons, List.flatMap_nil, Part.shown, hprice, hfails]
  rfl

end Engine

end DataBinding
