import DataBinding.Engine.Basic
import DataBinding.Binding
import DataBinding.Reference.Basic

/-!
# Resolution

A binding is replaced by the value that its reference leads to: by a rendered template, by what a
frame, an expression or the context says, and failing these by its own value or the fallback of
the caller.

Results:
* `resolveBindable_ofValue`: a property has one value, read from its document first or as it stands.
-/

namespace DataBinding

/-- What a binding is resolved against: a context document and the frames around it. -/
structure Surroundings where
  context : Value
  frames : List Frame

namespace Engine

variable (engine : Engine) (around : Surroundings)

/-- The value of an expression, absent if anything goes wrong. -/
def evaluate (input : List Char) : Option Value :=
  (engine.environment around.context around.frames).evaluate input

/-- The text of a template: each segment gives the text of its value. -/
def renderTemplate (parts : List Part) : List Char :=
  Template.render (fun body => Value.templateText (engine.evaluate around body)) parts

/-- What the context has at a path; failing this, the binding's own value or the fallback. Empty
    text gives way to the binding's own array or object, if the engine is configured so. -/
def resolvePath (b : Binding) (fallback : Option Value) (path : List Char) : Option Value :=
  match Path.get? (String.ofList path) around.context with
  | some (.text s) =>
    if engine.config.preferStructuralFallback && s.isEmpty && b.hasStructuralFallback then b.value
    else some (.text s)
  | some v => some v
  | none => b.fallbackOr fallback

/-- What a normalized single reference leads to. An alias of a frame hides the context even if the
    item lacks the part asked for, and an empty reference is the current item. -/
def resolveSingle (b : Binding) (fallback : Option Value) (reference : List Char) : Option Value :=
  if Reference.looksLikeExpression reference then
    (engine.evaluate around reference).or (engine.resolvePath around b fallback reference)
  else
    match Frame.lookup? engine.config.defaultAlias around.frames (String.ofList reference) with
    | some (some v) => some v
    | some none => b.fallbackOr fallback
    | none =>
      match (if reference.isEmpty then around.frames.getLast? else none) with
      | some frame => some frame.item
      | none => engine.resolvePath around b fallback reference

/-- The value of a binding. -/
def resolveBinding (fallback : Option Value) (b : Binding) : Option Value :=
  match Reference.classify b.reference.toList with
  | .template parts => some (.text (String.ofList (engine.renderTemplate around parts)))
  | .single cs => engine.resolveSingle around b fallback (Reference.normalize cs)

theorem resolveBinding_of_single {b : Binding} {cs : List Char}
    (h : Reference.classify b.reference.toList = .single cs) (fallback : Option Value) :
    engine.resolveBinding around fallback b =
      engine.resolveSingle around b fallback (Reference.normalize cs) := by
  rw [resolveBinding, h]

/-- The value of a plain value or a binding. `null` gives way to the fallback. -/
def resolveBindable (fallback : Option Value) : Bindable → Option Value
  | .literal v => if v.isNull then fallback else some v
  | .binding b => engine.resolveBinding around fallback b

/-- The value of a property as it stands in a document. -/
def resolve (fallback : Option Value) (v : Value) : Option Value :=
  match Binding.ofValue? v with
  | some b => engine.resolveBinding around fallback b
  | none => if v.isNull then fallback else some v

/-- The value of the property under a key; the fallback if there is none. -/
def resolveProp (fallback : Option Value) (key : String) (props : Value) : Option Value :=
  match props.object?.bind (Fields.get? key) with
  | some v => engine.resolve around fallback v
  | none => fallback

theorem resolveBindable_ofValue (fallback : Option Value) (v : Value) :
    engine.resolveBindable around fallback (Bindable.ofValue v) =
      engine.resolve around fallback v := by
  unfold resolve Bindable.ofValue
  cases Binding.ofValue? v with
  | some b => rfl
  | none => rfl

/-! ## Trees -/

/-- The items of a list, each object replaced by what a path leads to in it. -/
def project (path : String) (items : List Value) : List Value :=
  items.map fun
    | .object fields => (Path.get? path (.object fields)).getD .null
    | v => v

/-- The list of `items` as it is displayed: projected, if the object names a path for it. -/
def displayed (key : String) (displayPath : Option String) (v : Value) : Value :=
  match displayPath, v with
  | some path, .array items => if key = "items" then .array (project path items) else v
  | _, v => v

mutual

/-- The document with its bindings replaced by their values. A binding without a value leaves its
    object, or leaves `null` elsewhere. -/
def resolveTree : Value → Value
  | .object fields =>
    match Binding.ofFields? fields with
    | some b => (engine.resolveBinding around none b).getD .null
    | none => .object (resolveFields ((Fields.get? "displayPath" fields).bind Value.text?) fields)
  | .array items => .array (resolveItems items)
  | v => v

/-- The elements of an array with their bindings replaced. -/
def resolveItems : List Value → List Value
  | [] => []
  | v :: rest => resolveTree v :: resolveItems rest

/-- The fields of an object with their bindings replaced; those without a value are left out. -/
def resolveFields (displayPath : Option String) : Fields → Fields
  | [] => []
  | (key, v) :: rest =>
    match Binding.ofValue? v with
    | some b =>
      match engine.resolveBinding around none b with
      | some w => (key, displayed key displayPath w) :: resolveFields displayPath rest
      | none => resolveFields displayPath rest
    | none => (key, resolveTree v) :: resolveFields displayPath rest

end

end Engine

end DataBinding
