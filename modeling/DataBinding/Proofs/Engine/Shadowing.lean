import DataBinding.Engine.Resolve

/-!
# Aliases hide the context

While a frame is in force, the paths that start with its alias are about its item, and the context
is not asked for them: neither where the item lacks the part, nor where frames further in use the
same alias, or have a name for a number that they lack.

Results:
* `isSome_find?_of_names`, `isSome_lookup?_of_names`: some frame knows every path of an alias.
* `resolveSingle_of_names`: what the frames make of it, or else a fallback.
* `resolveBinding_hidden`: so the value is the same in every context.
-/

namespace DataBinding

namespace Frame

variable {default path : String}

/-- The path is the name of the frame's item, or goes on from it. -/
def Names (default path : String) (frame : Frame) : Prop :=
  path = frame.name default ∨ (frame.name default).toList ++ ['.'] <+: path.toList

/-- What the frames make of a path without a context: the innermost frame that knows it says where
    it leads. The empty path is the item of the innermost frame. -/
def within? (default : String) (frames : List Frame) (path : String) : Option Value :=
  if path.isEmpty then frames.getLast?.map item else (lookup? default frames path).join

/-- The paths of its alias are the first thing that a frame asks about. -/
theorem isSome_find?_of_names {frame : Frame} (h : frame.Names default path) :
    (frame.find? default path).isSome = true := by
  rw [find?]
  by_cases hname : path = frame.name default
  · rw [if_pos hname]
    rfl
  · obtain ⟨rest, hrest⟩ := h.resolve_left hname
    rw [if_neg hname, ← hrest, Text.dropPrefix?_append]
    rfl

/-- A frame further in may know the path too, and else the search goes on past it. -/
theorem isSome_lookup?_of_names {frames : List Frame} {frame : Frame} (hmem : frame ∈ frames)
    (h : frame.Names default path) (hne : path.isEmpty = false) :
    (lookup? default frames path).isSome = true := by
  rw [lookup?, hne, if_neg Bool.false_ne_true, List.isSome_findSome?]
  exact List.any_eq_true.2 ⟨frame, List.mem_reverse.2 hmem, isSome_find?_of_names h⟩

end Frame

namespace Engine

variable (engine : Engine) {b : Binding} {frames : List Frame} {frame : Frame}

theorem resolveSingle_of_names {reference : List Char}
    (hplain : Reference.looksLikeExpression reference = false) (hmem : frame ∈ frames)
    (hnames : frame.Names engine.config.defaultAlias (String.ofList reference))
    (fallback : Option Value) (context : Value) :
    engine.resolveSingle ⟨context, frames⟩ b fallback reference =
      (Frame.within? engine.config.defaultAlias frames (String.ofList reference)).or
        (b.fallbackOr fallback) := by
  rw [resolveSingle, hplain, if_neg Bool.false_ne_true, Frame.within?]
  cases hempty : (String.ofList reference).isEmpty with
  | true =>
    -- no frame is asked for the empty path, and the innermost one gives its item
    obtain rfl : reference = [] := by simpa using hempty
    obtain ⟨last, hlast⟩ := Option.ne_none_iff_exists'.1
      (mt List.getLast?_eq_none_iff.1 (List.ne_nil_of_mem hmem))
    rw [Frame.lookup?, hempty, if_pos rfl, List.isEmpty_nil, if_pos rfl, hlast]
    rfl
  | false =>
    obtain ⟨found, hfound⟩ := Option.isSome_iff_exists.1
      (Frame.isSome_lookup?_of_names hmem hnames hempty)
    rw [hfound, if_neg Bool.false_ne_true, Option.join_some]
    cases found <;> rfl

/-- A plain reference to the alias of a frame, or to a part of its item, has the same value in every
    context: what the frames make of it or, if it leads nowhere in them, a fallback. -/
theorem resolveBinding_hidden {cs : List Char}
    (hclass : Reference.classify b.reference.toList = .single cs)
    (hplain : Reference.looksLikeExpression (Reference.normalize cs) = false)
    (hmem : frame ∈ frames)
    (hnames : frame.Names engine.config.defaultAlias (String.ofList (Reference.normalize cs)))
    (fallback : Option Value) (context other : Value) :
    engine.resolveBinding ⟨context, frames⟩ fallback b =
        engine.resolveBinding ⟨other, frames⟩ fallback b ∧
      engine.resolveBinding ⟨context, frames⟩ fallback b =
        (Frame.within? engine.config.defaultAlias frames
          (String.ofList (Reference.normalize cs))).or (b.fallbackOr fallback) := by
  have hvalue : ∀ c : Value, engine.resolveBinding ⟨c, frames⟩ fallback b =
      (Frame.within? engine.config.defaultAlias frames
        (String.ofList (Reference.normalize cs))).or (b.fallbackOr fallback) := by
    intro c
    rw [engine.resolveBinding_of_single ⟨c, frames⟩ hclass]
    exact engine.resolveSingle_of_names hplain hmem hnames fallback c
  exact ⟨(hvalue context).trans (hvalue other).symm, hvalue context⟩

/-- Two rows, the outer one with the part that the inner one lacks. -/
def nestedRows : List Frame :=
  [⟨"row", .object [("size", .ofNat 7)], some 0, some 2⟩, ⟨" row ", .object [], none, none⟩]

/-- The context has a size and a number of rows, but the reference is about the inner row. -/
theorem resolveBinding_hidden_nestedRows :
    let context : Value := .object [("row", .object [("size", .ofNat 1)])]
    let b : Binding := ⟨"row.size", none⟩
    Engine.default.resolveBinding ⟨context, nestedRows⟩ (some .null) b =
        Engine.default.resolveBinding ⟨.object [], nestedRows⟩ (some .null) b ∧
      Engine.default.resolveBinding ⟨context, nestedRows⟩ (some .null) b = some .null := by
  intro context b
  have hclass : Reference.classify b.reference.toList = .single b.reference.toList := by
    decide +kernel
  have hnormal : Reference.normalize b.reference.toList = "row.size".toList := by decide
  have hmem : ⟨" row ", .object [], none, none⟩ ∈ nestedRows := by simp [nestedRows]
  have hnames : Frame.Names Engine.default.config.defaultAlias
      (String.ofList (Reference.normalize b.reference.toList))
      ⟨" row ", .object [], none, none⟩ := by
    rw [hnormal]
    exact .inr (by decide)
  obtain ⟨hsame, hvalue⟩ := resolveBinding_hidden Engine.default hclass (by decide) hmem hnames
    (some .null) context (.object [])
  refine ⟨hsame, hvalue.trans ?_⟩
  rw [hnormal]
  rfl

end Engine

end DataBinding
