import DataBinding.Engine.Resolve
import DataBinding.Proofs.Eval.Members

/-!
# Two routes to a name

The text of a dotted path can be followed in two ways: by asking the frames, from the innermost
one, and then the context; or by evaluating it as an expression in the scope that the frames and
the context give. Both ways lead to the same value, except for a few names that only one of them
knows.

Results:
* `Scope.lookup?_ofFrames`: the variables of a scope, frame by frame.
* `Frame.find?_eq`: what one frame says about a path, in terms of its variables.
* `plainValue_eq`: what the frames or the context have at a path starts from a variable.
* `plainValue_eq_evaluate`: so it is the value of the path as an expression.
-/

namespace DataBinding

namespace Frame

/-! ## The names of a frame -/

variable (default : String) (frame : Frame)

/-- The value of the variable that a frame gives to expressions under a name. -/
def gives? (name : String) : Option Value :=
  if name = frame.name default then some frame.item
  else if name = frame.indexName default then frame.index.map .ofNat
  else if name = frame.totalName default then frame.total.map .ofNat
  else none

/-- The path is a name for a number of the frame, and no variable. -/
def isPathName (path : String) : Bool :=
  path == "index" || path == "total" || path == "length" ||
    path == frame.name default ++ "Length"

/-- The variable is a number of the frame. -/
def isCounter (name : String) : Bool :=
  (frame.index.isSome && name == frame.indexName default) ||
    (frame.total.isSome && name == frame.totalName default)

variable {frame default} in
/-- Where a variable is none of the numbers of a frame, the frame only gives it its item. -/
theorem gives?_of_not_isCounter {name : String} (h : frame.isCounter default name = false) :
    frame.gives? default name = if name = frame.name default then some frame.item else none := by
  simp only [isCounter, Bool.or_eq_false_iff, Bool.and_eq_false_iff, beq_eq_false_iff_ne,
    Option.isSome_eq_false_iff, Option.isNone_iff_eq_none] at h
  obtain ⟨hindex, htotal⟩ := h
  rw [gives?]
  split
  · rfl
  split
  · rename_i hname
    rw [hindex.resolve_right (not_not_intro hname)]
    rfl
  split
  · rename_i hname
    rw [htotal.resolve_right (not_not_intro hname)]
    rfl
  · rfl

theorem name_ne_indexName : frame.name default ≠ frame.indexName default := by
  intro h
  have hlen := congrArg (fun s => s.toList.length) h
  simp [indexName] at hlen

theorem name_ne_totalName : frame.name default ≠ frame.totalName default := by
  intro h
  have hlen := congrArg (fun s => s.toList.length) h
  simp [totalName] at hlen

theorem indexName_ne_totalName : frame.indexName default ≠ frame.totalName default := by
  intro h
  have hchars := congrArg String.toList h
  simp [indexName, totalName] at hchars

end Frame

/-! ## Variables -/

namespace Scope

theorem lookup?_bind (name other : String) (value : Value) (scope : Scope) :
    lookup? other (scope.bind name value) =
      if other = name then some value else lookup? other scope := by
  split
  · rename_i h
    rw [h, lookup?_bind_self]
  · rename_i h
    rw [lookup?_bind_of_ne h]

/-- The names of a frame hide the older ones and do not hide each other. -/
theorem lookup?_enter (default name : String) (scope : Scope) (frame : Frame) :
    (scope.enter default frame).lookup? name =
      (frame.gives? default name).or (scope.lookup? name) := by
  have hni := frame.name_ne_indexName default
  have hnt := frame.name_ne_totalName default
  have hit := frame.indexName_ne_totalName default
  rw [enter, Frame.gives?]
  cases frame.index <;> cases frame.total <;> simp only [lookup?_bind] <;> grind

theorem lookup?_foldl_enter (default name : String) (scope : Scope) (frames : List Frame) :
    (frames.foldl (enter default) scope).lookup? name =
      (frames.reverse.findSome? (Frame.gives? default · name)).or (scope.lookup? name) := by
  induction frames generalizing scope with
  | nil => rfl
  | cons frame rest ih =>
    rw [List.foldl_cons, ih, lookup?_enter, List.reverse_cons, List.findSome?_append,
      Option.or_assoc]
    cases hv : frame.gives? default name <;> simp [hv]

theorem lookup?_ofFrames (fields : Fields) (frames : List Frame) (default name : String) :
    (ofFrames (.object fields) frames default).lookup? name =
      (frames.reverse.findSome? (Frame.gives? default · name)).or (Fields.get? name fields) :=
  lookup?_foldl_enter default name _ frames

end Scope

/-! ## Paths -/

namespace Frame

variable {default path first : String} {rest : List String} {frame : Frame}

/-- Of a path without a point a frame says what its variable says. -/
theorem find?_of_name (hpath : '.' ∉ path.toList) (hp : frame.isPathName default path = false) :
    frame.find? default path = (frame.gives? default path).map some := by
  simp only [isPathName, Bool.or_eq_false_iff, beq_eq_false_iff_ne] at hp
  obtain ⟨⟨⟨hindex, htotal⟩, hlength⟩, hnameLength⟩ := hp
  have hprefix : Text.dropPrefix? ((frame.name default).toList ++ ['.']) path.toList = none := by
    cases hd : Text.dropPrefix? ((frame.name default).toList ++ ['.']) path.toList with
    | none => rfl
    | some back =>
      rw [Text.eq_append_of_dropPrefix? hd] at hpath
      exact absurd (by simp) hpath
  simp only [find?, hprefix, hindex, htotal, hlength, hnameLength, or_false]
  rw [gives?, indexName, totalName]
  split
  · rfl
  split
  · cases frame.index <;> rfl
  split
  · cases frame.total <;> rfl
  · rfl

/-- Of a path with several segments a frame only knows those that start with the name of its
    item. -/
theorem find?_of_segments {back : List Char} (hd : '.' ∉ (frame.name default).toList)
    (hfirst : '.' ∉ first.toList) (hpath : path.toList = first.toList ++ '.' :: back) :
    frame.find? default path =
      if first = frame.name default then some (Path.get? (String.ofList back) frame.item)
      else none := by
  have hne : ∀ s : String, '.' ∉ s.toList → path ≠ s := by
    rintro s hs rfl
    rw [hpath] at hs
    exact hs (by simp)
  have happend : ∀ s : String, '.' ∉ s.toList → path ≠ frame.name default ++ s := by
    intro s hs
    exact hne _ (by simp [hd, hs])
  have hindex := happend "Index" (by decide)
  have htotal := happend "Total" (by decide)
  have hlength := happend "Length" (by decide)
  simp only [find?, hpath, Text.dropPrefix?_concat hfirst hd, String.toList_inj]
  by_cases hf : first = frame.name default
  · rw [if_pos hf, if_pos hf, if_neg (hne _ hd)]
  · simp only [if_neg hf, if_neg (hne _ hd), hindex, htotal, hlength,
      hne "index" (by decide), hne "total" (by decide), hne "length" (by decide), or_self, if_false]

/-- A frame knows a path if it has a variable under the first segment, and then says where the other
    segments lead from its value. -/
theorem find?_eq (hd : '.' ∉ (frame.name default).toList)
    (hpath : Path.segments path = first :: rest) (hrest : ∀ s ∈ rest, s.toList ≠ [])
    (hp : frame.isPathName default path = false)
    (hc : rest ≠ [] → frame.isCounter default first = false) :
    frame.find? default path = (frame.gives? default first).map (Path.readFrom? rest) := by
  have hfirst := Path.not_mem_of_segments hpath
  cases rest with
  | nil =>
    obtain rfl := Path.eq_of_segments_singleton hpath
    exact find?_of_name hfirst hp
  | cons next rest =>
    obtain ⟨back, hchars, hback⟩ :=
      Path.exists_of_segments_cons hpath (hrest next List.mem_cons_self)
    rw [find?_of_segments hd hfirst hchars,
      gives?_of_not_isCounter (hc (List.cons_ne_nil next rest)), Path.get?, hback]
    split <;> rfl

end Frame

namespace Path

/-- A path is its first segment, and a point and a name for each of the others. -/
theorem toList_of_segments {path first : String} {rest : List String}
    (hpath : segments path = first :: rest) (hrest : ∀ s ∈ rest, s.toList ≠ []) :
    path.toList = first.toList ++ Expr.membersText rest := by
  induction rest generalizing path first with
  | nil =>
    rw [eq_of_segments_singleton hpath]
    exact (List.append_nil _).symm
  | cons next rest ih =>
    obtain ⟨hnext, hmore⟩ := List.forall_mem_cons.1 hrest
    obtain ⟨back, hchars, hback⟩ := exists_of_segments_cons hpath hnext
    have htail := ih hback hmore
    rw [String.toList_ofList] at htail
    rw [hchars, htail, Expr.membersText_cons, List.cons_append]

end Path

/-! ## Frames -/

theorem findSome?_congr {α β : Type} {f g : α → Option β} {xs : List α}
    (h : ∀ x ∈ xs, f x = g x) : xs.findSome? f = xs.findSome? g := by
  induction xs with
  | nil => rfl
  | cons x rest ih =>
    obtain ⟨hx, hrest⟩ := List.forall_mem_cons.1 h
    rw [List.findSome?_cons, List.findSome?_cons, hx, ih hrest]

section Routes

variable {default path first : String} {rest : List String} {frames : List Frame} {fields : Fields}

theorem Frame.lookup?_eq (hpath : Path.segments path = first :: rest)
    (hrest : ∀ s ∈ rest, s.toList ≠ [])
    (hnames : ∀ frame ∈ frames, '.' ∉ (frame.name default).toList)
    (hp : ∀ frame ∈ frames, frame.isPathName default path = false)
    (hc : rest ≠ [] → ∀ frame ∈ frames, frame.isCounter default first = false) :
    lookup? default frames path =
      (frames.reverse.findSome? (gives? default · first)).map (Path.readFrom? rest) := by
  have hne : path.isEmpty = false := by
    rw [Bool.eq_false_iff]
    intro hempty
    rw [Path.segments, if_pos hempty] at hpath
    cases hpath
  rw [lookup?, hne, if_neg Bool.false_ne_true, List.map_findSome?]
  refine findSome?_congr fun frame hframe => ?_
  have hmem := List.mem_reverse.1 hframe
  exact find?_eq (hnames frame hmem) hpath hrest (hp frame hmem) fun h => hc h frame hmem

namespace Engine

variable (engine : Engine)

/-! ## Both routes -/

/-- What the frames say about a path or, if none of them knows it, what the context has there. -/
def plainValue (around : Surroundings) (path : String) : Option Value :=
  (Frame.lookup? engine.config.defaultAlias around.frames path).getD
    (Path.get? path around.context)

/-- Both start from the variable under the first segment: a frame hides the context even if the path
    leads nowhere in it. -/
theorem plainValue_eq (hpath : Path.segments path = first :: rest)
    (hrest : ∀ s ∈ rest, s.toList ≠ [])
    (hnames : ∀ frame ∈ frames, '.' ∉ (frame.name engine.config.defaultAlias).toList)
    (hp : ∀ frame ∈ frames, frame.isPathName engine.config.defaultAlias path = false)
    (hc : rest ≠ [] →
      ∀ frame ∈ frames, frame.isCounter engine.config.defaultAlias first = false) :
    engine.plainValue ⟨.object fields, frames⟩ path =
      ((engine.environment (.object fields) frames).scope.lookup? first).bind
        (Path.readFrom? rest) := by
  have hget : Path.get? path (.object fields) =
      (Fields.get? first fields).bind (Path.readFrom? rest) := by
    rw [Path.get?, hpath, Path.read?_object]
  rw [plainValue, hget, Frame.lookup?_eq hpath hrest hnames hp hc, environment,
    Scope.lookup?_ofFrames]
  cases frames.reverse.findSome? (Frame.gives? engine.config.defaultAlias · first) <;> rfl

/-- A path of names, the first of which can be a variable, has the same value by both routes. There
    are three exceptions: the whole path is a name for a number that only paths know, it goes on
    after a number of a frame, or it asks a text for its length. -/
theorem plainValue_eq_evaluate (hpath : Path.segments path = first :: rest)
    (hfirst : Expr.isVariable first = true) (hrest : ∀ s ∈ rest, Expr.isMemberName s = true)
    (hlen : rest.length ≤ Expr.maxOperators)
    (hnames : ∀ frame ∈ frames, '.' ∉ (frame.name engine.config.defaultAlias).toList)
    (hp : ∀ frame ∈ frames, frame.isPathName engine.config.defaultAlias path = false)
    (hc : rest ≠ [] →
      ∀ frame ∈ frames, frame.isCounter engine.config.defaultAlias first = false)
    (ht : ∀ v, (engine.environment (.object fields) frames).scope.lookup? first = some v →
      Path.asksTextLength rest v = false) :
    engine.plainValue ⟨.object fields, frames⟩ path =
      engine.evaluate ⟨.object fields, frames⟩ path.toList := by
  have hne : ∀ s ∈ rest, s.toList ≠ [] := fun s hs => (Expr.isMemberName_iff.1 (hrest s hs)).1
  rw [engine.plainValue_eq hpath hne hnames hp hc, Path.toList_of_segments hpath hne, evaluate,
    Environment.evaluate_members _ hfirst hrest hlen ht]

/-- An outer row, hidden in the context, whose second cell is looked up from an inner frame that has
    a row of numbers of its own. -/
theorem plainValue_eq_evaluate_cells :
    let around : Surroundings :=
      ⟨.object [("row", .text "hidden")],
        [⟨" row ", .object [("cells", .array [.null, .object [("size", .ofNat 7)]])], none, some 2⟩,
          ⟨"", .array [.ofNat 1], some 0, none⟩]⟩
    Engine.default.plainValue around "row.cells.1.size" =
      Engine.default.evaluate around "row.cells.1.size".toList :=
  plainValue_eq_evaluate Engine.default
    (show Path.segments "row.cells.1.size" = ["row", "cells", "1", "size"] by decide)
    (by decide) (by decide) (by decide) (by decide) (by decide) (by decide)
    (by
      intro v hv
      cases hv
      rfl)

end Engine

end Routes

end DataBinding
