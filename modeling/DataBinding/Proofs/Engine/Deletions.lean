import DataBinding.Proofs.Engine.Flat
import DataBinding.Proofs.Path.Elements

/-!
# Deletions of elements

The bindings of a patch are resolved against the context as it was, but every deletion finds the
document as the entries before it left it. A patch that deletes elements of one array therefore
deletes each by its index in what is left by then. It deletes what stood at these indices before the
patch if they are listed from the greatest to the least, and otherwise only if equal elements hide
the difference.

Results:
* `foldl_writeLeaf_of_absent`: leaves without a value, one after the other.
* `applyPatch_deletions`: a patch that deletes elements of an array.
* `applyPatch_deletions_ascending`: the least index first deletes other elements.
-/

namespace DataBinding.Engine

open DataBinding.Path (Replaced elementPath segments)
open DataBinding.Positions (deleteAll keeping)

variable (engine : Engine)

theorem written_of_absent {source leaf : Value} {b : Binding} (hb : Binding.ofValue? leaf = some b)
    (habsent : engine.resolveBinding ⟨source, []⟩ none b = none) :
    engine.written source leaf = none := by
  rw [written, hb]
  exact habsent

/-- Of leaves without a value only the paths count. -/
theorem foldl_writeLeaf_of_absent {source : Value} {leaves : Fields}
    (h : ∀ leaf ∈ leaves, engine.written source leaf.2 = none) (document : Value) :
    leaves.foldl (engine.writeLeaf source) document =
      (leaves.map Prod.fst).foldl (fun d path => Path.update path none d) document := by
  induction leaves generalizing document with
  | nil => rfl
  | cons leaf rest ih =>
    obtain ⟨hleaf, hrest⟩ := List.forall_mem_cons.1 h
    rw [List.foldl_cons, List.map_cons, List.foldl_cons, ih hrest, writeLeaf, hleaf]

section Deletions

variable {context : Value} {path : String} {items : List Value}
  (harray : Path.get? path context = some (.array items)) (hsize : items.length ≤ wordBound)
  {indices : List Nat} (hbounds : ∀ i ∈ indices, i < items.length)
  {fields : Fields} {source : Option Value}
  (hpaths : (Patch.flatten fields).map Prod.fst = indices.map (elementPath path))
  (habsent : ∀ leaf ∈ Patch.flatten fields, ∃ b, Binding.ofValue? leaf.2 = some b ∧
    engine.resolveBinding ⟨source.getD context, []⟩ none b = none)
include harray hsize hbounds hpaths habsent

/-- Before the hooks run, the patch has come to one write of what is left of the array. -/
theorem document_of_deletions :
    (engine.applyPatch context (.object fields) source).document =
      engine.hooks.foldl (fun d hook => hook.refresh d)
        (Path.update path (some (.array (deleteAll indices items))) context) := by
  obtain ⟨hne, hfollow⟩ := Path.follow?_of_get?_array harray
  have hfit : ∀ i ∈ indices, i < wordBound := fun i hi => Nat.lt_of_lt_of_le (hbounds i hi) hsize
  have hdeleted : ∀ leaf ∈ Patch.flatten fields,
      engine.written (source.getD context) leaf.2 = none := by
    intro leaf hl
    obtain ⟨b, hb, hresolved⟩ := habsent leaf hl
    exact engine.written_of_absent hb hresolved
  rw [applyPatch_eq, foldl_run_document, foldl_applyLeaf_document,
    engine.foldl_writeLeaf_of_absent hdeleted, hpaths, List.foldl_map,
    Path.foldl_update_none hne hfit hfollow]

/-- A patch that deletes elements of an array deletes them one after the other, in the order of its
    leaves, each by its index in what is left by then; nothing else changes until the hooks run. If
    the indices are listed from the greatest to the least, what is left are the elements that stood
    at none of them. If no two elements are equal, that is so for no other order. The array has no
    more elements than 64 bits can index. -/
theorem applyPatch_deletions (hdistinct : indices.Nodup) :
    (∃ document,
      Replaced (.array items) (.array (deleteAll indices items)) (segments path) context document ∧
        (engine.applyPatch context (.object fields) source).document =
          engine.hooks.foldl (fun d hook => hook.refresh d) document) ∧
      (indices.Pairwise (· > ·) → deleteAll indices items = keeping indices items) ∧
      (items.Nodup → deleteAll indices items = keeping indices items →
        indices.Pairwise (· > ·)) := by
  obtain ⟨hne, hfollow⟩ := Path.follow?_of_get?_array harray
  refine ⟨⟨_, Path.replaced_write hne hfollow _, ?_⟩, ?_, ?_⟩
  · exact engine.document_of_deletions harray hsize hbounds hpaths habsent
  · exact fun h => Positions.deleteAll_of_descending h hbounds
  · exact fun hitems h => Positions.descending_of_deleteAll hitems hdistinct hbounds h

end Deletions

/-- Three texts. -/
def letters : List Value := [.text "a", .text "b", .text "c"]

/-- A document with a list of texts. -/
def lettered : Value := .object [("list", .array letters)]

/-- Deletions at two indices of the list, in this order. -/
def deletionsAt (i j : Nat) : Fields :=
  [(elementPath "list" i, .object [("reference", .text "missing")]),
    (elementPath "list" j, .object [("reference", .text "missing")])]

/-- An engine without hooks. -/
def hookless : Engine := { Engine.default with hooks := [] }

theorem absent_of_mem_deletionsAt (i j : Nat) : ∀ leaf ∈ Patch.flatten (deletionsAt i j),
    ∃ b, Binding.ofValue? leaf.2 = some b ∧
      hookless.resolveBinding ⟨(none : Option Value).getD lettered, []⟩ none b = none := by
  have hleaves : ∀ leaf ∈ deletionsAt i j, leaf.2 = .object [("reference", .text "missing")] := by
    simp [deletionsAt]
  have hflat : Patch.flatten (deletionsAt i j) = deletionsAt i j := by
    refine Patch.flatten_of_leaves fun leaf hl => ?_
    rw [hleaves leaf hl]
    rfl
  intro leaf hl
  rw [hflat] at hl
  rw [hleaves leaf hl]
  exact ⟨⟨"missing", none⟩, rfl, Option.isNone_iff_eq_none.1 (by decide +kernel)⟩

theorem get?_list_lettered : Path.get? "list" lettered = some (.array letters) := rfl

/-- The greater index first: the elements that stand at both are deleted. -/
theorem applyPatch_deletions_descending : ∃ document,
    Replaced (.array letters) (.array [.text "b"]) ["list"] lettered document ∧
      (hookless.applyPatch lettered (.object (deletionsAt 2 0)) none).document =
        hookless.hooks.foldl (fun d hook => hook.refresh d) document := by
  have hpaths : (Patch.flatten (deletionsAt 2 0)).map Prod.fst = [2, 0].map (elementPath "list") :=
    rfl
  exact (hookless.applyPatch_deletions get?_list_lettered (by decide) (by decide) hpaths
    (absent_of_mem_deletionsAt 2 0) (by decide)).1

/-- The least index first: the second deletion finds the elements moved, and what is left is not the
    last of them. -/
theorem applyPatch_deletions_ascending :
    Path.get? "list" lettered = some (.array letters) ∧
      (Patch.flatten (deletionsAt 0 1)).map Prod.fst = [0, 1].map (elementPath "list") ∧
      (∀ leaf ∈ Patch.flatten (deletionsAt 0 1), ∃ b, Binding.ofValue? leaf.2 = some b ∧
        hookless.resolveBinding ⟨(none : Option Value).getD lettered, []⟩ none b = none) ∧
      ¬∃ document,
        Replaced (.array letters) (.array (keeping [0, 1] letters)) ["list"] lettered document ∧
          (hookless.applyPatch lettered (.object (deletionsAt 0 1)) none).document =
            hookless.hooks.foldl (fun d hook => hook.refresh d) document := by
  have hpaths : (Patch.flatten (deletionsAt 0 1)).map Prod.fst = [0, 1].map (elementPath "list") :=
    rfl
  have habsent := absent_of_mem_deletionsAt 0 1
  refine ⟨get?_list_lettered, hpaths, habsent, ?_⟩
  rintro ⟨document, hreplaced, hdocument⟩
  have hwanted : Path.follow? ["list"] document = some (.array [.text "c"]) :=
    Path.follow?_of_replaced hreplaced
  have hleft : document = Path.update "list" (some (.array (deleteAll [0, 1] letters))) lettered :=
    hdocument.symm.trans (hookless.document_of_deletions get?_list_lettered (by decide) (by decide)
      hpaths habsent)
  have hfound : Path.follow? ["list"] document = some (.array [.text "b"]) := by
    rw [hleft]
    rfl
  rw [hfound] at hwanted
  simp at hwanted

end DataBinding.Engine
