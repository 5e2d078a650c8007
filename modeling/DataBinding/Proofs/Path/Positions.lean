import Mathlib.Data.List.Nodup
import Mathlib.Data.List.Perm.Basic

/-!
# Deleting by position

Elements of a list are deleted one after the other, each by its position in what the deletions
before it have left. If the positions are listed from the greatest to the least, every deletion
leaves the places before it alone, and so the elements that stood at these positions in the first
place are deleted. No other order does that, unless there are equal elements.

Results:
* `deleteAll_of_descending`: from the greatest position to the least.
* `weight_le`: what deletions can take away at most.
* `descending_of_deleteAll`: no other order of the positions will do.
-/

namespace DataBinding.Positions

variable {α β : Type}

/-- What is left of a list after deleting at each position in turn. There is nothing to delete past
    the end. -/
def deleteAll (positions : List Nat) (items : List α) : List α :=
  positions.foldl List.eraseIdx items

/-- The elements of a list that stand at none of the positions, in order. -/
def keeping (positions : List Nat) (items : List α) : List α :=
  (items.zipIdx.filter fun e => e.2 ∉ positions).map Prod.fst

theorem deleteAll_cons (i : Nat) (rest : List Nat) (items : List α) :
    deleteAll (i :: rest) items = deleteAll rest (items.eraseIdx i) := rfl

theorem deleteAll_map (f : α → β) (positions : List Nat) (items : List α) :
    deleteAll positions (items.map f) = (deleteAll positions items).map f := by
  induction positions generalizing items with
  | nil => rfl
  | cons i rest ih => rw [deleteAll_cons, List.eraseIdx_map, ih, deleteAll_cons]

/-! ## From the greatest position to the least -/

/-- From a place on, everything is kept if all positions lie before it. -/
theorem filter_zipIdx_behind {positions : List Nat} {k : Nat} (h : ∀ j ∈ positions, j < k)
    (back : List α) : (back.zipIdx k).filter (fun e => e.2 ∉ positions) = back.zipIdx k := by
  refine List.filter_eq_self.2 fun e he => decide_eq_true fun hmem => ?_
  have hk := List.le_snd_of_mem_zipIdx he
  have hlt := h _ hmem
  omega

/-- The elements behind the position move, but none of them is to be deleted any more. -/
theorem keeping_eraseIdx {i : Nat} {rest : List Nat} {items : List α} (hi : i < items.length)
    (hrest : ∀ j ∈ rest, j < i) : keeping rest (items.eraseIdx i) = keeping (i :: rest) items := by
  have hitems : items = items.take i ++ items[i] :: items.drop (i + 1) := by
    rw [← List.drop_eq_getElem_cons hi, List.take_append_drop]
  have hlength : (items.take i).length = i := List.length_take_of_le (Nat.le_of_lt hi)
  generalize items.take i = front, items[i] = x, items.drop (i + 1) = back at hitems hlength
  subst hlength
  have hcons : ∀ j ∈ front.length :: rest, j < front.length + 1 := by
    rw [List.forall_mem_cons]
    exact ⟨Nat.lt_succ_self _, fun j hj => Nat.lt_succ_of_lt (hrest j hj)⟩
  have hfront : front.zipIdx.filter (fun e => e.2 ∉ front.length :: rest) =
      front.zipIdx.filter fun e => e.2 ∉ rest := by
    refine List.filter_congr fun e he => ?_
    have hne : e.2 ≠ front.length := Nat.ne_of_lt (by simpa using List.snd_lt_of_mem_zipIdx he)
    simp only [List.mem_cons, hne, false_or]
  rw [keeping, keeping, hitems, List.eraseIdx_append_of_length_le (Nat.le_refl _), Nat.sub_self,
    List.eraseIdx_cons_zero, List.zipIdx_append, List.zipIdx_append, List.zipIdx_cons,
    List.filter_append, List.filter_append, Nat.zero_add, filter_zipIdx_behind hrest,
    List.filter_cons_of_neg (by simp), filter_zipIdx_behind hcons, hfront, List.map_append,
    List.map_append, List.zipIdx_map_fst, List.zipIdx_map_fst]

theorem deleteAll_of_descending {positions : List Nat} {items : List α}
    (h : positions.Pairwise (· > ·)) (hbounds : ∀ i ∈ positions, i < items.length) :
    deleteAll positions items = keeping positions items := by
  induction positions generalizing items with
  | nil =>
    have hall : items.zipIdx.filter (fun e => e.2 ∉ []) = items.zipIdx :=
      filter_zipIdx_behind (by simp) items
    rw [keeping, hall, List.zipIdx_map_fst]
    rfl
  | cons i rest ih =>
    obtain ⟨hrest, hdescending⟩ := List.pairwise_cons.1 h
    have hi := hbounds i List.mem_cons_self
    have hbelow : ∀ j ∈ rest, j < (items.eraseIdx i).length := by
      intro j hj
      have hlt := hrest j hj
      rw [List.length_eraseIdx_of_lt hi]
      omega
    rw [deleteAll_cons, ih hdescending hbelow, keeping_eraseIdx hi hrest]

/-! ## In any other order -/

section Ascending

variable {xs : List Nat} (h : xs.Pairwise (· < ·))
include h

/-- The elements of an ascending list grow at least as fast as their places. -/
theorem add_le_getElem {i : Nat} (d : Nat) (hlt : i + d < xs.length) : xs[i] + d ≤ xs[i + d] := by
  induction d with
  | zero => exact Nat.le_refl _
  | succ d ih =>
    have hprevious := ih (by omega)
    have hstep := List.pairwise_iff_getElem.1 h (i + d) (i + d + 1) (by omega) hlt (by omega)
    show xs[i] + (d + 1) ≤ xs[i + d + 1]
    omega

theorem le_getElem {i : Nat} (hi : i < xs.length) : i ≤ xs[i] := by
  have hfirst := add_le_getElem h (i := 0) i (by omega)
  simp only [Nat.zero_add] at hfirst
  omega

/-- Where an element is its own place, so are all elements before it. -/
theorem mem_of_getElem?_self {i j : Nat} (hj : xs[j]? = some j) (hij : i ≤ j) : i ∈ xs := by
  obtain ⟨hlt, hself⟩ := List.getElem?_eq_some_iff.1 hj
  obtain ⟨d, rfl⟩ := Nat.exists_eq_add_of_le hij
  have hgap := add_le_getElem h d hlt
  have hle := le_getElem h (i := i) (by omega)
  have heq : xs[i] = i := by omega
  exact List.mem_of_getElem heq

end Ascending

/-- The sum of the weights of some places: of `n` places the first is the heaviest, and the last one
    weighs 1. -/
def weight (n : Nat) : (places : List Nat) → Nat
  | [] => 0
  | i :: rest => n - i + weight n rest

/-- The deletions take away as much as they can, which is the weight of their positions. -/
def Exact (n : Nat) (positions xs : List Nat) : Prop :=
  weight n xs = weight n (deleteAll positions xs) + weight n positions

theorem weight_cons (n i : Nat) (rest : List Nat) : weight n (i :: rest) = n - i + weight n rest :=
  rfl

theorem weight_append (n : Nat) (front back : List Nat) :
    weight n (front ++ back) = weight n front + weight n back := by
  induction front with
  | nil => exact (Nat.zero_add _).symm
  | cons i rest ih => rw [List.cons_append, weight_cons, weight_cons, ih, Nat.add_assoc]

theorem weight_perm (n : Nat) {places others : List Nat} (h : places.Perm others) :
    weight n places = weight n others := by
  induction h with
  | nil => rfl
  | cons i _ ih => rw [weight_cons, weight_cons, ih]
  | swap i j rest => rw [weight_cons, weight_cons, weight_cons, weight_cons, Nat.add_left_comm]
  | trans _ _ ih ih' => rw [ih, ih']

section Weight

variable {n : Nat} {xs : List Nat} (h : xs.Pairwise (· < ·))
include h

/-- A deletion at a position never takes away more than the weight of that place, and as much only
    if it finds the place itself there. -/
theorem weight_eraseIdx_le (i : Nat) :
    weight n xs ≤ weight n (xs.eraseIdx i) + (n - i) ∧
      (i < n → weight n xs = weight n (xs.eraseIdx i) + (n - i) → xs[i]? = some i) := by
  rcases Nat.lt_or_ge i xs.length with hi | hi
  · have hperm := weight_perm n (List.getElem_cons_eraseIdx_perm hi)
    have hle := le_getElem h hi
    rw [weight_cons] at hperm
    refine ⟨by omega, fun hn heq => ?_⟩
    have hself : xs[i] = i := by omega
    rw [List.getElem?_eq_getElem hi, hself]
  · rw [List.eraseIdx_of_length_le hi]
    exact ⟨by omega, fun hn heq => by omega⟩

theorem weight_le (positions : List Nat) :
    weight n xs ≤ weight n (deleteAll positions xs) + weight n positions := by
  induction positions generalizing xs with
  | nil => exact Nat.le_refl _
  | cons i rest ih =>
    have hstep := (weight_eraseIdx_le (n := n) h i).1
    have hrest := ih (h.eraseIdx i)
    rw [deleteAll_cons, weight_cons]
    omega

/-- If deletions are exact, so is each of them. -/
theorem exact_cons {i : Nat} {rest : List Nat} (hi : i < n) (hexact : Exact n (i :: rest) xs) :
    xs[i]? = some i ∧ Exact n rest (xs.eraseIdx i) := by
  obtain ⟨hstep, hself⟩ := weight_eraseIdx_le (n := n) h i
  have hrest := weight_le (n := n) (h.eraseIdx i) rest
  rw [Exact, deleteAll_cons, weight_cons] at hexact
  exact ⟨hself hi (by omega), by rw [Exact]; omega⟩

variable {positions : List Nat} (hbounds : ∀ i ∈ positions, i < n) (hexact : Exact n positions xs)
include hbounds hexact

/-- Exact deletions stay before a place that is missing already. -/
theorem lt_of_exact {i : Nat} (hi : i ∉ xs) : ∀ j ∈ positions, j < i := by
  induction positions generalizing xs with
  | nil => exact fun j hj => absurd hj List.not_mem_nil
  | cons j rest ih =>
    obtain ⟨hj, hrest⟩ := List.forall_mem_cons.1 hbounds
    obtain ⟨hself, hexact'⟩ := exact_cons h hj hexact
    refine List.forall_mem_cons.2 ⟨?_, ?_⟩
    · exact Nat.lt_of_not_le fun hle => hi (mem_of_getElem?_self h hself hle)
    · exact ih (h.eraseIdx j) hrest hexact' fun hmem => hi ((xs.eraseIdx_subset) hmem)

theorem descending_of_exact : positions.Pairwise (· > ·) := by
  induction positions generalizing xs with
  | nil => exact List.Pairwise.nil
  | cons i rest ih =>
    obtain ⟨hi, hrest⟩ := List.forall_mem_cons.1 hbounds
    obtain ⟨hself, hexact'⟩ := exact_cons h hi hexact
    have hmissing : i ∉ xs.eraseIdx i := by
      rw [List.mem_eraseIdx_iff_getElem?]
      rintro ⟨j, hne, hj⟩
      have hnodup : xs.Nodup := h.imp Nat.ne_of_lt
      obtain ⟨hlt, -⟩ := List.getElem?_eq_some_iff.1 hj
      exact hne ((List.getElem?_inj hlt hnodup).1 (hj.trans hself.symm))
    exact List.Pairwise.cons (lt_of_exact (h.eraseIdx i) hrest hexact' hmissing)
      (ih (h.eraseIdx i) hrest hexact')

end Weight

/-- Deletions that leave the other places are exact. -/
theorem exact_of_filter {n : Nat} {positions : List Nat} (hdistinct : positions.Nodup)
    (hbounds : ∀ i ∈ positions, i < n)
    (h : deleteAll positions (List.range n) = (List.range n).filter (· ∉ positions)) :
    Exact n positions (List.range n) := by
  have hperm : ((List.range n).filter (· ∈ positions)).Perm positions := by
    refine (List.perm_ext_iff_of_nodup (List.nodup_range.filter _) hdistinct).2 fun i => ?_
    rw [List.mem_filter, List.mem_range, decide_eq_true_eq]
    exact and_iff_right_of_imp (hbounds i)
  have hsplit := weight_perm n (List.filter_append_perm (· ∈ positions) (List.range n))
  simp only [← decide_not] at hsplit
  rw [weight_append, weight_perm n hperm, ← h] at hsplit
  rw [Exact]
  omega

/-- The elements of a list without equal ones can be told apart by their places. -/
theorem deleteAll_range {positions : List Nat} {items : List α} (hitems : items.Nodup)
    (h : deleteAll positions items = keeping positions items) :
    deleteAll positions (List.range items.length) =
      (List.range items.length).filter (· ∉ positions) := by
  classical
  have hplace : ∀ e ∈ items.zipIdx, items.idxOf e.1 = e.2 := by
    intro e he
    obtain ⟨hlt, hget⟩ := List.getElem?_eq_some_iff.1 (List.mk_mem_zipIdx_iff_getElem?.1 he)
    rw [← hget, hitems.idxOf_getElem]
  have hrange : items.zipIdx.map Prod.snd = List.range items.length := by
    rw [List.zipIdx_map_snd, List.range_eq_range']
  have hplaces : items.map (items.idxOf ·) = List.range items.length := by
    have hpairs : (items.zipIdx.map Prod.fst).map (items.idxOf ·) = items.zipIdx.map Prod.snd := by
      rw [List.map_map]
      exact List.map_congr_left hplace
    rw [← hrange, ← hpairs, List.zipIdx_map_fst]
  calc deleteAll positions (List.range items.length)
      = (deleteAll positions items).map (items.idxOf ·) := by rw [← hplaces, deleteAll_map]
    _ = (items.zipIdx.filter fun e => e.2 ∉ positions).map fun e => items.idxOf e.1 := by
        rw [h, keeping, List.map_map]
        rfl
    _ = (items.zipIdx.filter fun e => e.2 ∉ positions).map Prod.snd :=
        List.map_congr_left fun e he => hplace e (List.mem_filter.1 he).1
    _ = (List.range items.length).filter (· ∉ positions) := by
        rw [← hrange, List.filter_map]
        rfl

/-- If exactly the elements at the positions are gone in the end, and no two elements are equal, the
    positions were listed from the greatest to the least. -/
theorem descending_of_deleteAll {positions : List Nat} {items : List α} (hitems : items.Nodup)
    (hdistinct : positions.Nodup) (hbounds : ∀ i ∈ positions, i < items.length)
    (h : deleteAll positions items = keeping positions items) : positions.Pairwise (· > ·) := by
  have hexact := exact_of_filter hdistinct hbounds (deleteAll_range hitems h)
  exact descending_of_exact List.pairwise_lt_range hbounds hexact

end DataBinding.Positions
