/-!
# Searching, splitting, measuring and ordering text

Text is a list of characters.

Results:
* `dropPrefix?_append`: a text starts with what was put in front of it.
* `eq_append_of_dropPrefix?`, `dropPrefix?_concat`: a prefix that is dropped was there, and nothing
  else in front of the first separator.
* `startsWith_iff`, `occursIn_iff`, `includes_iff`: searching finds prefixes and infixes.
* `suffix_of_findFrom?`, `suffix_findFrom?_of_suffix`: what is found starts with the pattern, and
  every other occurrence comes after it.
* `eq_of_cut?`, `cut?_eq_none_iff`, `not_starts_of_cut?`: a text is cut at the first occurrence of a
  pattern.
* `splitOn_ne_nil`, `splitOn_eq_cons`: splitting gives at least one part, and the first part goes
  up to the first separator.
* `splitOn_append`: what follows a separator is split on its own.
* `compareText_swap`: the order of text is antisymmetric.
-/

namespace DataBinding.Text

/-- What follows `pattern` in a text that starts with it. -/
def dropPrefix? : (pattern : List Char) → (cs : List Char) → Option (List Char)
  | [], cs => some cs
  | _ :: _, [] => none
  | p :: ps, c :: cs => if p = c then dropPrefix? ps cs else none

theorem dropPrefix?_append (p cs : List Char) : dropPrefix? p (p ++ cs) = some cs := by
  induction p with
  | nil => simp [dropPrefix?]
  | cons a p ih => simp [dropPrefix?, ih]

theorem eq_append_of_dropPrefix? {p cs r : List Char} (h : dropPrefix? p cs = some r) :
    cs = p ++ r := by
  induction p generalizing cs with
  | nil => simpa [dropPrefix?] using h
  | cons a p ih =>
    cases cs with
    | nil => simp [dropPrefix?] at h
    | cons c cs =>
      simp only [dropPrefix?] at h
      split at h
      · rename_i hac; simp [hac, ih h]
      · simp at h

/-- A text up to its first separator is dropped only if it is all that stands there. -/
theorem dropPrefix?_concat {separator : Char} {front pattern : List Char} (hf : separator ∉ front)
    (hp : separator ∉ pattern) (back : List Char) :
    dropPrefix? (pattern ++ [separator]) (front ++ separator :: back) =
      if front = pattern then some back else none := by
  induction front generalizing pattern with
  | nil =>
    cases pattern with
    | nil => simp [dropPrefix?]
    | cons p ps =>
      have hne : p ≠ separator := fun h => hp (by simp [h])
      simp [dropPrefix?, hne]
  | cons c cs ih =>
    rw [List.mem_cons, not_or] at hf
    cases pattern with
    | nil => simp [dropPrefix?, hf.1]
    | cons p ps =>
      rw [List.mem_cons, not_or] at hp
      rw [List.cons_append, List.cons_append, dropPrefix?, ih hf.2 hp.2]
      by_cases hc : p = c
      · simp [hc]
      · simp [hc, Ne.symm hc]

/-- The text starts with `pattern`. -/
def startsWith (pattern cs : List Char) : Bool := (dropPrefix? pattern cs).isSome

/-- The text from the first occurrence of `pattern` on. -/
def findFrom? (pattern : List Char) : List Char → Option (List Char)
  | [] => if pattern.isEmpty then some [] else none
  | c :: cs => if startsWith pattern (c :: cs) then some (c :: cs) else findFrom? pattern cs

/-- `pattern` occurs in the text. -/
def occursIn (pattern cs : List Char) : Bool := (findFrom? pattern cs).isSome

theorem startsWith_iff {pattern cs : List Char} : startsWith pattern cs = true ↔ pattern <+: cs := by
  constructor
  · intro h
    obtain ⟨r, hr⟩ := Option.isSome_iff_exists.1 h
    exact ⟨r, (eq_append_of_dropPrefix? hr).symm⟩
  · rintro ⟨r, rfl⟩
    simp [startsWith, dropPrefix?_append]

theorem occursIn_iff {pattern cs : List Char} : occursIn pattern cs = true ↔ pattern <:+: cs := by
  unfold occursIn
  induction cs with
  | nil => cases pattern <;> simp [findFrom?]
  | cons c cs ih =>
    simp only [findFrom?, List.infix_cons_iff, ← startsWith_iff, ← ih]
    split <;> simp_all

theorem suffix_of_findFrom? {pattern cs found : List Char} (h : findFrom? pattern cs = some found) :
    found <:+ cs ∧ pattern <+: found := by
  induction cs with
  | nil =>
    rw [findFrom?] at h
    split at h
    · rename_i hp
      rw [← Option.some.inj h, List.isEmpty_iff.1 hp]
      exact ⟨List.suffix_refl _, List.prefix_refl _⟩
    · cases h
  | cons c cs ih =>
    rw [findFrom?] at h
    split at h
    · rename_i hp
      rw [← Option.some.inj h]
      exact ⟨List.suffix_refl _, startsWith_iff.1 hp⟩
    · obtain ⟨hsuffix, hprefix⟩ := ih h
      exact ⟨hsuffix.trans (List.suffix_cons c cs), hprefix⟩

/-- The first occurrence is found, and a later one is in what is found. -/
theorem suffix_findFrom?_of_suffix {pattern cs rest : List Char} (h : rest <:+ cs)
    (hp : pattern <+: rest) : ∃ found, findFrom? pattern cs = some found ∧ rest <:+ found := by
  induction cs with
  | nil =>
    obtain rfl := List.suffix_nil.1 h
    obtain rfl := List.prefix_nil.1 hp
    exact ⟨[], rfl, List.suffix_refl []⟩
  | cons c cs ih =>
    rw [findFrom?]
    split
    · exact ⟨c :: cs, rfl, h⟩
    · rename_i hstart
      rcases List.suffix_cons_iff.1 h with rfl | h
      · exact absurd (startsWith_iff.2 hp) hstart
      · exact ih h

/-- The text before the first occurrence of `pattern`, and what follows that occurrence. -/
def cut? (pattern : List Char) : List Char → Option (List Char × List Char)
  | [] => if pattern.isEmpty then some ([], []) else none
  | c :: cs =>
    match dropPrefix? pattern (c :: cs) with
    | some rest => some ([], rest)
    | none => (cut? pattern cs).map fun (front, rest) => (c :: front, rest)

theorem eq_of_cut? {pattern cs front rest : List Char} (h : cut? pattern cs = some (front, rest)) :
    cs = front ++ (pattern ++ rest) := by
  induction cs generalizing front with
  | nil =>
    rw [cut?] at h
    split at h
    · rename_i hp
      cases h
      simpa using hp
    · cases h
  | cons c cs ih =>
    rw [cut?] at h
    split at h
    · rename_i hdrop
      cases h
      rw [eq_append_of_dropPrefix? hdrop, List.nil_append]
    · obtain ⟨⟨front', rest'⟩, hcut, heq⟩ := Option.map_eq_some_iff.1 h
      cases heq
      rw [ih hcut, List.cons_append]

theorem length_of_cut? {pattern cs front rest : List Char}
    (h : cut? pattern cs = some (front, rest)) : pattern.length + rest.length ≤ cs.length := by
  rw [eq_of_cut? h, List.length_append, List.length_append]
  omega

theorem cut?_eq_none_iff {pattern cs : List Char} : cut? pattern cs = none ↔ ¬pattern <:+: cs := by
  induction cs with
  | nil => simp [cut?]
  | cons c cs ih =>
    rw [cut?, List.infix_cons_iff, ← startsWith_iff, startsWith]
    cases dropPrefix? pattern (c :: cs) with
    | none => simp [ih]
    | some rest => simp

/-- The pattern starts nowhere in the text before the cut. -/
theorem not_starts_of_cut? {pattern cs front rest : List Char}
    (h : cut? pattern cs = some (front, rest)) {s t : List Char} (ht : front = s ++ t)
    (hne : t ≠ []) : ¬pattern <+: t ++ (pattern ++ rest) := by
  induction cs generalizing front s with
  | nil =>
    rw [cut?] at h
    split at h
    · cases h
      exact absurd (List.append_eq_nil_iff.1 ht.symm).2 hne
    · cases h
  | cons c cs ih =>
    have hcs := eq_of_cut? h
    rw [cut?] at h
    split at h
    · cases h
      exact absurd (List.append_eq_nil_iff.1 ht.symm).2 hne
    · rename_i hdrop
      obtain ⟨⟨front', rest'⟩, hcut, heq⟩ := Option.map_eq_some_iff.1 h
      cases heq
      cases s with
      | nil =>
        rw [List.nil_append] at ht
        rw [← ht, ← hcs, ← startsWith_iff, startsWith, hdrop]
        simp
      | cons d s =>
        rw [List.cons_append, List.cons.injEq] at ht
        exact ih hcut ht.2

theorem not_mem_of_cut?_eq_none {c : Char} {cs : List Char} (h : cut? [c] cs = none) : c ∉ cs := by
  intro hmem
  obtain ⟨s, t, rfl⟩ := List.append_of_mem hmem
  exact cut?_eq_none_iff.1 h ⟨s, t, by simp⟩

theorem not_mem_of_cut? {c : Char} {cs front rest : List Char}
    (h : cut? [c] cs = some (front, rest)) : c ∉ front := by
  intro hmem
  obtain ⟨s, t, ht⟩ := List.append_of_mem hmem
  exact not_starts_of_cut? h ht (List.cons_ne_nil c t) ⟨t ++ ([c] ++ rest), by simp⟩

/-- A text without the first character of the pattern is passed over. -/
theorem cut?_of_not_mem {c : Char} {front : List Char} (h : c ∉ front) (pattern rest : List Char) :
    cut? (c :: pattern) (front ++ (c :: pattern ++ rest)) = some (front, rest) := by
  induction front with
  | nil =>
    rw [List.nil_append, List.cons_append, cut?, ← List.cons_append, dropPrefix?_append]
  | cons d front ih =>
    rw [List.mem_cons, not_or] at h
    rw [List.cons_append, cut?, dropPrefix?, if_neg h.1, ih h.2]
    rfl

/-- The longest pattern that is tried at every place of a text. -/
def maxTried : Nat := 64

/-- `pattern` occurs in the text. A short pattern is tried at every place; a longer one is searched
    in time that does not depend on its length. -/
def includes (pattern : List Char) (s : String) : Bool :=
  if pattern.length ≤ maxTried then occursIn pattern s.toList
  else s.contains (String.ofList pattern)

theorem includes_iff {pattern : List Char} {s : String} :
    includes pattern s = true ↔ pattern <:+: s.toList := by
  unfold includes
  split
  · exact occursIn_iff
  · rw [String.contains_string_iff, String.toList_ofList]

/-- The parts of a text between the separators; an empty text is one empty part. -/
def splitOn (separator : Char) : List Char → List (List Char)
  | [] => [[]]
  | c :: cs =>
    if c = separator then [] :: splitOn separator cs
    else match splitOn separator cs with
      | [] => [[c]]
      | part :: parts => (c :: part) :: parts

theorem splitOn_ne_nil (separator : Char) (cs : List Char) : splitOn separator cs ≠ [] := by
  cases cs with
  | nil => simp [splitOn]
  | cons c cs =>
    simp only [splitOn]
    split
    · simp
    · split <;> simp

/-- The first part goes up to the first separator, if there is one. -/
theorem splitOn_eq_cons {separator : Char} {cs part : List Char} {parts : List (List Char)}
    (h : splitOn separator cs = part :: parts) :
    separator ∉ part ∧ ((parts = [] ∧ cs = part) ∨
      ∃ back, cs = part ++ separator :: back ∧ splitOn separator back = parts) := by
  induction cs generalizing part parts with
  | nil =>
    obtain ⟨rfl, rfl⟩ := List.cons.inj h
    exact ⟨List.not_mem_nil, .inl ⟨rfl, rfl⟩⟩
  | cons c cs ih =>
    rw [splitOn] at h
    split at h
    · rename_i hc
      obtain ⟨rfl, rfl⟩ := List.cons.inj h
      exact ⟨List.not_mem_nil, .inr ⟨cs, by rw [hc, List.nil_append], rfl⟩⟩
    · rename_i hc
      split at h
      · rename_i hnil
        exact absurd hnil (splitOn_ne_nil separator cs)
      · rename_i front more hcs
        obtain ⟨rfl, rfl⟩ := List.cons.inj h
        obtain ⟨hmem, hparts⟩ := ih hcs
        refine ⟨by simp [hmem, Ne.symm hc], ?_⟩
        rcases hparts with ⟨rfl, rfl⟩ | ⟨back, rfl, hback⟩
        · exact .inl ⟨rfl, rfl⟩
        · exact .inr ⟨back, rfl, hback⟩

theorem splitOn_of_not_mem {separator : Char} {cs : List Char} (h : separator ∉ cs) :
    splitOn separator cs = [cs] := by
  induction cs with
  | nil => rfl
  | cons c cs ih =>
    rw [List.mem_cons, not_or] at h
    rw [splitOn, if_neg (Ne.symm h.1), ih h.2]

theorem splitOn_append (separator : Char) (front back : List Char) :
    splitOn separator (front ++ separator :: back) =
      splitOn separator front ++ splitOn separator back := by
  induction front with
  | nil => simp [splitOn]
  | cons c cs ih =>
    rw [List.cons_append, splitOn, splitOn, ih]
    split
    · rfl
    · cases hcs : splitOn separator cs with
      | nil => exact absurd hcs (splitOn_ne_nil separator cs)
      | cons part parts => rfl

/-- The parts joined by a separator. -/
def join (separator : List Char) : List (List Char) → List Char
  | [] => []
  | [part] => part
  | part :: parts => part ++ separator ++ join separator parts

/-- The number of 16-bit units that hold the text: two for a character past U+FFFF, else one. -/
def units16 : List Char → Nat
  | [] => 0
  | c :: cs => (if 0xFFFF < c.toNat then 2 else 1) + units16 cs

/-- The number of bytes that hold the text in UTF-8. -/
def bytes : List Char → Nat
  | [] => 0
  | c :: cs => c.utf8Size + bytes cs

/-- Alphabetical order by code point. -/
def compareText : List Char → List Char → Ordering
  | [], [] => .eq
  | [], _ :: _ => .lt
  | _ :: _, [] => .gt
  | a :: s, b :: t => (compare a.toNat b.toNat).then (compareText s t)

theorem compareText_swap (s t : List Char) : (compareText s t).swap = compareText t s := by
  induction s generalizing t with
  | nil => cases t <;> rfl
  | cons a s ih => cases t <;> simp [compareText, Ordering.swap_then, Nat.compare_swap, ih]

end DataBinding.Text
