import DataBinding.Proofs.Expr.RoundTrip

/-!
# Chains of members

A dotted path whose first segment is the name of a variable is also the text of an expression: of
the members of the variable, one after the other. Members do not nest, so only the number of
operators limits the length of such a path.

Results:
* `opensSuffix_members`: the reader goes on through all names of a chain.
* `parse_members`: the text of a chain is parsed as its members.
* `trim_members`: nothing is trimmed from it.
-/

namespace DataBinding.Expr

/-! ## Chains and their text -/

/-- The name can stand after a point. Unlike the name of a variable it may start with a digit and
    be a reserved word. -/
def isMemberName (name : String) : Bool := !name.toList.isEmpty && name.toList.all isNameChar

/-- The members of `e` with these names, each of the one before it. -/
def members (e : Expr) (names : List String) : Expr := names.foldl member e

/-- The names, each with a point in front. -/
def membersText (names : List String) : List Char := names.flatMap fun name => '.' :: name.toList

theorem membersText_cons (name : String) (rest : List String) :
    membersText (name :: rest) = '.' :: name.toList ++ membersText rest := by
  rw [membersText, List.flatMap_cons]
  rfl

theorem isMemberName_iff {name : String} :
    isMemberName name = true ↔ name.toList ≠ [] ∧ ∀ c ∈ name.toList, isNameChar c = true := by
  rw [isMemberName, Bool.and_eq_true, Bool.not_eq_true', List.isEmpty_eq_false_iff,
    List.all_eq_true]

theorem operators_members (e : Expr) (names : List String) :
    (members e names).operators = e.operators + names.length := by
  induction names generalizing e with
  | nil => rfl
  | cons name rest ih =>
    have hrest := ih (member e name)
    rw [operators] at hrest
    rw [List.length_cons]
    show (members (member e name) rest).operators = _
    omega

theorem delimited_membersText (names : List String) : Delimited (membersText names) := by
  cases names with
  | nil => exact delimited_nil
  | cons name rest =>
    rw [membersText_cons]
    exact delimited_cons _ (by decide)

/-! ## Reading a chain -/

variable {inner : Nesting}

theorem opensSuffix_members {text : List Char} {e : Expr} (h : OpensSuffix inner text e)
    (he : e.isNumber = false) {names : List String}
    (hn : ∀ name ∈ names, isMemberName name = true) :
    OpensSuffix inner (text ++ membersText names) (members e names) := by
  induction names generalizing text e with
  | nil =>
    show OpensSuffix inner (text ++ []) e
    rw [List.append_nil]
    exact h
  | cons name rest ih =>
    obtain ⟨hname, hrest⟩ := List.forall_mem_cons.1 hn
    obtain ⟨hne, hchars⟩ := isMemberName_iff.1 hname
    have hone := h.property hne hchars (by simp [he])
    rw [membersText_cons, ← List.append_assoc]
    exact ih hone rfl hrest

variable {first : String} {names : List String}

theorem startsAt_members (hf : isVariable first = true) :
    StartsAt suffixPrecedence (first.toList ++ membersText names) := by
  obtain ⟨c, cs, ht, hc⟩ := (readable_ident hf).starts.operand suffix_le_primary
  have hs : StartsAt suffixPrecedence first.toList :=
    { (readable_ident hf).starts with operand := fun _ => ⟨c, cs, ht, hc⟩ }
  exact hs.append (delimited_membersText names)

theorem parse_members (hf : isVariable first = true)
    (hn : ∀ name ∈ names, isMemberName name = true) (hlen : names.length ≤ maxOperators) :
    parse (first.toList ++ membersText names) = .ok (members (ident first) names) := by
  have hfirst : OpensSuffix (.upTo maxNesting) first.toList (ident first) :=
    ((readable_ident hf).own maxNesting (Nat.zero_le _)).suffix suffix_le_primary
  have hs : StartsAt suffixPrecedence (first.toList ++ membersText names) := startsAt_members hf
  obtain ⟨c, cs, ht, hc⟩ := hs.operand (Nat.le_refl _)
  have h8 := (opensSuffix_members hfirst rfl hn).readsAt.eight ht hc
  have h0 := (h8.descend hs.toLeads (Nat.le_refl 2) (by decide) (Nat.le_refl 8)).zero
  refine h0.parse ?_
  rw [operators_members]
  show 0 + names.length ≤ maxOperators
  omega

theorem closed_members (hf : isVariable first = true)
    (hn : ∀ name ∈ names, isMemberName name = true) :
    Closed (first.toList ++ membersText names) := by
  rcases List.eq_nil_or_concat names with rfl | ⟨front, last, rfl⟩
  · show Closed (first.toList ++ [])
    rw [List.append_nil]
    exact closed_ident hf
  · obtain ⟨hne, hchars⟩ := isMemberName_iff.1 (hn last (by simp))
    have hlast : membersText (front ++ [last]) = membersText front ++ '.' :: last.toList := by
      simp [membersText]
    rw [List.concat_eq_append, hlast, ← List.append_assoc]
    exact ((closed_name hne hchars).cons '.').append _

theorem trim_members (hf : isVariable first = true)
    (hn : ∀ name ∈ names, isMemberName name = true) :
    Text.trim (first.toList ++ membersText names) = first.toList ++ membersText names :=
  (closed_members hf hn).trim_eq (startsAt_members hf).front

end DataBinding.Expr
