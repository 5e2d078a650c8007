import DataBinding.Text.Search

/-!
# Arguments of a command

An argument that starts with a dash is an option, a single dash aside. An option may carry its
value after `=` or in the next argument; after `--` every argument is plain. The verbosity option
may be given anywhere and any number of times, every other option once.

Results:
* `Known.addValue?`, `Known.addSwitch?`: an option is added if the command takes it, and only once.
* `known_parseInto`, `known_parse?`: what is read off a command line is what the command takes.
-/

namespace DataBinding

/-- What a command takes: how many plain arguments, options with a value, and switches. -/
structure Usage where
  positionals : Nat
  valued : List String
  switches : List String
  /-- The options that must be given. -/
  required : List String
deriving DecidableEq, Repr

/-- The arguments of a command, sorted by what they are. -/
structure Arguments where
  positionals : List String
  values : List (String × String)
  switches : List String
deriving DecidableEq, Repr

namespace Arguments

def empty : Arguments := ⟨[], [], []⟩

def addPositional (a : Arguments) (s : String) : Arguments :=
  { a with positionals := a.positionals ++ [s] }

/-- The value of an option. -/
def value? (a : Arguments) (option : String) : Option String := a.values.lookup option

def hasSwitch (a : Arguments) (switch : String) : Bool := a.switches.contains switch

/-- The arguments with one more option, unless it is there already. -/
def addValue? (a : Arguments) (option value : String) : Option Arguments :=
  if (a.value? option).isSome then none
  else some { a with values := (option, value) :: a.values }

/-- The arguments with one more switch, unless it is there already. -/
def addSwitch? (a : Arguments) (switch : String) : Option Arguments :=
  if a.hasSwitch switch then none else some { a with switches := switch :: a.switches }

/-- The argument starts with a dash and is more than that. -/
def isOption (s : String) : Bool :=
  match s.toList with
  | '-' :: _ :: _ => true
  | _ => false

/-- A group of verbosity letters after one dash, or the long form of that option. -/
def isVerbosity (s : String) : Bool :=
  s = "--verbose" || match s.toList with
    | '-' :: letters => !letters.isEmpty && letters.all (· == 'v')
    | _ => false

/-- The name and the attached value of a long option. -/
def longOption? (s : String) : Option (String × Option String) :=
  match Text.dropPrefix? ['-', '-'] s.toList with
  | none => none
  | some cs =>
    let name := String.ofList (cs.takeWhile (· != '='))
    match cs.dropWhile (· != '=') with
    | [] => some (name, none)
    | _ :: value => some (name, some (String.ofList value))

/-- The arguments of a command, added to those read before. -/
def parseInto (usage : Usage) : List String → Arguments → Option Arguments
  | [], a => some a
  | s :: rest, a =>
    if s = "--" then some (rest.foldl addPositional a)
    else if !isOption s then parseInto usage rest (a.addPositional s)
    else if isVerbosity s then parseInto usage rest a
    else match longOption? s with
      | none => none
      | some (name, attached) =>
        if usage.switches.contains name then
          if attached.isSome then none
          else (a.addSwitch? name).bind fun a => parseInto usage rest a
        else if !usage.valued.contains name then none
        else match attached with
          | some value => (a.addValue? name value).bind fun a => parseInto usage rest a
          | none =>
            match rest with
            | [] => none
            | value :: rest =>
              if isOption value then none
              else (a.addValue? name value).bind fun a => parseInto usage rest a

/-- The arguments of a command, if they are what the command takes. -/
def parse? (usage : Usage) (args : List String) : Option Arguments := do
  let a ← parseInto usage args empty
  if a.positionals.length = usage.positionals ∧ usage.required.all fun o => (a.value? o).isSome then
    some a
  else none

/-! ## What is read -/

/-- Every option and switch is one that the command takes, and is there only once. -/
structure Known (usage : Usage) (a : Arguments) : Prop where
  values : ∀ entry ∈ a.values, entry.1 ∈ usage.valued
  once : (a.values.map Prod.fst).Nodup
  switches : ∀ switch ∈ a.switches, switch ∈ usage.switches
  switchesOnce : a.switches.Nodup

variable {usage : Usage} {a b : Arguments}

theorem known_empty (usage : Usage) : Known usage empty :=
  ⟨List.forall_mem_nil _, List.nodup_nil, List.forall_mem_nil _, List.nodup_nil⟩

theorem Known.addPositional (h : Known usage a) (s : String) : Known usage (a.addPositional s) :=
  ⟨h.values, h.once, h.switches, h.switchesOnce⟩

theorem Known.foldl_addPositional (h : Known usage a) (args : List String) :
    Known usage (args.foldl Arguments.addPositional a) := by
  induction args generalizing a with
  | nil => exact h
  | cons s rest ih => exact ih (h.addPositional s)

theorem Known.addValue? (h : Known usage a) {option value : String} (ho : option ∈ usage.valued)
    (hb : a.addValue? option value = some b) : Known usage b := by
  unfold Arguments.addValue? at hb
  split at hb
  · cases hb
  · rename_i hnew
    obtain rfl := Option.some.inj hb
    refine ⟨List.forall_mem_cons.2 ⟨ho, h.values⟩, List.nodup_cons.2 ⟨?_, h.once⟩, h.switches,
      h.switchesOnce⟩
    intro hmem
    obtain ⟨entry, hentry, rfl⟩ := List.mem_map.1 hmem
    rw [Option.not_isSome_iff_eq_none, Arguments.value?, List.lookup_eq_none_iff] at hnew
    simpa using hnew entry hentry

theorem Known.addSwitch? (h : Known usage a) {switch : String} (hs : switch ∈ usage.switches)
    (hb : a.addSwitch? switch = some b) : Known usage b := by
  unfold Arguments.addSwitch? at hb
  split at hb
  · cases hb
  · rename_i hnew
    obtain rfl := Option.some.inj hb
    refine ⟨h.values, h.once, List.forall_mem_cons.2 ⟨hs, h.switches⟩,
      List.nodup_cons.2 ⟨?_, h.switchesOnce⟩⟩
    intro hmem
    exact hnew (List.contains_iff_mem.2 hmem)

/-- The induction follows the arguments: each is plain, or the verbosity option, or a switch, or an
    option whose value is attached or comes next. -/
theorem known_parseInto {args : List String} (h : Known usage a)
    (hb : parseInto usage args a = some b) : Known usage b := by
  fun_induction parseInto usage args a with
  | case1 a =>
    obtain rfl := Option.some.inj hb
    exact h
  | case2 => exact Option.some.inj hb ▸ h.foldl_addPositional _
  | case3 _ _ _ _ _ ih => exact ih (h.addPositional _) hb
  | case4 _ _ _ _ _ _ ih => exact ih h hb
  | case5 | case6 | case8 | case10 | case11 => cases hb
  | case7 _ _ _ _ _ _ _ _ _ hswitch _ ih =>
    obtain ⟨more, hmore, hrest⟩ := Option.bind_eq_some_iff.1 hb
    exact ih more (h.addSwitch? (List.contains_iff_mem.1 hswitch) hmore) hrest
  | case9 _ _ _ _ _ _ _ _ hvalued _ _ ih =>
    obtain ⟨more, hmore, hrest⟩ := Option.bind_eq_some_iff.1 hb
    exact ih more (h.addValue? (by simpa using hvalued) hmore) hrest
  | case12 _ _ _ _ _ _ _ hvalued _ _ _ _ ih =>
    obtain ⟨more, hmore, hrest⟩ := Option.bind_eq_some_iff.1 hb
    exact ih more (h.addValue? (by simpa using hvalued) hmore) hrest

/-- A command gets as many plain arguments as it takes, every option that it requires, and no other
    option than those that it takes. -/
theorem known_parse? {args : List String} (h : parse? usage args = some a) :
    Known usage a ∧ a.positionals.length = usage.positionals ∧
      ∀ option ∈ usage.required, (a.value? option).isSome = true := by
  unfold parse? at h
  obtain ⟨read, hread, hchecked⟩ := Option.bind_eq_some_iff.1 h
  split at hchecked
  · rename_i hfits
    obtain rfl := Option.some.inj hchecked
    exact ⟨known_parseInto (known_empty usage) hread, hfits.1, List.all_eq_true.1 hfits.2⟩
  · cases hchecked

end Arguments

end DataBinding
