import DataBinding.Value.Number

/-!
# Documents

A `Value` is a document or a part of one. An object is a list of fields in the order in which
their keys were first written; operations keep that order.

Results:
* `Fields.get?_insert_self`, `Fields.get?_insert_of_ne`: reading after a write.
* `Fields.insert_of_get?`: writing what is there already changes nothing.
* `Fields.insert_insert`: of two writes under one key the last counts.
* `Fields.get?_erase_of_ne`: erasing a key leaves the others.
* `Fields.erase_of_get?_eq_none`: erasing a key that is not there changes nothing.
-/

namespace DataBinding

/-- A document. -/
inductive Value where
  | null
  | bool (b : Bool)
  | number (n : Number)
  | text (s : String)
  | array (items : List Value)
  | object (fields : List (String × Value))
deriving Inhabited, Repr

/-- The fields of an object, in order. No key is meant to occur twice. -/
abbrev Fields := List (String × Value)

namespace Fields

/-- The value under a key. -/
def get? (key : String) : Fields → Option Value
  | [] => none
  | (k, v) :: rest => if k = key then some v else get? key rest

def contains (key : String) (fields : Fields) : Bool := (get? key fields).isSome

/-- The fields with `value` under `key`: in its place if the key is there, else at the end. -/
def insert (key : String) (value : Value) : Fields → Fields
  | [] => [(key, value)]
  | (k, v) :: rest => if k = key then (k, value) :: rest else (k, v) :: insert key value rest

/-- The fields without `key`, the others in their order. -/
def erase (key : String) : Fields → Fields
  | [] => []
  | (k, v) :: rest => if k = key then rest else (k, v) :: erase key rest

theorem get?_insert_self (key : String) (value : Value) (fields : Fields) :
    get? key (insert key value fields) = some value := by
  induction fields with
  | nil => simp [insert, get?]
  | cons f rest ih => by_cases h : f.1 = key <;> simp [insert, get?, h, ih]

theorem get?_insert_of_ne {key other : String} (h : other ≠ key) (value : Value) (fields : Fields) :
    get? other (insert key value fields) = get? other fields := by
  induction fields with
  | nil => simp [insert, get?, Ne.symm h]
  | cons f rest ih =>
    by_cases hk : f.1 = key
    · simp [insert, get?, hk, Ne.symm h]
    · by_cases ho : f.1 = other <;> simp [insert, get?, hk, ho, ih, h]

theorem insert_of_get? {key : String} {value : Value} {fields : Fields}
    (h : get? key fields = some value) : insert key value fields = fields := by
  induction fields with
  | nil => cases h
  | cons f rest ih =>
    obtain ⟨k, v⟩ := f
    by_cases hk : k = key
    · simp only [get?, hk, if_true] at h
      simp only [insert, hk, if_true, Option.some.inj h]
    · simp only [get?, hk, if_false] at h
      simp only [insert, hk, if_false, ih h]

theorem insert_insert (key : String) (value old : Value) (fields : Fields) :
    insert key value (insert key old fields) = insert key value fields := by
  induction fields with
  | nil => simp [insert]
  | cons f rest ih =>
    obtain ⟨k, v⟩ := f
    by_cases hk : k = key <;> simp [insert, hk, ih]

theorem get?_erase_of_ne {key other : String} (h : other ≠ key) (fields : Fields) :
    get? other (erase key fields) = get? other fields := by
  induction fields with
  | nil => simp [erase]
  | cons f rest ih =>
    by_cases hk : f.1 = key
    · simp [erase, get?, hk, Ne.symm h]
    · by_cases ho : f.1 = other <;> simp [erase, get?, hk, ho, ih, h]

theorem erase_of_get?_eq_none {key : String} {fields : Fields} (h : get? key fields = none) :
    erase key fields = fields := by
  induction fields with
  | nil => rfl
  | cons f rest ih =>
    by_cases hk : f.1 = key
    · simp [get?, hk] at h
    · simp only [get?, hk, if_false] at h
      simp [erase, hk, ih h]

end Fields

namespace Value

/-! ## Views of one kind -/

def text? : Value → Option String
  | text s => some s
  | _ => none

def array? : Value → Option (List Value)
  | array items => some items
  | _ => none

def object? : Value → Option Fields
  | object fields => some fields
  | _ => none

def number? : Value → Option Number
  | number n => some n
  | _ => none

def isNull : Value → Bool
  | null => true
  | _ => false

/-- An array or an object. -/
def isContainer : Value → Bool
  | array _ => true
  | object _ => true
  | _ => false

/-- A count as a number of a document. -/
def ofNat (n : Nat) : Value := number (.integer n)

/-- The value that stands for a double: `null` if the double is not finite. -/
def ofDouble (x : Double) : Value := ((Number.ofDouble? x).map number).getD null

/-! ## Structural equality -/

mutual

/-- The same document, up to the order of keys. -/
def same : Value → Value → Bool
  | null, null => true
  | bool a, bool b => a == b
  | number a, number b => a.same b
  | text a, text b => a == b
  | array a, array b => sameItems a b
  | object a, object b => a.length == b.length && sameFields a b
  | _, _ => false

/-- The same elements at the same positions. -/
def sameItems : List Value → List Value → Bool
  | [], [] => true
  | a :: as, b :: bs => same a b && sameItems as bs
  | _, _ => false

/-- Each field of the first object has the same value in the second. -/
def sameFields : Fields → Fields → Bool
  | [], _ => true
  | (key, a) :: rest, others => (Fields.get? key others).any (same a) && sameFields rest others

end

end Value

end DataBinding
