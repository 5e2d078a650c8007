import DataBinding.Expr.Parser
import DataBinding.Expr.Printer

/-!
# The plain form of an expression

Printing writes membership as a call of `includes`, the functions `len` and `str` as `.length` and
`String`, and a property of digits as an index. The plain form of an expression has these parts in
the form in which they are written.

Results:
* `exists_cons_of_isVariable`, `exists_nat_of_isLiteral`: what names and integer literals are.
* `depth_le_height`: brackets, branches and unary operators nest at most three times as deep as
  the tree, and once more at a leaf.
* `isNumber_desugar`: the plain form is a number literal only for a number literal.
-/

namespace DataBinding.Expr

/-! ## Expressions that can be written -/

/-- The words that are literals or operators, and so are no names of variables. -/
def reservedWords : List String :=
  ["true", "True", "false", "False", "null", "None", "undefined"] ++ operatorWords

/-- The name of a variable: a name that is no reserved word. -/
def isVariable (name : String) : Bool :=
  name ∉ reservedWords &&
    match name.toList with
    | [] => false
    | c :: cs => isNameStart c && cs.all isNameChar

theorem exists_cons_of_isVariable {name : String} (h : isVariable name = true) :
    ∃ c cs, name.toList = c :: cs ∧ isNameStart c = true ∧ ∀ d ∈ c :: cs, isNameChar d = true := by
  simp only [isVariable, Bool.and_eq_true] at h
  obtain ⟨-, hname⟩ := h
  split at hname
  · simp at hname
  · rename_i c cs hcs
    simp only [Bool.and_eq_true, List.all_eq_true] at hname
    refine ⟨c, cs, hcs, hname.1, fun d hd => ?_⟩
    rcases List.mem_cons.1 hd with rfl | hd
    · exact isNameChar_of_isNameStart hname.1
    · exact hname.2 d hd

def isNumber : Expr → Bool
  | literal (.number _) => true
  | _ => false

/-- The property can be written after `object`. A property of digits is an integer of 64 bits with
    a sign. After a number, no other property starts with a digit: the digit would belong to the
    number. -/
def isProperty (object : Expr) (property : String) : Bool :=
  let cs := property.toList
  !cs.isEmpty && cs.all isNameChar &&
    if cs.all Text.isDigit then Text.digitsValue cs < signBit
    else !(object.isNumber && cs.head?.any Text.isDigit)

/-- The value has a literal: text, a truth value, `null`, or an integer from `0` to `2 ^ 53`. -/
def isLiteral : Value → Bool
  | .null | .bool _ | .text _ => true
  | .number (.integer n) => 0 ≤ n && n ≤ (significandBound : Int)
  | _ => false

theorem exists_nat_of_isLiteral {n : Int} (h : isLiteral (.number (.integer n)) = true) :
    ∃ m : Nat, n = m ∧ m ≤ significandBound := by
  simp only [isLiteral, Bool.and_eq_true, decide_eq_true_eq] at h
  exact ⟨n.toNat, by omega, by omega⟩

mutual

/-- All names, properties and literals of an expression can be written. -/
def wellFormed : Expr → Bool
  | literal v => isLiteral v
  | undefined => true
  | array items => wellFormedAll items
  | ident name => isVariable name
  | member object property => wellFormed object && isProperty object property
  | index object key => wellFormed object && wellFormed key
  | call callee args => wellFormed callee && wellFormedAll args
  | unary _ operand => wellFormed operand
  | binary _ left right => wellFormed left && wellFormed right
  | membership _ needle haystack => wellFormed needle && wellFormed haystack
  | conditional test consequent alternate =>
    wellFormed test && wellFormed consequent && wellFormed alternate

def wellFormedAll : List Expr → Bool
  | [] => true
  | e :: rest => wellFormed e && wellFormedAll rest

end

/-! ## Plain forms -/

/-- The integer literal of digits. -/
def digitsLiteral (digits : List Char) : Expr := literal (.ofNat (Text.digitsValue digits))

/-- A member in its plain form, from the plain form of its object. -/
def plainMember (object : Expr) (property : String) : Expr :=
  if property.toList.all Text.isDigit then index object (digitsLiteral property.toList)
  else member object property

/-- A call in its plain form, from its callee and the plain forms of its callee and arguments. -/
def plainCall (callee plainCallee : Expr) (args : List Expr) : Expr :=
  match callee, args with
  | ident "len", [e] => member e "length"
  | ident "str", args => call (ident "String") args
  | _, args => call plainCallee args

/-- A membership in its plain form, from the plain forms of its sides. -/
def plainMembership (negated : Bool) (needle haystack : Expr) : Expr :=
  let found := call (member haystack "includes") [needle]
  if negated then unary .not found else found

mutual

/-- The plain form of an expression. -/
def desugar : Expr → Expr
  | literal v => literal v
  | undefined => undefined
  | array items => array (desugarAll items)
  | ident name => ident name
  | member object property => plainMember (desugar object) property
  | index object key => index (desugar object) (desugar key)
  | call callee args => plainCall callee (desugar callee) (desugarAll args)
  | unary op operand => unary op (desugar operand)
  | binary op left right => binary op (desugar left) (desugar right)
  | membership negated needle haystack =>
    plainMembership negated (desugar needle) (desugar haystack)
  | conditional test consequent alternate =>
    conditional (desugar test) (desugar consequent) (desugar alternate)

def desugarAll : List Expr → List Expr
  | [] => []
  | e :: rest => desugar e :: desugarAll rest

end

theorem isNumber_desugar (e : Expr) : e.desugar.isNumber = e.isNumber := by
  cases e with
  | member object property =>
    simp only [desugar, plainMember]
    split <;> rfl
  | call callee args =>
    simp only [desugar, plainCall]
    split <;> rfl
  | membership negated needle haystack => cases negated <;> rfl
  | _ => rfl

theorem length_desugarAll (es : List Expr) : (desugarAll es).length = es.length := by
  induction es with
  | nil => rfl
  | cons e rest ih => simp [desugarAll, ih]

/-! ## Sizes -/

mutual

/-- The number of binary operators, memberships, members, indices and calls. -/
def operators : Expr → Nat
  | literal _ | undefined | ident _ => 0
  | array items => operatorsAll items
  | member object _ => operators object + 1
  | index object key => operators object + operators key + 1
  | call callee args => operators callee + operatorsAll args + 1
  | unary _ operand => operators operand
  | binary _ left right => operators left + operators right + 1
  | membership _ needle haystack => operators needle + operators haystack + 1
  | conditional test consequent alternate =>
    operators test + operators consequent + operators alternate

def operatorsAll : List Expr → Nat
  | [] => 0
  | e :: rest => operators e + operatorsAll rest

end

mutual

/-- The number of edges on the longest way down from the root. -/
def height : Expr → Nat
  | literal _ | undefined | ident _ => 0
  | array items => heightBelow items
  | member object _ => height object + 1
  | index object key => max (height object) (height key) + 1
  | call callee args => max (height callee + 1) (heightBelow args)
  | unary _ operand => height operand + 1
  | binary _ left right => max (height left) (height right) + 1
  | membership _ needle haystack => max (height needle) (height haystack) + 1
  | conditional test consequent alternate =>
    max (height test) (max (height consequent) (height alternate)) + 1

/-- The height of a node above these. -/
def heightBelow : List Expr → Nat
  | [] => 0
  | e :: rest => max (height e + 1) (heightBelow rest)

end

/-- The depth of nesting in a place that asks for a precedence: parentheses are one level more. -/
def depthIn (least : Nat) (e : Expr) (depth : Nat) : Nat :=
  if e.precedence < least then depth + 1 else depth

theorem depthIn_le (least : Nat) (e : Expr) (depth : Nat) :
    depthIn least e depth ≤ depth + 1 := by
  rw [depthIn]; split <;> omega

mutual

/-- How deep brackets, branches and unary operators nest in the text of an expression. -/
def depth : Expr → Nat
  | literal _ | undefined | ident _ => 0
  | array items => depthAll items + 1
  | member object property =>
    max (depthIn suffixPrecedence object (depth object))
      (if property.toList.all Text.isDigit then 1 else 0)
  | index object key => max (depthIn suffixPrecedence object (depth object)) (depth key + 1)
  | call callee args => max (depthIn suffixPrecedence callee (depth callee)) (depthAll args + 1)
  | unary _ operand => depthIn unaryPrecedence operand (depth operand) + 1
  | binary op left right =>
    max (depthIn op.precedence left (depth left)) (depthIn (op.precedence + 1) right (depth right))
  | membership negated needle haystack =>
    max (depth haystack) (depth needle) + (if negated then 2 else 1)
  | conditional test consequent alternate =>
    max (depthIn BinaryOp.or.precedence test (depth test))
      (max (depth consequent) (depth alternate) + 1) + 1

def depthAll : List Expr → Nat
  | [] => 0
  | e :: rest => max (depth e) (depthAll rest)

end

mutual

theorem depth_le_height : ∀ e : Expr, e.depth ≤ 3 * e.height + 1
  | literal _ | undefined | ident _ => by simp [depth]
  | array items => by
    have := depthAll_le_height items
    rw [depth, height]
    omega
  | member object property => by
    have h := depth_le_height object
    have hi := depthIn_le suffixPrecedence object object.depth
    rw [depth, height]
    split <;> omega
  | index object key => by
    have ho := depth_le_height object
    have hk := depth_le_height key
    have hi := depthIn_le suffixPrecedence object object.depth
    rw [depth, height]
    omega
  | call callee args => by
    have hc := depth_le_height callee
    have ha := depthAll_le_height args
    have hi := depthIn_le suffixPrecedence callee callee.depth
    rw [depth, height]
    omega
  | unary _ operand => by
    have h := depth_le_height operand
    have hi := depthIn_le unaryPrecedence operand operand.depth
    rw [depth, height]
    omega
  | binary op left right => by
    have hl := depth_le_height left
    have hr := depth_le_height right
    have hil := depthIn_le op.precedence left left.depth
    have hir := depthIn_le (op.precedence + 1) right right.depth
    rw [depth, height]
    omega
  | membership negated needle haystack => by
    have hn := depth_le_height needle
    have hh := depth_le_height haystack
    rw [depth, height]
    split <;> omega
  | conditional test consequent alternate => by
    have ht := depth_le_height test
    have hc := depth_le_height consequent
    have ha := depth_le_height alternate
    have hi := depthIn_le BinaryOp.or.precedence test test.depth
    rw [depth, height]
    omega

/-- Items lie one edge lower than what holds them. -/
theorem depthAll_le_height : ∀ es : List Expr, depthAll es ≤ 3 * heightBelow es
  | [] => by simp [depthAll]
  | e :: rest => by
    have he := depth_le_height e
    have hr := depthAll_le_height rest
    rw [depthAll, heightBelow]
    omega

end

end DataBinding.Expr
