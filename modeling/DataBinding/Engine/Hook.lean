import DataBinding.Engine.Basic
import DataBinding.Double.Arithmetic
import DataBinding.Double.Display

/-!
# Hooks

Recomputations of derived fields, run after a patch.

Results:
* `Hook.recompute?_eq_none`: without a list of items there is no total to compute.
-/

namespace DataBinding

namespace CartTotals

def itemsPath : String := "data.cart.items"

def totalPath : String := "data.order.total"

def formattedPath : String := "data.order.totalFormatted"

/-- What follows the digits of a total on screen. -/
def currencySuffix : List Char := [' ', '₽']

/-- The price of an item of the cart, if the item is an object with a number under `price`. -/
def price? (item : Value) : Option Double := do
  let fields ← item.object?
  let price ← Fields.get? "price" fields
  let n ← price.number?
  some n.toDouble

/-- The sum of the prices, from the first item to the last. -/
def total (items : List Value) : Double := (items.filterMap price?).foldl Double.add .zero

/-- A total as it is shown. -/
def formatted (total : Double) : Value :=
  .text (String.ofList (total.groupedText ++ currencySuffix))

/-- The items of the cart, if they are a list. -/
def items? (context : Value) : Option (List Value) :=
  (Path.get? itemsPath context).bind Value.array?

/-- The context with a total, as a number and as it is shown. -/
def withTotal (total : Double) (context : Value) : Value :=
  Path.update formattedPath (some (formatted total))
    (Path.update totalPath (some (.ofDouble total)) context)

/-- The context with the total of its cart, if there is a list of items. -/
def recompute? (context : Value) : Option Value :=
  (items? context).map fun items => withTotal (total items) context

end CartTotals

namespace Hook

/-- The name of a hook in a trace. -/
def name : Hook → String
  | cartTotals => "cart_totals"

/-- The context with its derived fields, if there is anything to recompute. -/
def recompute? : Hook → Value → Option Value
  | cartTotals => CartTotals.recompute?

/-- The context with its derived fields, as it is if there is nothing to recompute. -/
def refresh (hook : Hook) (context : Value) : Value := (hook.recompute? context).getD context

theorem recompute?_eq_none {context : Value} (h : CartTotals.items? context = none) :
    recompute? cartTotals context = none := by
  simp [recompute?, CartTotals.recompute?, h]

end Hook

end DataBinding
