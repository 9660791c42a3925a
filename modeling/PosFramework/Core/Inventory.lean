import PosFramework.Core.Error

set_option autoImplicit false

/-! # Stock taken by a fired line

Firing a line consumes the recipe of its item and of each of its modifiers, scaled by the line's
quantity. An item with no recipe consumes nothing. -/

namespace PosFramework

open Fallible

/-- How much of an ingredient one of an item takes. -/
structure RecipeLine where
  ingredient : IngredientId
  perUnit : Quantity

/-- The recipes of the items that have one. -/
abbrev RecipeBook := Std.ExtTreeMap MenuItemId (List RecipeLine)

/-- Why stock moves. -/
inductive StockMovementKind
  | consumption
  | receipt
  | adjustment
  | waste
  | stocktake

/-- A change of an ingredient's stock. -/
structure StockMovement where
  kind : StockMovementKind
  ingredient : IngredientId
  delta : Quantity

def Quantity.isZero (q : Quantity) : Bool := decide (q.milli.val = 0)

/-- A quantity per unit, times a number of units. -/
def Quantity.checkedScale (q factor : Quantity) (mode : Rounding) : Except MoneyError Quantity := do
  let numerator ← okOr .overflow (I128.checked (q.milli.val * factor.milli.val))
  let milli ← divRound numerator Quantity.scale mode
  pure ⟨milli⟩

/-- Stock that is used up. -/
def StockMovement.consume (ingredient : IngredientId) (quantity : Quantity) :
    Except MoneyError StockMovement := do
  let milli ← okOr .overflow quantity.milli.checkedNeg
  pure { kind := .consumption, ingredient, delta := ⟨milli⟩ }

/-- What one recipe line takes, or nothing when it rounds to nothing. -/
def consumptionOf (quantity : Quantity) (rounding : Rounding) (movements : List StockMovement)
    (line : RecipeLine) : Except MoneyError (List StockMovement) := do
  let consumed ← line.perUnit.checkedScale quantity rounding
  if consumed.isZero then pure movements
  else (fun movement => movements ++ [movement]) <$> StockMovement.consume line.ingredient consumed

/-- The stock that a fired line and its modifiers use up. -/
def consumptionForFire (baseItem : MenuItemId) (modifiers : List MenuItemId) (quantity : Quantity)
    (book : RecipeBook) (rounding : Rounding) : Except MoneyError (List StockMovement) :=
  ((baseItem :: modifiers).flatMap fun id => (book[id]?).getD []).foldlM
    (consumptionOf quantity rounding) []

end PosFramework
