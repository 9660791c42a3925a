import PosFramework.Proto.Config

set_option autoImplicit false

/-! # Pricing a line from the store's own book

A line ordered by item is priced by the store, never by what the caller quotes: the item's price and
each modifier's, times the quantity. An item or a modifier that is not on the book, or not
available, refuses the line. -/

namespace PosFramework

open Fallible

/-- A line as somebody asks for it. -/
structure RequestedLine where
  menuItemId : MenuItemId
  quantity : Quantity
  modifierMenuItemIds : List MenuItemId
  quotedUnitPrice : Option Money

/-- A line at the store's own prices. -/
structure PricedLine where
  menuItemId : MenuItemId
  displayName : DisplayName
  quantity : Quantity
  unitPrice : Money
  lineTotal : Money
  taxClassId : TaxClassId
  taxRate : Ratio
  modifierMenuItemIds : List MenuItemId
  modifierDisplayNames : List DisplayName
  repriced : Bool

/-- Why a line cannot be priced. -/
inductive RepriceError
  | unknownItem (menuItemId : MenuItemId)
  | unavailable (menuItemId : MenuItemId)
  | missingRate (taxClassId : TaxClassId) (salesChannel : SalesChannel)
  | money (error : MoneyError)

/-- The entry of an item that is on the book and available. -/
def availableEntry (catalog : MenuCatalog) (menuItemId : MenuItemId) :
    Except RepriceError MenuEntry := do
  let entry ← okOr (.unknownItem menuItemId) (catalog.get menuItemId)
  refuseIf (entry.available = false) (.unavailable menuItemId)
  pure entry

/-- One modifier: its price joins the unit price and its name the names. -/
def addModifier (catalog : MenuCatalog) (priced : Money × List DisplayName)
    (modifierId : MenuItemId) : Except RepriceError (Money × List DisplayName) := do
  let modifier ← availableEntry catalog modifierId
  let unitPrice ← (priced.1.checkedAdd modifier.unitPrice).mapError .money
  pure (unitPrice, priced.2 ++ [modifier.displayName])

/-- A line is priced from the menu, whatever price it was quoted at. -/
def repriceLine (catalog : MenuCatalog) (rates : TaxRateTable) (salesChannel : SalesChannel)
    (line : RequestedLine) : Except RepriceError PricedLine := do
  let base ← availableEntry catalog line.menuItemId
  let (unitPrice, modifierDisplayNames) ←
    line.modifierMenuItemIds.foldlM (addModifier catalog) (base.unitPrice, [])
  let lineTotal ← (unitPrice.mulQuantity line.quantity .halfUp).mapError .money
  let taxRate ← okOr (.missingRate base.taxClassId salesChannel)
    (rates.rateFor base.taxClassId salesChannel)
  pure
    { menuItemId := base.menuItemId
      displayName := base.displayName
      quantity := line.quantity
      unitPrice
      lineTotal
      taxClassId := base.taxClassId
      taxRate := taxRate.asRatio
      modifierMenuItemIds := line.modifierMenuItemIds
      modifierDisplayNames
      repriced := line.quotedUnitPrice.any fun quoted => decide (quoted ≠ unitPrice) }

end PosFramework
