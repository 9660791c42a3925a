import PosFramework.Core.Error
import PosFramework.Lib.Tally
import PosFramework.Proto.Fees
import PosFramework.Proto.Locale

set_option autoImplicit false

/-! # A bill's figures: data and shared steps

The input a bill is assembled from, the totals it assembles to, and the small steps both the fees
and the tax are built of: sums per class, the split of a tax into named components and the
proportional allocation of a bill-level amount over the classes. -/

namespace PosFramework

open Fallible

/-! ## Data -/

/-- One named component of a tax, with its share of it. -/
structure TaxComponentLine where
  name : TaxComponentName
  rateBasisPoints : Nat
  tax : Money
deriving DecidableEq

/-- The tax of one class: the base reported for it, its rate and the tax itself. -/
structure TaxLine where
  taxClassId : TaxClassId
  taxableBase : Money
  rateBasisPoints : Nat
  tax : Money
  components : List TaxComponentLine
deriving DecidableEq

/-- What is charged in one tax class, as quoted. -/
structure ClassBase where
  taxClassId : TaxClassId
  amount : Money

/-- One sold line as the fees see it. -/
structure BillLine where
  menuItemId : MenuItemId
  quantity : Quantity
  net : Money
  taxClassId : TaxClassId
deriving DecidableEq

/-- The part of a fee taxed at one class. -/
structure FeeClassShare where
  taxClassId : TaxClassId
  amount : Money
  tax : Money

/-- One fee as charged on a bill. -/
structure FeeLine where
  feeId : FeeId
  code : FeeCode
  displayName : DisplayName
  amount : Money
  classShares : List FeeClassShare
  tax : Money
  taxComponents : List TaxComponentLine
  waivable : Bool

/-- Everything a bill is computed from. -/
structure BillInput where
  currencyCode : CurrencyCode
  classBases : List ClassBase
  billDiscount : Money
  comps : Money
  serviceCharge : Money
  serviceChargeTaxable : Bool
  serviceChargeTaxClass : Option TaxClassId
  rates : TaxRateTable
  salesChannel : SalesChannel
  cashRoundingIncrement : Option I64
  taxRounding : Rounding
  pricesIncludeTax : Bool
  feeRules : List FrozenFee
  waivedFeeIds : List FeeId
  lines : List BillLine

/-- What a bill comes to. -/
structure BillTotals where
  subtotal : Money
  discountTotal : Money
  compTotal : Money
  serviceCharge : Money
  feeLines : List FeeLine
  taxLines : List TaxLine
  taxTotal : Money
  roundingAdjustment : Money
  totalDue : Money

/-! ## Sums -/

/-- Add one amount to a running sum of money. -/
def addMoney (sum amount : Money) : Except DomainError Money :=
  liftMoney (sum.checkedAdd amount)

/-- The checked sum of amounts in `currency`. -/
def sumMoney (currency : CurrencyCode) (amounts : List Money) : Except DomainError Money :=
  amounts.foldlM addMoney (Money.zero currency)

/-- Add an amount to its class's entry, or open one at the end. -/
def addToClass (sums : List ClassBase) (taxClassId : TaxClassId) (amount : Money) :
    Except DomainError (List ClassBase) :=
  Tally.bump (fun sum => decide (sum.taxClassId = taxClassId))
    (fun sum => do
      let total ← addMoney sum.amount amount
      pure { sum with amount := total })
    ⟨taxClassId, amount⟩ sums

/-- Add a component's tax to the entry of its name and rate, or open one at the end. -/
def addComponent (sums : List TaxComponentLine) (part : TaxComponentLine) :
    Except DomainError (List TaxComponentLine) :=
  Tally.bump
    (fun sum => decide (sum.name = part.name) &&
      decide (sum.rateBasisPoints = part.rateBasisPoints))
    (fun sum => do
      let total ← addMoney sum.tax part.tax
      pure { sum with tax := total })
    part sums

/-! ## Shared splits -/

/-- Split a tax into its named components by their rates. A name that is no token, no component at
    all, or components all at a zero rate give no breakdown rather than an error. -/
def splitComponents (tax : Money) (components : List TaxComponent) :
    Except DomainError (List TaxComponentLine) :=
  match components.mapM (fun component => TaxComponentName.new? component.name) with
  | none => .ok []
  | some names =>
    let weights := components.map fun component => component.rate.asRatio.numerator
    if names = [] ∨ ∀ weight ∈ weights, weight.val = 0 then .ok []
    else do
      let shares ← liftMoney (tax.allocate weights)
      pure <| ((names.zip components).zip shares).map fun ((name, component), share) =>
        { name := name, rateBasisPoints := component.rate.basisPoints, tax := share }

/-- A bill-level amount in proportion to the class bases. Nothing is shared as zeros. -/
def allocateAcrossClasses (amount : Money) (classBases : List ClassBase) :
    Except DomainError (List Money) :=
  if amount.isZero then .ok (List.replicate classBases.length (Money.zero amount.currencyCode))
  else liftMoney (amount.allocate (classBases.map fun base => base.amount.amountMinor))

/-- The rate of a class on the bill's channel. -/
def rateOnChannel (input : BillInput) (taxClassId : TaxClassId) : Except DomainError TaxRate :=
  okOr (.taxRateNotConfigured taxClassId input.salesChannel)
    (input.rates.rateFor taxClassId input.salesChannel)

end PosFramework
