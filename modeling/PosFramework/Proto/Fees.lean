import PosFramework.Proto.Ids
import PosFramework.Proto.Money

set_option autoImplicit false

/-! # Fee rules

A fee is configuration: a rate or an amount, the items it counts, the base a percentage is taken of
and how the fee is taxed. A bill keeps the rules in force when it opened as `FrozenFee`s. The
accessors refuse to guess: a rule of an unknown kind charges nothing and an unknown item scope
counts no item; only the tax treatment falls back, to following the lines. -/

namespace PosFramework

/-- How a fee is reckoned. -/
inductive FeeKind
  | unspecified
  | percent
  | amountPerBill
  | amountPerUnit
deriving DecidableEq

instance : WireEnum FeeKind := ⟨.unspecified⟩

/-- How a fee is taxed. -/
inductive FeeTax
  | unspecified
  | notTaxable
  | followLines
  | taxClass
deriving DecidableEq

instance : WireEnum FeeTax := ⟨.unspecified⟩

/-- Which items a fee counts. -/
inductive FeeItems
  | unspecified
  | all
  | include
  | exclude
deriving DecidableEq

instance : WireEnum FeeItems := ⟨.unspecified⟩

/-- A stable code a report names a fee by. -/
structure FeeCode where
  value : String
deriving DecidableEq

/-- Tenant content that names a product or a fee. -/
structure DisplayName where
  value : String
deriving DecidableEq

/-- What is wrong with a rule's shape. -/
inductive FeeViolation
  | unknownKind
  | missingRate
  | rateOutOfRange
  | missingAmount
  | negativeAmount
  | missingTaxClass
  | emptyItemList
  | unknownItemScope

/-- A fee rule as a bill keeps it. -/
structure FrozenFee where
  feeId : FeeId
  code : FeeCode
  displayName : DisplayName
  kind : Open FeeKind
  rate : Option Ratio
  amount : Option Money
  itemScope : Open FeeItems
  menuItemIds : List MenuItemId
  baseDiscounted : Bool
  baseTaxInclusive : Bool
  tax : Open FeeTax
  taxClassId : Option TaxClassId
  waivable : Bool
deriving DecidableEq

/-- Whether a rate lies from 0 to 100 percent, for a denominator of either sign. -/
def isZeroToOneHundredPercent (rate : Ratio) : Bool :=
  let numerator := rate.numerator.val
  let denominator := rate.denominator.val
  if 0 < denominator then decide (0 ≤ numerator) && decide (numerator ≤ denominator)
  else decide (denominator ≤ numerator) && decide (numerator ≤ 0)

namespace FrozenFee

variable (rule : FrozenFee)

def kind? : Option FeeKind := rule.kind.require?

/-- The item scope, with an absent one read as every item and an unknown token as none. -/
def itemScope? : Option FeeItems :=
  if rule.itemScope.isUnrecognised then none
  else
    match rule.itemScope.known with
    | .unspecified | .all => some .all
    | .include => some .include
    | .exclude => some .exclude

/-- The tax treatment, with an absent or unknown one read as following the lines. -/
def taxTreatment : FeeTax :=
  match rule.tax.known with
  | .unspecified | .followLines => .followLines
  | .notTaxable => .notTaxable
  | .taxClass => .taxClass

/-- Whether a fee counts an item. -/
def countsItem (menuItemId : MenuItemId) : Bool :=
  match rule.itemScope? with
  | some .all => true
  | some .include => decide (menuItemId ∈ rule.menuItemIds)
  | some .exclude => decide (menuItemId ∉ rule.menuItemIds)
  | some .unspecified | none => false

/-- What is wrong with the charge: its kind, and the rate or amount the kind needs. -/
def chargeViolation : Option FeeViolation :=
  match rule.kind.known with
  | .unspecified => some .unknownKind
  | .percent =>
    match rule.rate with
    | none => some .missingRate
    | some rate => if isZeroToOneHundredPercent rate then none else some .rateOutOfRange
  | .amountPerBill | .amountPerUnit =>
    match rule.amount with
    | none => some .missingAmount
    | some amount => if amount.isNegative then some .negativeAmount else none

def taxViolation : Option FeeViolation :=
  if rule.taxTreatment = .taxClass ∧ rule.taxClassId = none then some .missingTaxClass else none

def itemsViolation : Option FeeViolation :=
  match rule.itemScope? with
  | none => some .unknownItemScope
  | some .include | some .exclude => if rule.menuItemIds = [] then some .emptyItemList else none
  | some .all | some .unspecified => none

/-- Everything wrong with a rule's shape: the charge, the tax, the items, in that order. -/
def violations : List FeeViolation :=
  [rule.chargeViolation, rule.taxViolation, rule.itemsViolation].filterMap id

end FrozenFee

/-! ## Published rules -/

/-- A fee rule as the store's configuration publishes it. -/
structure PublishedFee where
  rule : FrozenFee
  channels : List (Open SalesChannel)
  active : Bool

namespace PublishedFee

/-- Whether a fee is charged on a channel. -/
def appliesOn (fee : PublishedFee) (channel : SalesChannel) : Bool :=
  decide (channel ≠ .unspecified) &&
    (fee.channels.isEmpty || fee.channels.any fun listed => decide (listed.known = channel))

/-- The rule as a bill opened on `channel` keeps it, where it is in force there. -/
def freeze (fee : PublishedFee) (channel : SalesChannel) : Option FrozenFee :=
  if !fee.active || !fee.rule.violations.isEmpty || !fee.appliesOn channel then none
  else some fee.rule

end PublishedFee

structure PublishedFees where
  fees : List PublishedFee

/-- The rules in force on a channel, in published order. -/
def PublishedFees.inForce (fees : PublishedFees) (channel : SalesChannel) : List FrozenFee :=
  fees.fees.filterMap (·.freeze channel)

end PosFramework
