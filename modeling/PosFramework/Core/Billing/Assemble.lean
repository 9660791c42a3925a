import PosFramework.Core.Billing.Fees

set_option autoImplicit false

/-! # Assembling a bill

`assemble` turns a bill's input into its totals: the reductions are allocated over the tax classes,
the fees are charged, each class is taxed on what is left of its lines plus its part of the service
charge and of the fees, the tax of each class is shared back to the fees in it, and the sum is
rounded for cash. Under prices that include tax the tax is taken out of the quoted subtotal. -/

namespace PosFramework

open Fallible Money

/-! ## Tax of one class -/

/-- The tax on a base, the base to report for it and the tax's named components. -/
def taxFor (taxable : Money) (rate : TaxRate) (components : List TaxComponent)
    (pricesIncludeTax : Bool) (mode : Rounding) :
    Except DomainError (Money × Money × List TaxComponentLine) := do
  let tax ← liftMoney <|
    if pricesIncludeTax then taxable.taxIncluded rate.asRatio mode
    else taxable.mulRatio rate.asRatio mode
  let reportedBase ← liftMoney <|
    if pricesIncludeTax then taxable.checkedSub tax else .ok taxable
  let split ← splitComponents tax components
  pure (tax, reportedBase, split)

/-- The tax line of a class for a taxable amount. -/
def classTaxLine (input : BillInput) (taxClassId : TaxClassId) (taxable : Money) :
    Except DomainError TaxLine := do
  let rate ← rateOnChannel input taxClassId
  let taxed ← taxFor taxable rate (input.rates.componentsFor taxClassId input.salesChannel)
    input.pricesIncludeTax input.taxRounding
  pure
    { taxClassId := taxClassId
      taxableBase := taxed.2.1
      rateBasisPoints := rate.basisPoints
      tax := taxed.1
      components := taxed.2.2 }

/-- Whether some line of the bill is in a class. -/
def onBill (input : BillInput) (taxClassId : TaxClassId) : Bool :=
  input.classBases.any fun base => decide (base.taxClassId = taxClassId)

/-- The class a service charge that is taxed and not nothing is taxed at. -/
def taxedServiceChargeClass (input : BillInput) : Option TaxClassId :=
  if input.serviceChargeTaxable && !input.serviceCharge.isZero then input.serviceChargeTaxClass
  else none

/-- The service charge, where it is taxed at a class no line is in. -/
def extraServiceCharge (input : BillInput) : Except DomainError (List ClassBase) :=
  match taxedServiceChargeClass input with
  | some taxClassId =>
    if onBill input taxClassId then .ok [] else addToClass [] taxClassId input.serviceCharge
  | none => .ok []

/-- The charges taxed at a class no line is in, summed per class: the service charge first. -/
def extraCharges (input : BillInput) (feeShares : List ClassBase) :
    Except DomainError (List ClassBase) := do
  let charges ← extraServiceCharge input
  (feeShares.filter fun share => !share.amount.isZero && !onBill input share.taxClassId).foldlM
    (fun sums share => addToClass sums share.taxClassId share.amount) charges

/-- A tax line for every class only charges are taxed at. -/
def extraClassLines (input : BillInput) (feeShares : List ClassBase) :
    Except DomainError (List TaxLine) := do
  let charges ← extraCharges input feeShares
  charges.mapM fun charge => classTaxLine input charge.taxClassId charge.amount

/-! ## Tax of all the classes -/

/-- The tax by class. -/
structure ClassTax where
  taxLines : List TaxLine
  linesAfterReductions : List Money
  taxTotal : Money

/-- What is left of a class's lines after its shares of the discount and of the comps. -/
def afterReductions (input : BillInput) (discountShares compShares : List Money)
    (entry : ClassBase × Nat) : Except DomainError Money := do
  let zero := zero input.currencyCode
  let afterDiscount ← liftMoney (entry.1.amount.checkedSub (discountShares.getD entry.2 zero))
  liftMoney (afterDiscount.checkedSub (compShares.getD entry.2 zero))

/-- A class's lines with the service charge, where it is taxed at the class. -/
def withServiceCharge (input : BillInput) (taxClassId : TaxClassId) (lines : Money) :
    Except DomainError Money :=
  if input.serviceChargeTaxable && decide (input.serviceChargeTaxClass = some taxClassId) then
    addMoney lines input.serviceCharge
  else .ok lines

/-- What is left of a class's lines, with the service charge and the fees taxed at it. -/
def classTaxable (input : BillInput) (feeShares : List ClassBase) (taxClassId : TaxClassId)
    (lines : Money) : Except DomainError Money := do
  let withCharge ← withServiceCharge input taxClassId lines
  match feeShares.find? fun share => decide (share.taxClassId = taxClassId) with
  | some share => addMoney withCharge share.amount
  | none => .ok withCharge

/-- Append a tax line and add its tax to the total. -/
def pushTaxLine (acc : ClassTax) (line : TaxLine) : Except DomainError ClassTax := do
  let taxTotal ← addMoney acc.taxTotal line.tax
  pure { acc with taxLines := acc.taxLines ++ [line], taxTotal := taxTotal }

/-- Tax one class of the bill. -/
def classTaxStep (input : BillInput) (discountShares compShares : List Money)
    (feeShares : List ClassBase) (acc : ClassTax) (entry : ClassBase × Nat) :
    Except DomainError ClassTax := do
  let lines ← afterReductions input discountShares compShares entry
  let taxable ← classTaxable input feeShares entry.1.taxClassId lines
  let line ← classTaxLine input entry.1.taxClassId taxable
  pushTaxLine { acc with linesAfterReductions := acc.linesAfterReductions ++ [lines] } line

/-- The tax lines of the bill: one per class base, then one per class only charges are in. -/
def classTax (input : BillInput) (discountShares compShares : List Money)
    (feeShares : List ClassBase) : Except DomainError ClassTax := do
  let start : ClassTax :=
    { taxLines := [], linesAfterReductions := [], taxTotal := zero input.currencyCode }
  let classes ← input.classBases.zipIdx.foldlM
    (classTaxStep input discountShares compShares feeShares) start
  let extra ← extraClassLines input feeShares
  extra.foldlM pushTaxLine classes

/-! ## The fees' part of the tax -/

/-- Share a tax over the parts of a class. A part below zero counts for nothing, and the parts after
    the last one above zero get none of the residual; with no part above zero the last takes all. -/
def splitTax (tax : Money) (parts : List Money) : Except DomainError (List Money) :=
  let zeros := List.replicate parts.length (zero tax.currencyCode)
  let weights := (parts.map fun part => if part.minor < 0 then 0 else part.amountMinor).rdropWhile
    fun weight => decide (weight.val = 0)
  if weights = [] then .ok (if parts = [] then [] else zeros.dropLast ++ [tax])
  else do
    let shares ← liftMoney (tax.allocate weights)
    pure (shares ++ zeros.drop shares.length)

/-- The positions of the fees' shares in a class, fee by fee. -/
def feeSlots (feeLines : List FeeLine) (taxClassId : TaxClassId) : List ((Nat × Nat) × Money) :=
  feeLines.zipIdx.flatMap fun (fee, feeIndex) =>
    fee.classShares.zipIdx.filterMap fun (share, shareIndex) =>
      if share.taxClassId = taxClassId then some ((feeIndex, shareIndex), share.amount) else none

/-- Record the tax of the fee share at a position. -/
def setShareTax (feeLines : List FeeLine) (slot : Nat × Nat) (tax : Money) : List FeeLine :=
  feeLines.modify slot.1 fun fee =>
    { fee with classShares := fee.classShares.modify slot.2 fun share => { share with tax := tax } }

/-- What else of a class's base carries its tax: the service charge taxed there and its lines. -/
def otherParts (input : BillInput) (linesAfterReductions : List Money) (taxClassId : TaxClassId) :
    List Money :=
  (if taxedServiceChargeClass input = some taxClassId then [input.serviceCharge] else []) ++
    ((input.classBases.findIdx? fun base => decide (base.taxClassId = taxClassId)).bind
      fun index => linesAfterReductions[index]?).toList

/-- Share one class's tax over the fees in it. -/
def taxFeesOfClass (input : BillInput) (linesAfterReductions : List Money)
    (feeLines : List FeeLine) (taxLine : TaxLine) : Except DomainError (List FeeLine) := do
  let slots := feeSlots feeLines taxLine.taxClassId
  if slots.isEmpty then pure feeLines
  else
    let taxes ← splitTax taxLine.tax
      (slots.map Prod.snd ++ otherParts input linesAfterReductions taxLine.taxClassId)
    pure <| (slots.zip taxes).foldl (fun lines (slot, tax) => setShareTax lines slot.1 tax) feeLines

/-- Add the components of one share's tax; `none` once a taxed share has no breakdown. -/
def feeComponentsStep (input : BillInput) (acc : Option (List TaxComponentLine))
    (share : FeeClassShare) : Except DomainError (Option (List TaxComponentLine)) :=
  match acc with
  | none => .ok none
  | some components => do
    let split ← splitComponents share.tax
      (input.rates.componentsFor share.taxClassId input.salesChannel)
    if split.isEmpty && !share.tax.isZero then pure none
    else some <$> split.foldlM addComponent components

/-- The named components of a fee's tax, or none where one of its shares has no breakdown. -/
def feeComponents (classShares : List FeeClassShare) (input : BillInput) :
    Except DomainError (List TaxComponentLine) := do
  let components ← classShares.foldlM (feeComponentsStep input) (some [])
  pure (components.getD [])

/-- Sum a fee's tax and its components from its shares. -/
def sumFeeTax (input : BillInput) (fee : FeeLine) : Except DomainError FeeLine := do
  let tax ← sumMoney fee.amount.currencyCode (fee.classShares.map (·.tax))
  let components ← feeComponents fee.classShares input
  pure { fee with tax := tax, taxComponents := components }

/-- Share every class's tax over the fees in it, then sum each fee's. -/
def taxTheFees (feeLines : List FeeLine) (taxLines : List TaxLine) (input : BillInput)
    (linesAfterReductions : List Money) : Except DomainError (List FeeLine) := do
  let shared ← taxLines.foldlM (taxFeesOfClass input linesAfterReductions) feeLines
  shared.mapM (sumFeeTax input)

/-! ## The whole bill -/

/-- The quoted subtotal: the class bases summed. -/
def quotedSubtotal (input : BillInput) : Except DomainError Money := do
  refuseIf (input.classBases = []) (.empty "class_bases")
  sumMoney input.currencyCode (input.classBases.map (·.amount))

/-- The amount rounded to the smallest coin, and what rounding added. -/
def cashRounded (unrounded : Money) (increment : Option I64) (currency : CurrencyCode) :
    Except DomainError (Money × Money) :=
  match increment with
  | none => .ok (unrounded, zero currency)
  | some step =>
    if step.val = 0 then .ok (unrounded, zero currency)
    else do
      let rounded ← liftMoney (unrounded.roundToIncrement step .halfUp)
      let adjustment ← liftMoney (rounded.checkedSub unrounded)
      pure (rounded, adjustment)

/-- A bill's totals. -/
def assemble (input : BillInput) : Except DomainError BillTotals := do
  let quoted ← quotedSubtotal input
  let discountShares ← allocateAcrossClasses input.billDiscount input.classBases
  let compShares ← allocateAcrossClasses input.comps input.classBases
  let fees ← chargeFees input quoted
  let taxed ← classTax input discountShares compShares fees.classShares
  let subtotal ← liftMoney <|
    if input.pricesIncludeTax then quoted.checkedSub taxed.taxTotal else .ok quoted
  let feeLines ← taxTheFees fees.lines taxed.taxLines input taxed.linesAfterReductions
  let serviceCharge ← addMoney input.serviceCharge fees.total
  let afterDiscount ← liftMoney (subtotal.checkedSub input.billDiscount)
  let afterComps ← liftMoney (afterDiscount.checkedSub input.comps)
  let withCharge ← addMoney afterComps serviceCharge
  let unrounded ← addMoney withCharge taxed.taxTotal
  let due ← cashRounded unrounded input.cashRoundingIncrement input.currencyCode
  pure
    { subtotal := subtotal
      discountTotal := input.billDiscount
      compTotal := input.comps
      serviceCharge := serviceCharge
      feeLines := feeLines
      taxLines := taxed.taxLines
      taxTotal := taxed.taxTotal
      roundingAdjustment := due.2
      totalDue := due.1 }

end PosFramework
