import PosFramework.Core.Billing.Basic

set_option autoImplicit false

/-! # Charging a bill's fees

One fee line per rule that applies. A percentage is taken of the counted lines, in the rule's own
tax posture and before or after the reductions as the rule says; an amount is charged once a bill or
per counted unit. The part of each fee that is taxed at a class is its class share. -/

namespace PosFramework

open Fallible Money

/-- An amount moved to the other tax posture: net of the tax in it, or with the tax on top. -/
def converted (amount : Money) (rate : TaxRate) (input : BillInput) : Except DomainError Money :=
  if input.pricesIncludeTax then do
    let tax ← liftMoney (amount.taxIncluded rate.asRatio input.taxRounding)
    liftMoney (amount.checkedSub tax)
  else do
    let tax ← liftMoney (amount.mulRatio rate.asRatio input.taxRounding)
    liftMoney (amount.checkedAdd tax)

/-- One class of `baseInOtherPosture`: its counted lines, its base and its share of the reductions,
    each moved to the other posture and added to the running sums. -/
def otherPostureStep (input : BillInput) (counted : List BillLine) (acc : Money × Money × Money)
    (entry : ClassBase × Money) : Except DomainError (Money × Money × Money) := do
  let rate ← rateOnChannel input entry.1.taxClassId
  let inClass ← sumMoney input.currencyCode
    ((counted.filter fun line => decide (line.taxClassId = entry.1.taxClassId)).map (·.net))
  let countedPart ← converted inClass rate input
  let countedTotal ← addMoney acc.1 countedPart
  let basePart ← converted entry.1.amount rate input
  let subtotal ← addMoney acc.2.1 basePart
  let reducedPart ← converted entry.2 rate input
  let reduced ← addMoney acc.2.2 reducedPart
  pure (countedTotal, subtotal, reduced)

/-- The counted lines, the subtotal and the reductions in the other tax posture. Rounded class by
    class, the reductions may pass the whole; they take no more than all of it. -/
def baseInOtherPosture (input : BillInput) (counted : List BillLine) (reductions : Money) :
    Except DomainError (Money × Money × Money) := do
  let zero := zero input.currencyCode
  let reductionShares ← allocateAcrossClasses reductions input.classBases
  let sums ← (input.classBases.zip reductionShares).foldlM (otherPostureStep input counted)
    (zero, zero, zero)
  pure (sums.1, sums.2.1, if sums.2.1.minor < sums.2.2.minor then sums.2.1 else sums.2.2)

/-- A rate of the counted lines, less their proportional part of the reductions. -/
def percentOf (counted subtotal reductions : Money) (rate : Ratio) (mode : Rounding) :
    Except DomainError Money :=
  if reductions.isZero then liftMoney (counted.mulRatio rate mode)
  else do
    let after ← liftMoney (subtotal.checkedSub reductions)
    let scaled ← okOr (.money .overflow) (I128.checked (counted.minor * after.minor))
    let numerator ← okOr (.money .overflow) (I128.checked (scaled * rate.numerator.val))
    let denominator ← okOr (.money .overflow)
      (I128.checked (subtotal.minor * rate.denominator.val))
    let amount ← liftMoney (divRound numerator denominator mode)
    pure ⟨counted.currencyCode, amount⟩

/-- Add a line's part to its class's weight, in the order the classes first appear. -/
def addWeight (weights : List (TaxClassId × I64)) (taxClassId : TaxClassId) (part : I64) :
    Except DomainError (List (TaxClassId × I64)) :=
  Tally.bump (fun weight => decide (weight.1 = taxClassId))
    (fun weight => do
      let total ← okOr (.money .overflow) (weight.2.checkedAdd part)
      pure (weight.1, total))
    (taxClassId, part) weights

/-- Share a fee over the classes of the lines it counts, by quantity or by net. Weights that cannot
    be allocated by are replaced by equal ones. -/
def followLines (amount : Money) (counted : List BillLine) (byQuantity : Bool) :
    Except DomainError (List FeeClassShare) := do
  let weights ← counted.foldlM (fun weights line =>
    addWeight weights line.taxClassId
      (if byQuantity then line.quantity.milli else line.net.amountMinor)) []
  let parts := weights.map Prod.snd
  let usable := decide (0 < (parts.map BoundedInt.val).sum) &&
    decide (∀ part ∈ parts, 0 ≤ part.val)
  let shares ← liftMoney (amount.allocate (if usable then parts else parts.map fun _ => 1))
  pure <| (weights.zip shares).map fun (weight, share) =>
    { taxClassId := weight.1, amount := share, tax := zero share.currencyCode }

/-- What a well-formed rule of a known kind charges on the lines it counts. -/
def feeAmount (rule : FrozenFee) (kind : FeeKind) (input : BillInput) (counted : List BillLine)
    (subtotal reductions : Money) : Except DomainError (Option Money) :=
  match kind with
  | .unspecified => .ok none
  | .percent =>
    match rule.rate with
    | none => .ok none
    | some rate => do
      let taken := if rule.baseDiscounted then reductions else zero input.currencyCode
      if rule.baseTaxInclusive = input.pricesIncludeTax then
        let net ← sumMoney input.currencyCode (counted.map (·.net))
        some <$> percentOf net subtotal taken rate input.taxRounding
      else
        let base ← baseInOtherPosture input counted taken
        some <$> percentOf base.1 base.2.1 base.2.2 rate input.taxRounding
  | .amountPerBill => .ok rule.amount
  | .amountPerUnit =>
    match rule.amount with
    | none => .ok none
    | some amount => do
      let units ← liftMoney <|
        counted.foldlM (fun sum line => sum.checkedAdd line.quantity) Quantity.zero
      some <$> liftMoney (amount.mulQuantity units input.taxRounding)

/-- The classes a fee is taxed at. A rule that names a class it does not have charges nothing. -/
def feeClassShares (rule : FrozenFee) (kind : FeeKind) (amount : Money) (counted : List BillLine) :
    Except DomainError (Option (List FeeClassShare)) :=
  match rule.taxTreatment, rule.taxClassId with
  | .notTaxable, _ => .ok (some [])
  | .taxClass, some taxClassId =>
    .ok (some [{ taxClassId := taxClassId, amount := amount,
                 tax := zero amount.currencyCode }])
  | .taxClass, none => .ok none
  | .followLines, _ | .unspecified, _ =>
    some <$> followLines amount counted (decide (kind = .amountPerUnit))

/-- The fee line a rule charges, or none where it does not apply: a malformed rule, no line it
    counts, or an amount in another currency. -/
def feeLine (rule : FrozenFee) (input : BillInput) (subtotal reductions : Money) :
    Except DomainError (Option FeeLine) := do
  let counted := input.lines.filter fun line => rule.countsItem line.menuItemId
  if !rule.violations.isEmpty || counted.isEmpty then pure none
  else
    match rule.kind? with
    | none => pure none
    | some kind =>
      match ← feeAmount rule kind input counted subtotal reductions with
      | none => pure none
      | some amount =>
        if amount.currencyCode ≠ input.currencyCode then pure none
        else
          match ← feeClassShares rule kind amount counted with
          | none => pure none
          | some classShares =>
            pure <| some
              { feeId := rule.feeId
                code := rule.code
                displayName := rule.displayName
                amount := amount
                classShares := classShares
                tax := zero amount.currencyCode
                taxComponents := []
                waivable := rule.waivable }

/-! ## All the fees of a bill -/

/-- Whether the lines, summed per class, are the class bases. -/
def linesMatchBases (lines : List BillLine) (classBases : List ClassBase) :
    Except DomainError Bool := do
  let sums ← lines.foldlM (fun sums line => addToClass sums line.taxClassId line.net) []
  pure <| decide (sums.length = classBases.length) &&
    classBases.all fun base =>
      sums.any fun sum =>
        decide (sum.taxClassId = base.taxClassId) && decide (sum.amount = base.amount)

/-- The fees charged: one line each, what they add to each class, and their sum. -/
structure Fees where
  lines : List FeeLine
  classShares : List ClassBase
  total : Money

/-- Charge one rule. -/
def chargeFee (input : BillInput) (subtotal reductions : Money) (fees : Fees) (rule : FrozenFee) :
    Except DomainError Fees := do
  match ← feeLine rule input subtotal reductions with
  | none => pure fees
  | some line =>
    let total ← addMoney fees.total line.amount
    let classShares ← line.classShares.foldlM
      (fun sums share => addToClass sums share.taxClassId share.amount) fees.classShares
    pure { lines := fees.lines ++ [line], classShares := classShares, total := total }

/-- The bill's rules, less those waived on it. -/
def chargedRules (input : BillInput) : List FrozenFee :=
  input.feeRules.filter fun rule => decide (rule.feeId ∉ input.waivedFeeIds)

/-- The fees of a bill, over its quoted subtotal. -/
def chargeFees (input : BillInput) (subtotal : Money) : Except DomainError Fees := do
  let fees : Fees := { lines := [], classShares := [], total := zero input.currencyCode }
  if (chargedRules input).isEmpty then pure fees
  else
    let matched ← linesMatchBases input.lines input.classBases
    refuseIf (matched = false) .linesDoNotMatchBases
    let reductions ← liftMoney (input.billDiscount.checkedAdd input.comps)
    (chargedRules input).foldlM (chargeFee input subtotal reductions) fees

end PosFramework
