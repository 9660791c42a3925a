import PosFramework.Core.Billing.Basic

set_option autoImplicit false

/-! # Fee rules across a split and a merge

A bill keeps the fee rules it was opened with. When it is split, every part keeps each percentage
and fee per unit as it is, and a fee per bill is shared over the parts by what they count of it;
when bills are merged, a fee per bill is charged once, at the sum of the shares, capped at the whole
the shares were first split from. -/

namespace PosFramework

open Fallible

/-! ## Weights -/

/-- An amount as a weight: what it comes to, or nothing below zero. -/
def Money.weight (m : Money) : I64 := if m.minor < 0 then 0 else m.amountMinor

/-- Add up 64-bit weights, stopping at an overflow. -/
def sumWeights (weights : List I64) : Except MoneyError I64 :=
  weights.foldlM (fun sum weight => okOr .overflow (sum.checkedAdd weight)) 0

/-- The weights up to the last that is not zero. -/
def trimWeights (weights : List I64) : List I64 :=
  weights.rdropWhile fun weight => decide (weight.val = 0)

/-! ## Splitting -/

/-- A rule's amount when it is a fee per bill this release can apply. -/
def perBillAmount (rule : FrozenFee) : Option Money :=
  if rule.kind? = some .amountPerBill ∧ rule.violations = [] then rule.amount else none

/-- The lines of a part that a rule counts. -/
def countedOn (rule : FrozenFee) (lines : List BillLine) : List BillLine :=
  lines.filter fun line => rule.countsItem line.menuItemId

/-- What the lines a rule counts on a part come to, none of them below zero. -/
def countedWeight (rule : FrozenFee) (lines : List BillLine) : Except DomainError I64 :=
  liftMoney (sumWeights ((countedOn rule lines).map fun line => line.net.weight))

/-- One for a part that counts a line and zero for one that counts none. -/
def evenWeight (rule : FrozenFee) (lines : List BillLine) : I64 :=
  if countedOn rule lines = [] then 0 else 1

/-- The weights a fee per bill is shared by: what each part's counted lines come to, or one for each
    part that counts a line when they are all free. -/
def shareWeights (rule : FrozenFee) (parts : List (List BillLine)) :
    Except DomainError (List I64) := do
  let weights ← parts.mapM (countedWeight rule)
  pure <| trimWeights <|
    if ∀ weight ∈ weights, weight.val = 0 then parts.map (evenWeight rule) else weights

/-- The parts take their shares of a rule in order; a part whose share is nothing does not keep the
    rule, and neither do the parts past the last share. -/
def keepShares (rule : FrozenFee) : List (List FrozenFee) → List Money → List (List FrozenFee)
  | part :: kept, share :: shares =>
    (if share.isZero then part else part ++ [{ rule with amount := some share }])
      :: keepShares rule kept shares
  | kept, _ => kept

/-- What the parts keep of one rule, after what they keep of the rules before it. -/
def splitRule (parts : List (List BillLine)) (kept : List (List FrozenFee)) (rule : FrozenFee) :
    Except DomainError (List (List FrozenFee)) :=
  match perBillAmount rule with
  | none => .ok (kept.map (· ++ [rule]))
  | some amount => do
    let weights ← shareWeights rule parts
    if weights = [] then pure kept
    else keepShares rule kept <$> liftMoney (amount.allocate weights)

/-- The rules each part of a split keeps, in the parts' order. -/
def splitFeeRules (rules : List FrozenFee) (parts : List (List BillLine)) :
    Except DomainError (List (List FrozenFee)) :=
  rules.foldlM (splitRule parts) (List.replicate parts.length [])

/-! ## Merging -/

/-- What a fee per bill came to on the bill its shares were first split from. -/
structure FeeWhole where
  feeId : FeeId
  amount : Money
deriving DecidableEq

/-- The wholes of a bill split from no other. -/
def feeWholes (rules : List FrozenFee) : List FeeWhole :=
  rules.filterMap fun rule => (perBillAmount rule).map fun amount => ⟨rule.feeId, amount⟩

/-- What a merge reads of one bill. -/
structure MergingBill where
  feeRules : List FrozenFee
  feeWholes : List FeeWhole
  waivedFeeIds : List FeeId

/-- What a merged bill holds. -/
structure MergedFees where
  feeRules : List FrozenFee
  feeWholes : List FeeWhole
  waivedFeeIds : List FeeId
deriving DecidableEq

/-- An absorbed bill's fee per bill joins the rules kept so far when its fee is not among them. -/
def joinRule (kept : List FrozenFee) (rule : FrozenFee) : List FrozenFee :=
  if (perBillAmount rule).isSome ∧ ∀ held ∈ kept, held.feeId ≠ rule.feeId then kept ++ [rule]
  else kept

/-- The larger of two wholes of one fee, the first where they are in different currencies. -/
def FeeWhole.raise (kept whole : FeeWhole) : FeeWhole :=
  if kept.amount.currencyCode = whole.amount.currencyCode ∧ kept.amount.minor < whole.amount.minor
  then { kept with amount := whole.amount }
  else kept

/-- A whole joins the wholes kept so far, or raises the one of its fee. -/
def joinWhole : List FeeWhole → FeeWhole → List FeeWhole
  | [], whole => [whole]
  | kept :: rest, whole =>
    if kept.feeId = whole.feeId then kept.raise whole :: rest else kept :: joinWhole rest whole

/-- A bill's share of a fee per bill: the amount of the first rule it holds under the fee's id. -/
def shareHeld (feeId : FeeId) (bill : MergingBill) : Option Money :=
  (bill.feeRules.find? fun held => decide (held.feeId = feeId)).bind perBillAmount

/-- Add one bill's share of a fee to the shares of the bills before it. -/
def addShareHeld (feeId : FeeId) (shares : Money) (bill : MergingBill) : Except DomainError Money :=
  match shareHeld feeId bill with
  | none => .ok shares
  | some share => liftMoney (shares.checkedAdd share)

/-- The shares of a fee, capped at its whole. -/
def cappedShares (wholes : List FeeWhole) (feeId : FeeId) (shares : Money) : Money :=
  match wholes.find? fun whole => decide (whole.feeId = feeId) with
  | some whole =>
    if whole.amount.currencyCode = shares.currencyCode ∧ whole.amount.minor < shares.minor
    then whole.amount else shares
  | none => shares

/-- One rule of a merged bill: a fee per bill at the sum of the bills' shares. -/
def mergedRule (bills : List MergingBill) (wholes : List FeeWhole) (rule : FrozenFee) :
    Except DomainError FrozenFee :=
  match perBillAmount rule with
  | none => .ok rule
  | some own => do
    let shares ← bills.foldlM (addShareHeld rule.feeId) (Money.zero own.currencyCode)
    pure { rule with amount := some (cappedShares wholes rule.feeId shares) }

/-- A fee id joins the ids waived so far, once. -/
def joinWaived (waived : List FeeId) (feeId : FeeId) : List FeeId :=
  if feeId ∈ waived then waived else waived ++ [feeId]

/-- What a bill holds once `absorbed` are merged into it. -/
def mergeFeeRules (holder : MergingBill) (absorbed : List MergingBill) :
    Except DomainError MergedFees := do
  let bills := holder :: absorbed
  let joined := (absorbed.flatMap (·.feeRules)).foldl joinRule holder.feeRules
  let wholes := (bills.flatMap (·.feeWholes)).foldl joinWhole []
  let feeRules ← joined.mapM (mergedRule bills wholes)
  pure { feeRules, feeWholes := wholes,
         waivedFeeIds := (bills.flatMap (·.waivedFeeIds)).foldl joinWaived [] }

/-! ## Waiving -/

/-- The rule a bill may waive under a fee's id: one it holds, has not waived and that staff may. -/
def waivableFee (rules : List FrozenFee) (waived : List FeeId) (feeId : FeeId) :
    Except DomainError FrozenFee := do
  let rule ← okOr .feeNotOnBill
    ((rules.find? fun rule => decide (rule.feeId = feeId)).filter fun _ => decide (feeId ∉ waived))
  refuseIf (rule.waivable = false) .feeNotWaivable
  pure rule

end PosFramework
