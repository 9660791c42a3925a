import PosFramework.Proto.Ids
import PosFramework.Proto.Money

set_option autoImplicit false

/-! # The domain's error type

Each variant names the rule the caller's inputs broke. Money errors are lifted into it by
`liftMoney`, the conversion the source writes as `?`. -/

namespace PosFramework

/-- Why a proposed split is not a partition of the bill's lines. -/
inductive PartitionFault
  | tooFewParts
  | emptyPart
  | lineNotOnTheBill
  | linesDoNotPartition
deriving DecidableEq

/-- How long after it was paid a bill may still be voided. -/
inductive SettledVoidWindow
  | unspecified
  | businessDate
  | shift
deriving DecidableEq

instance : WireEnum SettledVoidWindow := ⟨.unspecified⟩

/-- Why the domain refuses. -/
inductive DomainError
  | money (error : MoneyError)
  | transition (machine fromState trigger : String)
  | paymentsDoNotSumToTotal (appliedMinor totalDueMinor : I64)
  | negativeChange
  | reductionExceedsBill (reductionMinor reducibleMinor : I64)
  | notAPartition (reason : PartitionFault)
  | taxRateNotConfigured (taxClassId : TaxClassId) (salesChannel : SalesChannel)
  | empty (what : String)
  | linesDoNotMatchBases
  | feeNotOnBill
  | feeNotWaivable
  | settledVoidWindowClosed (window : SettledVoidWindow)
  | eInvoiceIssued
  | permissionDenied (permission : String)
  | capabilityDisabled (capability : String)
deriving DecidableEq

/-- A money result in the domain's error type. -/
def liftMoney {α : Type} (x : Except MoneyError α) : Except DomainError α :=
  x.mapError DomainError.money

@[simp] theorem liftMoney_eq_ok {α : Type} {x : Except MoneyError α} {a : α} :
    liftMoney x = .ok a ↔ x = .ok a :=
  Fallible.mapError_eq_ok

end PosFramework
