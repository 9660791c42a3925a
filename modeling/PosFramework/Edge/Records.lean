import PosFramework.Core.Billing.Regroup
import PosFramework.Proto.Events

set_option autoImplicit false

/-! # The projection's records

What the edge keeps of each line, order, bill and shift, read back from the log on a restart. -/

namespace PosFramework

open Fallible Money

/-! ## Orders and lines -/

/-- A line, as the projection keeps it. -/
structure LineRecord where
  orderId : OrderId
  state : OrderLineState
  menuItemId : MenuItemId
  displayName : DisplayName
  quantity : Quantity
  seat : Option Nat
  courseId : Option CourseId
  unitPrice : Money
  lineTotal : Money
  taxClassId : TaxClassId
  modifierMenuItemIds : List MenuItemId
  modifierDisplayNames : List DisplayName
  firedTime : Option Timestamp
  stationId : Option StationId
  notePresent : Bool
deriving DecidableEq

/-- A line as it was added. -/
def LineRecord.ofAdded (event : SalesOrderLineAdded) : LineRecord where
  orderId := event.orderId
  state := .added
  menuItemId := event.menuItemId
  displayName := event.displayName
  quantity := event.quantity
  seat := event.seat
  courseId := event.courseId
  unitPrice := event.unitPrice
  lineTotal := event.lineTotal
  taxClassId := event.taxClassId
  modifierMenuItemIds := event.modifierMenuItemIds
  modifierDisplayNames := event.modifierDisplayNames
  firedTime := none
  stationId := none
  notePresent := event.notePresent

/-- Whether a line is charged: it has not been voided. -/
def LineRecord.isSold (line : LineRecord) : Bool := decide (line.state ≠ .voided)

/-- Where an order came in: its channel, where known, and its table. -/
structure OrderOrigin where
  channel : Option SalesChannel
  tableId : Option TableId

/-- What staff decided on an order. -/
inductive StaffDecision
  | confirmed
  | rejected
deriving DecidableEq

/-- Whether staff let an order reach the kitchen. -/
inductive StaffStanding
  | waiting
  | refused
  | fireable
deriving DecidableEq

/-! ## Bills -/

/-- A bill, as the projection keeps it. -/
structure BillRecord where
  orderId : OrderId
  tableId : Option TableId
  state : BillState
  orderLineIds : List OrderLineId
  discount : Option Money
  comp : Option Money
  feeRules : List FrozenFee
  feeWholes : List FeeWhole
  waivedFeeIds : List FeeId

namespace BillRecord

/-- A bill as its opening records it. -/
def opened (event : BillingBillOpened) (tableId : Option TableId) : BillRecord where
  orderId := event.orderId
  tableId := tableId
  state := .open
  orderLineIds := event.orderLineIds
  discount := none
  comp := none
  feeRules := event.feeRules
  feeWholes := PosFramework.feeWholes event.feeRules
  waivedFeeIds := []

def merging (bill : BillRecord) : MergingBill where
  feeRules := bill.feeRules
  feeWholes := bill.feeWholes
  waivedFeeIds := bill.waivedFeeIds

/-- What has been taken off the bill, in a currency to read nothing in. -/
def reductions (bill : BillRecord) (currency : CurrencyCode) : Money × Money :=
  (bill.discount.getD (zero currency), bill.comp.getD (zero currency))

end BillRecord

/-- What was paid for a bill, and on which shift. -/
structure PaidBill where
  cash : Money
  other : Money
  shiftId : Option ShiftId

def PaidBill.nothing (currency : CurrencyCode) : PaidBill where
  cash := zero currency
  other := zero currency
  shiftId := none

/-- The receipt of a paid bill. -/
structure SettledReceipt where
  receiptNumber : Nat
  subtotal : Money
  reductionTotal : Money
  serviceCharge : Money
  taxTotal : Money
  roundingAdjustment : Money
  totalDue : Money
  feeLines : List BillFeeLine
  taxLines : List TaxLine
  buyerSubjectId : Option SubjectId
  businessDate : BusinessDate
  settleTime : Timestamp
  copies : Nat

/-- The receipt a settle leaves. -/
def SettledReceipt.of (event : BillingBillSettled) (businessDate : BusinessDate)
    (settleTime : Timestamp) : SettledReceipt where
  receiptNumber := event.receiptNumber
  subtotal := event.subtotal
  reductionTotal := event.reductionTotal
  serviceCharge := event.serviceCharge
  taxTotal := event.taxTotal
  roundingAdjustment := event.roundingAdjustment
  totalDue := event.totalDue
  feeLines := event.feeLines
  taxLines := event.taxLines
  buyerSubjectId := event.buyerSubjectId
  businessDate := businessDate
  settleTime := settleTime
  copies := 0

/-- The fees a settled bill records. -/
def feeRecords (totals : BillTotals) : List BillFeeLine :=
  totals.feeLines.map fun line =>
    { feeId := line.feeId, code := line.code, displayName := line.displayName,
      amount := line.amount, tax := line.tax, taxComponents := line.taxComponents }

/-! ## Shifts -/

/-- A 32-bit counter that stops at its largest value. -/
def u32SaturatingAdd (n k : Nat) : Nat := min (n + k) 4294967295

/-- How cash moves without a sale. -/
inductive CashMovement
  | paidIn
  | paidOut
  | dropped

def CashMovement.reasonAction : CashMovement → ReasonAction
  | .paidIn => .cashPaidIn
  | .paidOut => .cashPaidOut
  | .dropped => .cashDropped

/-- A shift, as the projection keeps it. -/
structure ShiftRecord where
  till : Option DeviceId
  owner : Option EmployeeId
  openedTime : Timestamp
  businessDate : BusinessDate
  state : ShiftState
  openingFloat : Money
  cashCollected : Money
  paidIn : Money
  paidOut : Money
  dropped : Money
  voidedCash : Money
  voidedBills : Nat
  counted : Option Money
  bills : Nat
  sales : Money
  discounts : Money
  tenders : List (PaymentMethod × Money)
  countBreakdown : CountBreakdown
  floatBreakdown : CountBreakdown
  handedOverFrom : Option ShiftId
  taxComponents : List TaxComponentLine

namespace ShiftRecord

/-- A shift that has taken nothing yet. -/
def opened (openingFloat : Money) (currency : CurrencyCode) (till : Option DeviceId)
    (owner : Option EmployeeId) (openedTime : Timestamp) (businessDate : BusinessDate) :
    ShiftRecord where
  till := till
  owner := owner
  openedTime := openedTime
  businessDate := businessDate
  state := .open
  openingFloat := openingFloat
  cashCollected := zero currency
  paidIn := zero currency
  paidOut := zero currency
  dropped := zero currency
  voidedCash := zero currency
  voidedBills := 0
  counted := none
  bills := 0
  sales := zero currency
  discounts := zero currency
  tenders := []
  countBreakdown := .none
  floatBreakdown := .none
  handedOverFrom := none
  taxComponents := []

/-- The shift a drawer's opening event records, in the currency its figures start in. -/
def ofOpened (event : CashShiftOpened) (currency : CurrencyCode) (openedTime : Timestamp)
    (businessDate : BusinessDate) : ShiftRecord :=
  { opened event.openingFloat currency event.terminalDeviceId event.assignedEmployeeId openedTime
      businessDate with
    floatBreakdown := event.breakdown
    handedOverFrom := event.handedOverFromShiftId }

/-- What the drawer should hold. -/
def expected (record : ShiftRecord) : Except DomainError Money := do
  let withCash ← addMoney record.openingFloat record.cashCollected
  let withPaidIn ← addMoney withCash record.paidIn
  let lessPaidOut ← liftMoney (withPaidIn.checkedSub record.paidOut)
  let lessDropped ← liftMoney (lessPaidOut.checkedSub record.dropped)
  liftMoney (lessDropped.checkedSub record.voidedCash)

end ShiftRecord

namespace CountBreakdown

def isEmpty (breakdown : CountBreakdown) : Bool :=
  breakdown.denominationCounts.isEmpty && breakdown.uncountedAmount.isNone

/-- Add one row of notes to what has been counted, unless it is of another currency, of no value or
    past 64 bits. -/
def addRow (currency : CurrencyCode) (sum : I64) (row : DenominationCount) : Option I64 :=
  if row.denomination.currencyCode ≠ currency ∨ row.denomination.minor ≤ 0 then Option.none
  else do
    let value ← BoundedInt.ofInt? (row.denomination.minor * row.quantity)
    sum.checkedAdd value

/-- Whether the notes and what was not counted come to an amount; an empty breakdown says
    nothing. -/
def addsUpTo (breakdown : CountBreakdown) (amount : Money) : Bool :=
  if breakdown.isEmpty then true
  else
    let uncounted := breakdown.uncountedAmount.getD (zero amount.currencyCode)
    if uncounted.currencyCode ≠ amount.currencyCode ∨ uncounted.minor < 0 then false
    else decide (breakdown.denominationCounts.foldlM (addRow amount.currencyCode)
      uncounted.amountMinor = some amount.amountMinor)

end CountBreakdown

end PosFramework
