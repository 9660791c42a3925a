import PosFramework.Core.Billing.Basic
import PosFramework.Proto.Config

set_option autoImplicit false

/-! # Events

What the store's log records: an envelope that says when, by whom and on which shift, and the
payload of what happened. A payload the projection does not fold (an override, an anchor of the
chain, a drawer opened without a sale) is recorded all the same. -/

namespace PosFramework

/-- A line was put on an order. -/
structure SalesOrderLineAdded where
  orderId : OrderId
  orderLineId : OrderLineId
  menuItemId : MenuItemId
  displayName : DisplayName
  quantity : Quantity
  unitPrice : Money
  lineTotal : Money
  taxClassId : TaxClassId
  taxRate : Ratio
  seat : Option Nat
  courseId : Option CourseId
  modifierMenuItemIds : List MenuItemId
  modifierDisplayNames : List DisplayName
  notePresent : Bool
deriving DecidableEq

/-- A bill was opened. -/
structure BillingBillOpened where
  billId : BillId
  orderId : OrderId
  orderLineIds : List OrderLineId
  feeRules : List FrozenFee
deriving DecidableEq

/-- A fee as a settled bill records it. -/
structure BillFeeLine where
  feeId : FeeId
  code : FeeCode
  displayName : DisplayName
  amount : Money
  tax : Money
  taxComponents : List TaxComponentLine
deriving DecidableEq

/-- A bill was paid. -/
structure BillingBillSettled where
  billId : BillId
  receiptNumber : Nat
  subtotal : Money
  reductionTotal : Money
  serviceCharge : Money
  taxTotal : Money
  roundingAdjustment : Money
  totalDue : Money
  buyerSubjectId : Option SubjectId
  feeLines : List BillFeeLine
  /-- A recorded tax line has the fields of a computed one. -/
  taxLines : List TaxLine
deriving DecidableEq

/-- What came of a tender. -/
inductive PaymentOutcome
  | unspecified
  | captured
  | declined
  | unknown
deriving DecidableEq

instance : WireEnum PaymentOutcome := ⟨.unspecified⟩

/-- A tender was taken. -/
structure BillingPaymentCaptured where
  billId : BillId
  paymentId : PaymentId
  method : Open PaymentMethod
  outcome : Open PaymentOutcome
  tendered : Money
  appliedToBill : Money
  changeGiven : Money
  tipAmount : Money
deriving DecidableEq

structure DenominationCount where
  denomination : Money
  quantity : Nat
deriving DecidableEq

/-- A drawer counted note by note. -/
structure CountBreakdown where
  denominationCounts : List DenominationCount
  uncountedAmount : Option Money
deriving DecidableEq

def CountBreakdown.none : CountBreakdown := ⟨[], Option.none⟩

/-- A shift was opened. -/
structure CashShiftOpened where
  openedShiftId : ShiftId
  openingFloat : Money
  terminalDeviceId : Option DeviceId
  assignedEmployeeId : Option EmployeeId
  breakdown : CountBreakdown
  handedOverFromShiftId : Option ShiftId
deriving DecidableEq

/-- A shift was closed. -/
structure CashShiftClosed where
  closedShiftId : ShiftId
  expectedAmount : Money
  countedAmount : Money
  variance : Money
  terminalDeviceId : Option DeviceId
  reasonCodeId : Option ReasonCodeId
deriving DecidableEq

/-- What an event says, by its type. -/
inductive Payload
  | salesTableOpened (tableId : TableId) (orderId : OrderId)
  | salesTableClosed (tableId : TableId)
  | salesTableMerged (targetOrderId mergedOrderId : OrderId)
  | salesTableTransferred (orderId : OrderId) (fromTableId toTableId : TableId)
  | salesOrderOpened (orderId : OrderId) (channel : Open SalesChannel) (tableId : Option TableId)
  | salesOrderConfirmedByStaff (orderId : OrderId)
  | salesOrderRejectedByStaff (orderId : OrderId) (reasonCodeId : ReasonCodeId)
  | salesOrderClosed (orderId : OrderId)
  | salesOrderLineAdded (added : SalesOrderLineAdded)
  | salesOrderLineFired (orderId : OrderId) (orderLineId : OrderLineId) (stationId : StationId)
      (fireTime : Timestamp)
  | salesOrderLineUpdated (orderId : OrderId) (orderLineId : OrderLineId) (quantity : Quantity)
      (lineTotal : Money)
  | salesOrderLineVoided (orderId : OrderId) (orderLineId : OrderLineId)
      (reasonCodeId : ReasonCodeId) (wasFired : Bool)
  | billingBillOpened (opened : BillingBillOpened)
  | billingPaymentCaptured (captured : BillingPaymentCaptured)
  | billingBillSettled (settled : BillingBillSettled)
  | billingReceiptReprinted (billId : BillId) (receiptNumber copyNumber : Nat)
  | billingDiscountApplied (billId : BillId) (kind : Open ReductionKind) (amount : Money)
      (reasonCodeId : Option ReasonCodeId)
  | billingFeeWaived (billId : BillId) (feeId : FeeId) (reasonCodeId : ReasonCodeId)
  | billingBillSplit (sourceBillId : BillId) (resultingBillIds : List BillId)
  | billingBillMerged (targetBillId : BillId) (mergedBillIds : List BillId)
  | billingBillVoided (billId : BillId) (reasonCodeId : ReasonCodeId)
  | cashShiftOpened (opened : CashShiftOpened)
  | cashShiftCounted (countedShiftId : ShiftId) (countedAmount : Money) (countTime : Timestamp)
      (breakdown : CountBreakdown)
  | cashShiftClosed (closed : CashShiftClosed)
  | cashDrawerPaidIn (amount : Money) (reasonCodeId : ReasonCodeId)
      (terminalDeviceId : Option DeviceId)
  | cashDrawerPaidOut (amount : Money) (reasonCodeId : ReasonCodeId)
      (terminalDeviceId : Option DeviceId)
  | cashDrawerDropped (amount : Money) (terminalDeviceId : Option DeviceId)
      (reasonCodeId : Option ReasonCodeId) (denominationCounts : List DenominationCount)
  | cashDrawerOpened (standalone : Bool) (reasonCodeId : Option ReasonCodeId)
      (terminalDeviceId : Option DeviceId)
  | inventoryItemSoldOut (menuItemId : MenuItemId) (automatic : Bool)
  | inventoryItemRestored (menuItemId : MenuItemId)
  | securityPermissionOverridden (permissionKey : String) (approverEmployeeId : EmployeeId)
      (exceededBy : Option Money)
  | storeChainAnchored (chainSeq : Nat) (chainHead : String) (unchained : Nat)
deriving DecidableEq

/-- An event, as the edge writes it. -/
structure Event where
  eventId : EventId
  eventTime : Timestamp
  businessDate : BusinessDate
  deviceId : DeviceId
  employeeId : Option EmployeeId
  shiftId : Option ShiftId
  payload : Payload
deriving DecidableEq

end PosFramework
