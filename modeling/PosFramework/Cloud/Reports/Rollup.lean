import PosFramework.Lib.Entries
import PosFramework.Proto.Envelope
import PosFramework.Proto.Events
import PosFramework.Proto.Time

set_option autoImplicit false

/-! # The rollup of a store's log

The cloud folds a store's events, one at a time, into what its reports read: how many events a
trading day has, the day's revenue, its cash by drawer, and the devices the store has admitted. Some
folds keep what a later event needs: a settled bill for its void, a line for its update, a shift's
float for its close.

Every sum saturates. The folds take the arithmetic as a parameter, so that the sums as the machine
makes them can be set against the exact ones. -/

namespace PosFramework

open Std (ExtTreeMap)
open Entries

/-! ## Events -/

/-- An event as the cloud has it: a payload that a fold reads, or none, where no fold reads the type
    or the payload does not decode. -/
inductive RecordedData
  | known (payload : Payload)
  | deviceAdmissionGranted (admittedDeviceId : DeviceId) (admittedByDeviceId : Option DeviceId)
  | deviceAdmissionRevoked (revokedDeviceId : DeviceId)
  | unread (eventType : String)

/-- An event as the cloud's fold reads it. -/
structure RecordedEvent where
  eventId : EventId
  eventTime : Timestamp
  businessDate : BusinessDate
  shiftId : Option ShiftId
  data : RecordedData

def Payload.eventType : Payload → String
  | .salesTableOpened _ _ => "sales.table.opened"
  | .salesTableClosed _ => "sales.table.closed"
  | .salesTableMerged _ _ => "sales.table.merged"
  | .salesTableTransferred _ _ _ => "sales.table.transferred"
  | .salesOrderOpened _ _ _ => "sales.order.opened"
  | .salesOrderConfirmedByStaff _ => "sales.order.confirmed_by_staff"
  | .salesOrderRejectedByStaff _ _ => "sales.order.rejected_by_staff"
  | .salesOrderClosed _ => "sales.order.closed"
  | .salesOrderLineAdded _ => "sales.order_line.added"
  | .salesOrderLineFired _ _ _ _ => "sales.order_line.fired"
  | .salesOrderLineUpdated _ _ _ _ => "sales.order_line.updated"
  | .salesOrderLineVoided _ _ _ _ => "sales.order_line.voided"
  | .billingBillOpened _ => "billing.bill.opened"
  | .billingPaymentCaptured _ => "billing.payment.captured"
  | .billingBillSettled _ => "billing.bill.settled"
  | .billingReceiptReprinted _ _ _ => "billing.receipt.reprinted"
  | .billingDiscountApplied _ _ _ _ => "billing.discount.applied"
  | .billingFeeWaived _ _ _ => "billing.fee.waived"
  | .billingBillSplit _ _ => "billing.bill.split"
  | .billingBillMerged _ _ => "billing.bill.merged"
  | .billingBillVoided _ _ => "billing.bill.voided"
  | .cashShiftOpened _ => "cash.shift.opened"
  | .cashShiftCounted _ _ _ _ => "cash.shift.counted"
  | .cashShiftClosed _ => "cash.shift.closed"
  | .cashDrawerPaidIn _ _ _ => "cash.drawer.paid_in"
  | .cashDrawerPaidOut _ _ _ => "cash.drawer.paid_out"
  | .cashDrawerDropped _ _ _ _ => "cash.drawer.dropped"
  | .cashDrawerOpened _ _ _ => "cash.drawer.opened"
  | .inventoryItemSoldOut _ _ => "inventory.item.sold_out"
  | .inventoryItemRestored _ => "inventory.item.restored"
  | .securityPermissionOverridden _ _ _ => "security.permission.overridden"
  | .storeChainAnchored _ _ _ => "store.chain.anchored"

def RecordedData.eventType : RecordedData → String
  | .known payload => payload.eventType
  | .deviceAdmissionGranted _ _ => "device.admission.granted"
  | .deviceAdmissionRevoked _ => "device.admission.revoked"
  | .unread eventType => eventType

/-! ## Keys -/

/-- Trading days order as their dates do. -/
instance : LinearOrder BusinessDate :=
  LinearOrder.lift' BusinessDate.day
    fun a b h => by cases a; cases b; exact congrArg BusinessDate.mk h

instance : Std.LawfulEqOrd BusinessDate := ⟨fun h => compare_eq_iff_eq.1 h⟩

instance : Std.TransOrd BusinessDate := inferInstance

/-- The store's one drawer, or that of a till. -/
inductive CashDrawer
  | store
  | till (deviceId : DeviceId)
deriving DecidableEq

namespace CashDrawer

def key : CashDrawer → WithBot DeviceId
  | store => ⊥
  | till deviceId => deviceId

instance : LinearOrder CashDrawer :=
  LinearOrder.lift' key fun a b h => by
    cases a with
    | store =>
      cases b with
      | store => rfl
      | till => exact absurd h.symm (WithBot.coe_ne_bot)
    | till =>
      cases b with
      | store => exact absurd h (WithBot.coe_ne_bot)
      | till => exact congrArg till (WithBot.coe_injective h)

instance : Std.LawfulEqOrd CashDrawer := ⟨fun h => compare_eq_iff_eq.1 h⟩

instance : Std.TransOrd CashDrawer := inferInstance

/-- The drawer an event names. -/
def of : Option DeviceId → CashDrawer
  | none => store
  | some deviceId => till deviceId

end CashDrawer

def PaymentMethod.asWire : PaymentMethod → String
  | .unspecified => "PAYMENT_METHOD_UNSPECIFIED"
  | .cash => "PAYMENT_METHOD_CASH"
  | .card => "PAYMENT_METHOD_CARD"
  | .qr => "PAYMENT_METHOD_QR"
  | .voucher => "PAYMENT_METHOD_VOUCHER"
  | .giftCard => "PAYMENT_METHOD_GIFT_CARD"
  | .other => "PAYMENT_METHOD_OTHER"

/-! ## Sums -/

/-- How a sum is kept: an amount, which is an `i64`, and a count, which is a `u64`. -/
structure Sums where
  amount : Int → Int
  count : Int → Int

/-- Sums as the machine makes them, which stop at the end of their range. -/
def Sums.saturating : Sums := ⟨i64Saturate, fun n => max 0 (min n u64Max)⟩

/-- Sums as they are. -/
def Sums.exact : Sums := ⟨id, id⟩

/-- The first currency of a day stays. -/
def setCurrency (slot : Option CurrencyCode) (code : CurrencyCode) : Option CurrencyCode :=
  slot.or (some code)

variable (sums : Sums)

/-! ## Activity -/

/-- How many events a day has. -/
structure DailyRollup where
  businessDate : BusinessDate
  totalEvents : Int
  byType : ExtTreeMap String Int
deriving DecidableEq

/-- The count of a day's events. -/
def foldEvent (days : ExtTreeMap BusinessDate DailyRollup) (event : RecordedEvent) :
    ExtTreeMap BusinessDate DailyRollup :=
  upsert days event.businessDate ⟨event.businessDate, 0, ∅⟩ fun day =>
    { day with
      totalEvents := sums.count (day.totalEvents + 1)
      byType := upsert day.byType event.data.eventType 0 fun n => sums.count (n + 1) }

/-! ## Revenue -/

structure ItemMix where
  name : String
  orderedQtyMilli : Int
  orderedValue : Int
deriving DecidableEq

structure FeeTotal where
  name : String
  bills : Int
  amount : Int
  tax : Int
deriving DecidableEq

structure TaxComponentTotal where
  componentName : String
  rateBasisPoints : Nat
  tax : Int
deriving DecidableEq

structure VoidedAfterPayment where
  bills : Int
  amount : Int
deriving DecidableEq

/-- A day's revenue. -/
structure DailyRevenue where
  businessDate : BusinessDate
  currencyCode : Option CurrencyCode
  bills : Int
  gross : Int
  reductions : Int
  serviceCharge : Int
  tax : Int
  net : Int
  byItem : ExtTreeMap MenuItemId ItemMix
  byFee : ExtTreeMap String FeeTotal
  byTaxComponent : List TaxComponentTotal
  voidedAfterPayment : VoidedAfterPayment
  byTender : ExtTreeMap String Int
deriving DecidableEq

def emptyRevenue (businessDate : BusinessDate) : DailyRevenue :=
  ⟨businessDate, none, 0, 0, 0, 0, 0, 0, ∅, ∅, [], ⟨0, 0⟩, ∅⟩

/-- The fee line charges something, or taxes something. -/
def BillFeeLine.charges (line : BillFeeLine) : Bool := line.amount.minor ≠ 0 ∨ line.tax.minor ≠ 0

/-- One fee line. `counted` are the codes the bill is counted for already. -/
def foldFee (folded : ExtTreeMap String FeeTotal × List String) (line : BillFeeLine) :
    ExtTreeMap String FeeTotal × List String :=
  if line.charges then
    let code := line.code.value
    let counts := code ∉ folded.2
    (upsert folded.1 code ⟨"", 0, 0, 0⟩ fun total =>
        { name := line.displayName.value
          bills := if counts then sums.count (total.bills + 1) else total.bills
          amount := sums.amount (total.amount + line.amount.minor)
          tax := sums.amount (total.tax + line.tax.minor) },
      if counts then folded.2 ++ [code] else folded.2)
  else folded

/-- A bill's fees; it counts once to each code. -/
def foldFees (byFee : ExtTreeMap String FeeTotal) (lines : List BillFeeLine) :
    ExtTreeMap String FeeTotal :=
  (lines.foldl (foldFee sums) (byFee, [])).1

/-- A component's place in the order of the totals: its name, then its rate. -/
def componentBefore (name : String) (rate : Nat) (total : TaxComponentTotal) : Bool :=
  name < total.componentName ∨ name = total.componentName ∧ rate < total.rateBasisPoints

/-- Put a component's tax to its total, or begin a total at its place. -/
def addComponentTotal (name : String) (rate : Nat) (tax : Int) :
    List TaxComponentTotal → List TaxComponentTotal
  | [] => [⟨name, rate, tax⟩]
  | total :: totals =>
    if name = total.componentName ∧ rate = total.rateBasisPoints then
      { total with tax := sums.amount (total.tax + tax) } :: totals
    else if componentBefore name rate total then ⟨name, rate, tax⟩ :: total :: totals
    else total :: addComponentTotal name rate tax totals

/-- The components of a bill's tax lines, in order. -/
def BillingBillSettled.components (bill : BillingBillSettled) : List TaxComponentLine :=
  bill.taxLines.flatMap TaxLine.components

def foldTaxComponents (totals : List TaxComponentTotal) (components : List TaxComponentLine) :
    List TaxComponentTotal :=
  components.foldl (fun totals component =>
    addComponentTotal sums component.name.text component.rateBasisPoints component.tax.minor totals)
      totals

/-- What a settled bill makes of its day. -/
def DailyRevenue.settle (day : DailyRevenue) (bill : BillingBillSettled) : DailyRevenue :=
  { day with
    currencyCode := some bill.totalDue.currencyCode
    bills := sums.count (day.bills + 1)
    gross := sums.amount (day.gross + bill.subtotal.minor)
    reductions := sums.amount (day.reductions + bill.reductionTotal.minor)
    serviceCharge := sums.amount (day.serviceCharge + bill.serviceCharge.minor)
    tax := sums.amount (day.tax + bill.taxTotal.minor)
    net := sums.amount (day.net + bill.totalDue.minor)
    byFee := foldFees sums day.byFee bill.feeLines
    byTaxComponent := foldTaxComponents sums day.byTaxComponent bill.components }

/-- What an ordered line makes of its day. -/
def DailyRevenue.order (day : DailyRevenue) (line : SalesOrderLineAdded) : DailyRevenue :=
  { day with
    currencyCode := setCurrency day.currencyCode line.lineTotal.currencyCode
    byItem := upsert day.byItem line.menuItemId ⟨"", 0, 0⟩ fun mix =>
      { name := line.displayName.value
        orderedQtyMilli := sums.amount (mix.orderedQtyMilli + line.quantity.milli.val)
        orderedValue := sums.amount (mix.orderedValue + line.lineTotal.minor) } }

/-- A settled bill counts to its day. -/
def foldRevenue (revenue : ExtTreeMap BusinessDate DailyRevenue) (event : RecordedEvent) :
    ExtTreeMap BusinessDate DailyRevenue :=
  match event.data with
  | .known (.billingBillSettled bill) =>
    upsert revenue event.businessDate (emptyRevenue event.businessDate) fun day =>
      day.settle sums bill
  | .known (.salesOrderLineAdded line) =>
    upsert revenue event.businessDate (emptyRevenue event.businessDate) fun day =>
      day.order sums line
  | _ => revenue

/-- A captured payment counts to its day. -/
def foldTenders (revenue : ExtTreeMap BusinessDate DailyRevenue) (event : RecordedEvent) :
    ExtTreeMap BusinessDate DailyRevenue :=
  match event.data with
  | .known (.billingPaymentCaptured payment) =>
    if payment.outcome.known = .captured then
      upsert revenue event.businessDate (emptyRevenue event.businessDate) fun day =>
        { day with
          currencyCode := setCurrency day.currencyCode payment.appliedToBill.currencyCode
          byTender := upsert day.byTender payment.method.known.asWire 0 fun n =>
            sums.amount (n + payment.appliedToBill.minor) }
    else revenue
  | _ => revenue

/-! ## Lines that change -/

/-- What a line last added to the mix of the day it was added on. -/
structure KeptLine where
  businessDate : BusinessDate
  menuItemId : MenuItemId
  qtyMilli : Int
  value : Int
deriving DecidableEq

/-- The lines an update may name. -/
structure KeptLines where
  orders : ExtTreeMap OrderId (ExtTreeMap OrderLineId KeptLine)
deriving DecidableEq

/-- Move an item's mix by what a line's update changes. -/
def DailyRevenue.moveMix (day : DailyRevenue) (line : KeptLine) (qtyMilli value : Int) :
    DailyRevenue :=
  { day with
    byItem := day.byItem.modify line.menuItemId fun mix =>
      { mix with
        orderedQtyMilli :=
          sums.amount (mix.orderedQtyMilli + sums.amount (qtyMilli - line.qtyMilli))
        orderedValue := sums.amount (mix.orderedValue + sums.amount (value - line.value)) } }

/-- A line's update moves the mix of the day it was added on. -/
def foldLineUpdates (kept : KeptLines) (revenue : ExtTreeMap BusinessDate DailyRevenue)
    (event : RecordedEvent) : KeptLines × ExtTreeMap BusinessDate DailyRevenue :=
  match event.data with
  | .known (.salesOrderLineAdded line) =>
    let keptLine : KeptLine :=
      ⟨event.businessDate, line.menuItemId, line.quantity.milli.val, line.lineTotal.minor⟩
    (⟨upsert kept.orders line.orderId ∅ fun lines => lines.insert line.orderLineId keptLine⟩,
      revenue)
  | .known (.salesOrderLineUpdated orderId orderLineId quantity lineTotal) =>
    match kept.orders[orderId]?.bind (·[orderLineId]?) with
    | some line =>
      let keptLine : KeptLine :=
        { line with qtyMilli := quantity.milli.val, value := lineTotal.minor }
      (⟨kept.orders.modify orderId fun lines => lines.insert orderLineId keptLine⟩,
        revenue.modify line.businessDate fun day =>
          day.moveMix sums line quantity.milli.val lineTotal.minor)
    | none => (kept, revenue)
  | .known (.salesOrderClosed orderId) => (⟨kept.orders.erase orderId⟩, revenue)
  | _ => (kept, revenue)

/-! ## Cash -/

/-- The figures of a cash day. -/
inductive CashFigure
  | openingFloat
  | paidIn
  | paidOut
  | shiftsOpened
  | shiftsClosed
  | expected
  | counted
  | variance
  | voidedCash
  | closedFloat
  | dropped
  | handoverDifference
deriving DecidableEq

instance : Fintype CashFigure :=
  ⟨{.openingFloat, .paidIn, .paidOut, .shiftsOpened, .shiftsClosed, .expected, .counted, .variance,
    .voidedCash, .closedFloat, .dropped, .handoverDifference},
      fun figure => by cases figure <;> decide⟩

/-- The cash figures of a store's day, or of one drawer's. -/
abbrev CashTotals := CashFigure → Int

/-- How a figure is kept: the shifts are counts, the others amounts. -/
def Sums.figure : CashFigure → Int → Int
  | .shiftsOpened | .shiftsClosed => sums.count
  | .openingFloat | .paidIn | .paidOut | .expected | .counted | .variance | .voidedCash
  | .closedFloat | .dropped | .handoverDifference => sums.amount

/-- Add one event's figures. What it does not name is zero. -/
def CashTotals.add (totals figures : CashTotals) : CashTotals :=
  fun figure => sums.figure figure (totals figure + figures figure)

/-- One figure, and zero for the others. -/
def CashFigure.only (figure : CashFigure) (n : Int) : CashTotals := Pi.single figure n

/-- The cash of one shift. -/
structure ShiftCash where
  drawer : CashDrawer
  handedOver : Bool
  openingFloat : Int
  paidIn : Int
  paidOut : Int
  dropped : Int
  closed : Bool
  expected : Int
  counted : Int
  variance : Int
deriving DecidableEq

/-- A day's cash. -/
@[ext] structure DailyCash where
  businessDate : BusinessDate
  currencyCode : Option CurrencyCode
  totals : CashTotals
  byDrawer : ExtTreeMap CashDrawer CashTotals
  byShift : ExtTreeMap ShiftId ShiftCash

instance : DecidableEq DailyCash := fun _ _ => decidable_of_iff' _ DailyCash.ext_iff

def emptyCash (businessDate : BusinessDate) : DailyCash := ⟨businessDate, none, 0, ∅, ∅⟩

namespace DailyCash

/-- Add figures to the store's day and to a drawer's. -/
def record (day : DailyCash) (drawer : CashDrawer) (figures : CashTotals) : DailyCash :=
  { day with
    totals := day.totals.add sums figures
    byDrawer := upsert day.byDrawer drawer 0 fun totals => totals.add sums figures }

def withCurrency (day : DailyCash) (code : CurrencyCode) : DailyCash :=
  { day with currencyCode := setCurrency day.currencyCode code }

end DailyCash

/-- The currency, the drawer and the figures of an event that moves cash. -/
def cashFigures : RecordedData → Option (CurrencyCode × CashDrawer × CashTotals)
  | .known (.cashShiftOpened opened) =>
    some (opened.openingFloat.currencyCode, .of opened.terminalDeviceId,
      CashFigure.openingFloat.only opened.openingFloat.minor + CashFigure.shiftsOpened.only 1)
  | .known (.cashShiftClosed closed) =>
    some (closed.expectedAmount.currencyCode, .of closed.terminalDeviceId,
      CashFigure.shiftsClosed.only 1 + CashFigure.expected.only closed.expectedAmount.minor +
        CashFigure.counted.only closed.countedAmount.minor +
        CashFigure.variance.only closed.variance.minor)
  | .known (.cashDrawerPaidIn amount _ till) =>
    some (amount.currencyCode, .of till, CashFigure.paidIn.only amount.minor)
  | .known (.cashDrawerPaidOut amount _ till) =>
    some (amount.currencyCode, .of till, CashFigure.paidOut.only amount.minor)
  | _ => none

/-- The cash an event states. -/
def foldCash (cash : ExtTreeMap BusinessDate DailyCash) (event : RecordedEvent) :
    ExtTreeMap BusinessDate DailyCash :=
  match cashFigures event.data with
  | some (currency, drawer, figures) =>
    upsert cash event.businessDate (emptyCash event.businessDate) fun day =>
      (day.withCurrency currency).record sums drawer figures
  | none => cash

/-- The float of each shift that is open. -/
structure KeptFloats where
  shifts : ExtTreeMap ShiftId Int
deriving DecidableEq

/-- A shift's float beside the figures of its close. The drawer is there if the close made it. -/
def DailyCash.closeFloat (day : DailyCash) (drawer : CashDrawer) (float : Int) : DailyCash :=
  { day with
    totals := day.totals.add sums (CashFigure.closedFloat.only float)
    byDrawer := day.byDrawer.modify drawer fun totals =>
      totals.add sums (CashFigure.closedFloat.only float) }

/-- A close counts the float its shift opened with. -/
def foldClosedFloats (kept : KeptFloats) (cash : ExtTreeMap BusinessDate DailyCash)
    (event : RecordedEvent) : KeptFloats × ExtTreeMap BusinessDate DailyCash :=
  match event.data with
  | .known (.cashShiftOpened opened) =>
    (⟨kept.shifts.insert opened.openedShiftId opened.openingFloat.minor⟩, cash)
  | .known (.cashShiftClosed closed) =>
    match kept.shifts[closed.closedShiftId]? with
    | some float =>
      (⟨kept.shifts.erase closed.closedShiftId⟩,
        cash.modify event.businessDate fun day =>
          day.closeFloat sums (.of closed.terminalDeviceId) float)
    | none => (kept, cash)
  | _ => (kept, cash)

/-- Cash that goes to the safe. -/
def foldDrops (cash : ExtTreeMap BusinessDate DailyCash) (event : RecordedEvent) :
    ExtTreeMap BusinessDate DailyCash :=
  match event.data with
  | .known (.cashDrawerDropped amount till _ _) =>
    upsert cash event.businessDate (emptyCash event.businessDate) fun day =>
      (day.withCurrency amount.currencyCode).record sums (.of till)
        (CashFigure.dropped.only amount.minor)
  | _ => cash

/-! ## Handovers -/

/-- What an opening and a close need. -/
structure KeptHandovers where
  /-- Each drawer's last closed shift and what it counted. -/
  lastClosed : ExtTreeMap CashDrawer (ShiftId × Int)
  /-- Each open shift that took a drawer over: its float and the outgoing count. -/
  carried : ExtTreeMap ShiftId (Int × Int)
deriving DecidableEq

/-- The count of the shift an opening took over, where that is the one last closed on the drawer. -/
def KeptHandovers.outgoing (kept : KeptHandovers) (opened : CashShiftOpened) : Option Int :=
  match kept.lastClosed[CashDrawer.of opened.terminalDeviceId]? with
  | some (closed, counted) =>
    if some closed = opened.handedOverFromShiftId then some counted else none
  | none => none

/-- An opening that takes a drawer over brings no float of its own, and the difference to the
    count. -/
def takeOver (float outgoing : Int) : CashTotals :=
  CashFigure.openingFloat.only (-float) +
    CashFigure.handoverDifference.only (sums.amount (float - outgoing))

/-- The close of a shift that took its drawer over counts the carried cash once. -/
def settleCarried (float outgoing : Int) : CashTotals :=
  CashFigure.expected.only (-float) + CashFigure.closedFloat.only (-float) +
    CashFigure.counted.only (-outgoing) + CashFigure.variance.only (sums.amount (float - outgoing))

/-- An opening that takes a drawer over. -/
def foldOpened (kept : KeptHandovers) (day : DailyCash) (opened : CashShiftOpened) :
    KeptHandovers × DailyCash :=
  let drawer := CashDrawer.of opened.terminalDeviceId
  let float := opened.openingFloat.minor
  let outgoing := kept.outgoing opened
  let (kept, day) := match outgoing with
    | some outgoing =>
      ({ kept with carried := kept.carried.insert opened.openedShiftId (float, outgoing) },
        day.record sums drawer (takeOver sums float outgoing))
    | none => (kept, day)
  let row : ShiftCash := ⟨drawer, outgoing.isSome, float, 0, 0, 0, false, 0, 0, 0⟩
  (kept, { day with byShift := day.byShift.insert opened.openedShiftId row })

/-- The close of a shift. -/
def foldClosed (kept : KeptHandovers) (day : DailyCash) (closed : CashShiftClosed) :
    KeptHandovers × DailyCash :=
  let drawer := CashDrawer.of closed.terminalDeviceId
  let counted := closed.countedAmount.minor
  let day := day.withCurrency closed.countedAmount.currencyCode
  let day := match kept.carried[closed.closedShiftId]? with
    | some (float, outgoing) => day.record sums drawer (settleCarried sums float outgoing)
    | none => day
  let byShift := upsert day.byShift closed.closedShiftId
    ⟨drawer, false, 0, 0, 0, 0, false, 0, 0, 0⟩ fun row =>
      { row with
        closed := true
        expected := closed.expectedAmount.minor
        counted := counted
        variance := closed.variance.minor }
  ({ lastClosed := kept.lastClosed.insert drawer (closed.closedShiftId, counted)
     carried := kept.carried.erase closed.closedShiftId },
    { day with byShift := byShift })

/-- A movement in the row of the shift it is stamped with. -/
def moveShift (cash : ExtTreeMap BusinessDate DailyCash) (event : RecordedEvent)
    (change : ShiftCash → ShiftCash) : ExtTreeMap BusinessDate DailyCash :=
  match event.shiftId with
  | some shiftId => cash.modify event.businessDate fun day =>
    { day with byShift := day.byShift.modify shiftId change }
  | none => cash

/-- Openings and closes, drawer by drawer. -/
def foldHandovers (kept : KeptHandovers) (cash : ExtTreeMap BusinessDate DailyCash)
    (event : RecordedEvent) : KeptHandovers × ExtTreeMap BusinessDate DailyCash :=
  let day := cash[event.businessDate]?.getD (emptyCash event.businessDate)
  match event.data with
  | .known (.cashShiftOpened opened) =>
    let (kept, day) := foldOpened sums kept day opened
    (kept, cash.insert event.businessDate day)
  | .known (.cashShiftClosed closed) =>
    let (kept, day) := foldClosed sums kept day closed
    (kept, cash.insert event.businessDate day)
  | .known (.cashDrawerPaidIn amount _ _) =>
    (kept, moveShift cash event fun row =>
      { row with paidIn := sums.amount (row.paidIn + amount.minor) })
  | .known (.cashDrawerPaidOut amount _ _) =>
    (kept, moveShift cash event fun row =>
      { row with paidOut := sums.amount (row.paidOut + amount.minor) })
  | .known (.cashDrawerDropped amount _ _ _) =>
    (kept, moveShift cash event fun row =>
      { row with dropped := sums.amount (row.dropped + amount.minor) })
  | _ => (kept, cash)

/-! ## Voids after payment -/

/-- What a settled bill added to its day. -/
structure KeptBill where
  totalDue : Int
  subtotal : Int
  reductions : Int
  serviceCharge : Int
  tax : Int
  /-- Its fees by code: the amount and the tax. -/
  fees : List (String × Int × Int)
  /-- Its components: name, rate and tax. -/
  components : List (String × Nat × Int)
  /-- The cash its payments applied to it. -/
  cash : Int
deriving DecidableEq

/-- What a void needs of the bills settled before it. -/
structure KeptBills where
  days : ExtTreeMap BusinessDate (ExtTreeMap BillId KeptBill)
  /-- The cash applied to bills whose settle is still to come. -/
  pendingCash : ExtTreeMap BillId Int
  /-- The drawer of each shift that is open. -/
  shiftDrawers : ExtTreeMap ShiftId CashDrawer
deriving DecidableEq

/-- A fee line joins the fee of its code, or begins one. -/
def addFee (code : String) (amount tax : Int) : List (String × Int × Int) →
    List (String × Int × Int)
  | [] => [(code, amount, tax)]
  | fee :: fees =>
    if fee.1 = code then
      (fee.1, sums.amount (fee.2.1 + amount), sums.amount (fee.2.2 + tax)) :: fees
    else fee :: addFee code amount tax fees

/-- A bill's fees, merged by code. -/
def feesByCode (bill : BillingBillSettled) : List (String × Int × Int) :=
  bill.feeLines.foldl (fun fees line =>
    if line.charges then addFee sums line.code.value line.amount.minor line.tax.minor fees
      else fees) []

/-- What is kept of a settled bill. -/
def keptBill (bill : BillingBillSettled) (cash : Int) : KeptBill where
  totalDue := bill.totalDue.minor
  subtotal := bill.subtotal.minor
  reductions := bill.reductionTotal.minor
  serviceCharge := bill.serviceCharge.minor
  tax := bill.taxTotal.minor
  fees := feesByCode sums bill
  components := bill.components.map fun component =>
    (component.name.text, component.rateBasisPoints, component.tax.minor)
  cash := cash

/-- Take a fee back out of the totals; a total that no bill is left of goes. -/
def takeBackFee (byFee : ExtTreeMap String FeeTotal) (fee : String × Int × Int) :
    ExtTreeMap String FeeTotal :=
  match byFee[fee.1]? with
  | some total =>
    let total := { total with
      amount := sums.amount (total.amount - fee.2.1)
      tax := sums.amount (total.tax - fee.2.2)
      bills := sums.count (total.bills - 1) }
    if total.bills = 0 then byFee.erase fee.1 else byFee.insert fee.1 total
  | none => byFee

/-- Take a component's tax back out of the first total of its name and rate. -/
def takeBackComponent (component : String × Nat × Int) :
    List TaxComponentTotal → List TaxComponentTotal
  | [] => []
  | total :: totals =>
    if total.componentName = component.1 ∧ total.rateBasisPoints = component.2.1 then
      { total with tax := sums.amount (total.tax - component.2.2) } :: totals
    else total :: takeBackComponent component totals

/-- A voided bill is taken out of its day. -/
def DailyRevenue.takeBack (day : DailyRevenue) (bill : KeptBill) : DailyRevenue :=
  { day with
    bills := sums.count (day.bills - 1)
    gross := sums.amount (day.gross - bill.subtotal)
    reductions := sums.amount (day.reductions - bill.reductions)
    serviceCharge := sums.amount (day.serviceCharge - bill.serviceCharge)
    tax := sums.amount (day.tax - bill.tax)
    net := sums.amount (day.net - bill.totalDue)
    byFee := bill.fees.foldl (takeBackFee sums) day.byFee
    byTaxComponent := bill.components.foldl (fun totals component =>
      takeBackComponent sums component totals) day.byTaxComponent
    voidedAfterPayment :=
      { bills := sums.count (day.voidedAfterPayment.bills + 1)
        amount := sums.amount (day.voidedAfterPayment.amount + bill.totalDue) } }

/-- The bill as it was settled, and the day it was settled on: today's, or else that of the latest
    day. -/
def KeptBills.find (kept : KeptBills) (today : BusinessDate) (billId : BillId) :
    Option (BusinessDate × KeptBill) :=
  ((kept.days[today]?.bind (·[billId]?)).map fun bill => (today, bill)).or <|
    kept.days.toList.reverse.findSome? fun entry => entry.2[billId]?.map fun bill => (entry.1, bill)

/-- What is folded for reports, and what is kept to fold the next events. -/
@[ext] structure Rollups where
  days : ExtTreeMap BusinessDate DailyRollup
  revenue : ExtTreeMap BusinessDate DailyRevenue
  cash : ExtTreeMap BusinessDate DailyCash
  devices : ExtTreeMap DeviceId (Int × Option DeviceId × Option Int)
  voids : KeptBills
  lines : KeptLines
  floats : KeptFloats
  handovers : KeptHandovers

instance : DecidableEq Rollups := fun _ _ => decidable_of_iff' _ Rollups.ext_iff

def Rollups.empty : Rollups := ⟨∅, ∅, ∅, ∅, ⟨∅, ∅, ∅⟩, ⟨∅⟩, ⟨∅⟩, ⟨∅, ∅⟩⟩

/-- A void takes back the bill it finds. -/
def foldVoid (kept : KeptBills) (revenue : ExtTreeMap BusinessDate DailyRevenue)
    (cash : ExtTreeMap BusinessDate DailyCash) (event : RecordedEvent) (billId : BillId) :
    KeptBills × ExtTreeMap BusinessDate DailyRevenue × ExtTreeMap BusinessDate DailyCash :=
  match kept.find event.businessDate billId with
  | none => (kept, revenue, cash)
  | some (settledOn, bill) =>
    let drawer := (event.shiftId.bind fun shiftId => kept.shiftDrawers[shiftId]?).getD .store
    ({ kept with days := kept.days.modify settledOn (·.erase billId) },
      upsert revenue settledOn (emptyRevenue settledOn) fun day => day.takeBack sums bill,
      if bill.cash = 0 then cash
      else upsert cash event.businessDate (emptyCash event.businessDate) fun day =>
        day.record sums drawer (CashFigure.voidedCash.only bill.cash))

/-- Captures, settles and voids, and what they keep. -/
def foldVoids (kept : KeptBills) (revenue : ExtTreeMap BusinessDate DailyRevenue)
    (cash : ExtTreeMap BusinessDate DailyCash) (event : RecordedEvent) :
    KeptBills × ExtTreeMap BusinessDate DailyRevenue × ExtTreeMap BusinessDate DailyCash :=
  match event.data with
  | .known (.billingPaymentCaptured payment) =>
    if payment.method.known = .cash then
      ({ kept with pendingCash := upsert kept.pendingCash payment.billId 0 fun n =>
          sums.amount (n + payment.appliedToBill.minor) }, revenue, cash)
    else (kept, revenue, cash)
  | .known (.billingBillSettled bill) =>
    let applied := kept.pendingCash[bill.billId]?.getD 0
    ({ kept with
        pendingCash := kept.pendingCash.erase bill.billId
        days := upsert kept.days event.businessDate ∅ fun bills =>
          bills.insert bill.billId (keptBill sums bill applied) }, revenue, cash)
  | .known (.cashShiftOpened opened) =>
    ({ kept with shiftDrawers :=
        kept.shiftDrawers.insert opened.openedShiftId (.of opened.terminalDeviceId) },
          revenue, cash)
  | .known (.cashShiftClosed closed) =>
    ({ kept with shiftDrawers := kept.shiftDrawers.erase closed.closedShiftId }, revenue, cash)
  | .known (.billingBillVoided billId _) => foldVoid sums kept revenue cash event billId
  | _ => (kept, revenue, cash)

/-! ## Devices -/

/-- A device's row: when it was admitted, by which device, and when it was revoked. -/
def foldDevices (devices : ExtTreeMap DeviceId (Int × Option DeviceId × Option Int))
    (event : RecordedEvent) : ExtTreeMap DeviceId (Int × Option DeviceId × Option Int) :=
  match event.data with
  | .deviceAdmissionGranted admitted admittedBy =>
    devices.insert admitted (event.eventTime.epochMs, admittedBy, none)
  | .deviceAdmissionRevoked revoked =>
    upsert devices revoked (0, none, none) fun row =>
      (row.1, row.2.1, some event.eventTime.epochMs)
  | _ => devices

/-! ## One event -/

/-- One event goes through every fold, in the order the projection runs them. -/
def Rollups.fold (rollups : Rollups) (event : RecordedEvent) : Rollups :=
  let days := foldEvent sums rollups.days event
  let revenue := foldRevenue sums rollups.revenue event
  let revenue := foldTenders sums revenue event
  let (lines, revenue) := foldLineUpdates sums rollups.lines revenue event
  let cash := foldCash sums rollups.cash event
  let (floats, cash) := foldClosedFloats sums rollups.floats cash event
  let cash := foldDrops sums cash event
  let (handovers, cash) := foldHandovers sums rollups.handovers cash event
  let (voids, revenue, cash) := foldVoids sums rollups.voids revenue cash event
  let devices := foldDevices rollups.devices event
  ⟨days, revenue, cash, devices, voids, lines, floats, handovers⟩

/-- A log folded from nothing. -/
def rollupOf (log : List RecordedEvent) : Rollups := log.foldl (Rollups.fold sums) .empty

/-- No sum of the log's rollup saturates: after every event the sums are the exact ones. -/
def NoneSaturates (log : List RecordedEvent) : Prop :=
  ∀ before, before <+: log → rollupOf .saturating before = rollupOf .exact before

instance (log : List RecordedEvent) : Decidable (NoneSaturates log) :=
  decidable_of_iff (∀ before ∈ log.inits, rollupOf .saturating before = rollupOf .exact before)
    ⟨fun h before hbefore => h before ((List.mem_inits _ _).2 hbefore),
      fun h before hbefore => h before ((List.mem_inits _ _).1 hbefore)⟩

end PosFramework
