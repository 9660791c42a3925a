import PosFramework.Edge.Session
import PosFramework.Lib.Entries

set_option autoImplicit false

/-! # The projection

What the edge knows of the store while it trades, and the operations its commands and its replay
change it by. Maps and sets are keyed by id. Two of them are searched by value: an order's table, of
which there is at most one, and the live orders, from the newest. -/

namespace PosFramework

open Fallible Std

/-- What the edge remembers of its log. -/
structure Projection where
  tables : ExtTreeMap TableId TableState
  /-- The order each table points at. -/
  tableOrders : ExtTreeMap TableId OrderId
  lines : ExtTreeMap OrderLineId LineRecord
  orders : ExtTreeMap OrderId OrderOrigin
  staffDecisions : ExtTreeMap OrderId StaffDecision
  closedOrders : ExtTreeSet OrderId
  settled : ExtTreeMap BillId SettledReceipt
  paid : ExtTreeMap BillId PaidBill
  bills : ExtTreeMap BillId BillRecord
  /-- Each order's bills, in the order they opened. -/
  orderBillIds : ExtTreeMap OrderId (List BillId)
  shifts : ExtTreeMap ShiftId ShiftRecord
  /-- The shift each drawer trades on: a till's, or the store's one drawer's. -/
  openShifts : ExtTreeMap (Option DeviceId) ShiftId
  lastClosed : ExtTreeMap (Option DeviceId) ShiftId
  soldOut : ExtTreeSet MenuItemId
  /-- Each order's lines, by id. -/
  orderLines : ExtTreeMap OrderId (List OrderLineId)
  /-- The orders with lines that are neither paid, refused nor closed. -/
  live : ExtTreeSet OrderId

namespace Projection

/-- The projection of a store with no history. -/
def empty : Projection where
  tables := ∅
  tableOrders := ∅
  lines := ∅
  orders := ∅
  staffDecisions := ∅
  closedOrders := ∅
  settled := ∅
  paid := ∅
  bills := ∅
  orderBillIds := ∅
  shifts := ∅
  openShifts := ∅
  lastClosed := ∅
  soldOut := ∅
  orderLines := ∅
  live := ∅

variable (P : Projection)

/-! ## Reads -/

def tableState (tableId : TableId) : TableState := P.tables[tableId]?.getD .free

def orderForTable (tableId : TableId) : Option OrderId := P.tableOrders[tableId]?

/-- The table that points at an order. -/
def tableForOrder (orderId : OrderId) : Option TableId :=
  Keyed.findKey (fun order => decide (order = orderId)) P.tableOrders

def orderOrigin (orderId : OrderId) : Option OrderOrigin := P.orders[orderId]?

/-- The channel an order came by. -/
def orderChannel (orderId : OrderId) : Option SalesChannel :=
  (P.orderOrigin orderId).bind (·.channel)

def staffDecision (orderId : OrderId) : Option StaffDecision := P.staffDecisions[orderId]?

def line (lineId : OrderLineId) : Option LineRecord := P.lines[lineId]?

def bill (billId : BillId) : Option BillRecord := P.bills[billId]?

def shift (shiftId : ShiftId) : Option ShiftRecord := P.shifts[shiftId]?

/-- The ids of an order's lines. -/
def lineIdsForOrder (orderId : OrderId) : List OrderLineId := P.orderLines[orderId]?.getD []

/-- The ids of an order's bills. -/
def billIdsForOrder (orderId : OrderId) : List BillId := P.orderBillIds[orderId]?.getD []

/-- An order's lines with their ids, in the order of the ids. -/
def identifiedLinesForOrder (orderId : OrderId) : List (OrderLineId × LineRecord) :=
  (P.lineIdsForOrder orderId).filterMap fun id => (P.line id).map fun record => (id, record)

/-- An order's lines. -/
def linesForOrder (orderId : OrderId) : List LineRecord :=
  (P.identifiedLinesForOrder orderId).map (·.2)

/-- The lines that were not sent to the kitchen. -/
def unfiredLinesForOrder (orderId : OrderId) : List (OrderLineId × LineRecord) :=
  (P.identifiedLinesForOrder orderId).filter fun entry => decide (entry.2.state = .added)

/-- The lines of an order that are not voided. -/
def soldLineIds (orderId : OrderId) : List OrderLineId :=
  (P.lineIdsForOrder orderId).filter fun id => (P.line id).any (·.isSold)

/-- The lines a bill charges; a bill that names none charges every line sold on its order. -/
def coveredLines (bill : BillRecord) : List OrderLineId :=
  if bill.orderLineIds = [] then P.soldLineIds bill.orderId else bill.orderLineIds

/-- Whether a bill is in a state. -/
def billIn (state : BillState) (billId : BillId) : Bool :=
  (P.bill billId).any fun bill => decide (bill.state = state)

/-- The newest of an order's bills in a state. -/
def latestBillIn (orderId : OrderId) (state : BillState) : Option BillId :=
  (P.billIdsForOrder orderId).reverse.find? (P.billIn state)

/-- The bill an order is charged on: the latest that is open, or that is paid. -/
def billForOrder (orderId : OrderId) : Option BillId :=
  (P.latestBillIn orderId .open).or (P.latestBillIn orderId .settled)

def isSettled (billId : BillId) : Bool := P.billIn .settled billId

/-- Whether an order has no bill open and one that was voided after it was paid. -/
def voidedAfterPayment (orderId : OrderId) : Bool :=
  (P.latestBillIn orderId .open).isNone &&
    (P.billIdsForOrder orderId).any fun billId =>
      P.settled[billId]?.isSome && P.billIn .voided billId

/-- Whether staff have yet to decide on an order. -/
def awaitsStaffConfirmation (session : EdgeSession) (orderId : OrderId) : Bool :=
  (P.staffDecision orderId).isNone && !decide (orderId ∈ P.closedOrders) &&
    (P.orderOrigin orderId).any fun origin =>
      session.holdsForStaffConfirmation origin.channel origin.tableId

/-- How an order stands with staff. -/
def staffStanding (session : EdgeSession) (orderId : OrderId) : StaffStanding :=
  match P.staffDecision orderId with
  | some .rejected => .refused
  | some .confirmed => .fireable
  | none => if P.awaitsStaffConfirmation session orderId then .waiting else .fireable

/-- Whether a guest's lines may join an order: one that trades, that staff have let through and that
    has no bill yet. -/
def takesJoiningLines (session : EdgeSession) (orderId : OrderId) : Bool :=
  !decide (orderId ∈ P.closedOrders) && decide (P.staffStanding session orderId = .fireable) &&
    (P.billForOrder orderId).isNone

/-- Whether an order came in at a table, or was moved there. -/
def isAtTable (tableId : TableId) (orderId : OrderId) : Bool :=
  (P.orderOrigin orderId).any fun origin => decide (origin.tableId = some tableId)

/-- The order a guest's lines at a table join: the one the table points at, else the newest live one
    there. -/
def joinableOrderAt (session : EdgeSession) (tableId : TableId) (excluding : Option OrderId) :
    Option OrderId :=
  ((P.orderForTable tableId).toList ++
      (P.live.toList.reverse.filter (P.isAtTable tableId))).find? fun orderId =>
    decide (some orderId ≠ excluding) && P.takesJoiningLines session orderId

def openShiftOf (till : Option DeviceId) : Option ShiftId := P.openShifts[till]?

def lastClosedOf (till : Option DeviceId) : Option ShiftId := P.lastClosed[till]?

/-- The drawer model the open shifts were opened under. -/
def openModel : Option DrawerModel :=
  if P.openShifts.keys.any Option.isSome then some .perTerminal
  else if P.openShifts.isEmpty then none
  else some .perStore

/-! ## The live orders -/

/-- Whether an order stays on the boards: it has lines and is neither paid, refused nor closed. -/
def staysLive (orderId : OrderId) : Bool :=
  let settled := (P.billForOrder orderId).any P.isSettled
  let refused := decide (P.staffDecision orderId = some .rejected)
  let closed := decide (orderId ∈ P.closedOrders) || P.voidedAfterPayment orderId
  !(P.lineIdsForOrder orderId).isEmpty && !settled && !refused && !closed

/-- An order's place on the boards is brought up to date. -/
def refreshLive (orderId : OrderId) : Projection :=
  { P with live :=
      if P.staysLive orderId then P.live.insert orderId else P.live.erase orderId }

/-! ## Tables and orders -/

/-- A table moves to a state. -/
def setTable (tableId : TableId) (state : TableState) : Projection :=
  { P with tables := P.tables.insert tableId state }

/-- A table points at an order. -/
def openOrder (tableId : TableId) (orderId : OrderId) : Projection :=
  { P with tableOrders := P.tableOrders.insert tableId orderId }

/-- A table points at no order any more. -/
def clearTable (tableId : TableId) : Projection :=
  { P with tableOrders := P.tableOrders.erase tableId }

/-- An order moves to another table. -/
def moveOrder (orderId : OrderId) (fromTableId toTableId : TableId) : Projection :=
  let left := if P.orderForTable fromTableId = some orderId then P.clearTable fromTableId else P
  let seated := left.openOrder toTableId orderId
  { seated with
    orders := seated.orders.modify orderId fun origin => { origin with tableId := some toTableId } }

/-- An order is known by where it came from. -/
def openOrderOrigin (orderId : OrderId) (channel : Option SalesChannel)
    (tableId : Option TableId) : Projection :=
  { P with orders := P.orders.insert orderId { channel, tableId } }

/-- A guest's order takes its table, whatever state that is in. -/
def seatGuestOrder (tableId : TableId) (orderId : OrderId) : Projection :=
  (P.setTable tableId .occupied).openOrder tableId orderId

/-- The order a rejected one had displaced at its table: the newest live one there. -/
def displacedAt (tableId : TableId) : Option OrderId :=
  P.live.toList.reverse.find? (P.isAtTable tableId)

/-- A table whose order was rejected goes back to the order it displaced, or to no order. -/
def giveTableBack (tableId : TableId) : Projection :=
  match P.displacedAt tableId with
  | some other =>
    (P.openOrder tableId other).setTable tableId
      (if (P.latestBillIn other .open).isSome then .awaitingPayment else .occupied)
  | none =>
    let cleared := P.clearTable tableId
    if cleared.tableState tableId = .occupied then cleared.setTable tableId .free else cleared

/-- Staff decide on an order; the table of a refused one is given back. -/
def recordStaffDecision (orderId : OrderId) (decision : StaffDecision) : Projection :=
  let decided :=
    ({ P with staffDecisions := P.staffDecisions.insert orderId decision }).refreshLive orderId
  if decision = .rejected then
    match decided.tableForOrder orderId with
    | some tableId => decided.giveTableBack tableId
    | none => decided
  else decided

/-- The table that points at an order, where one does, points at none. -/
def clearTableOf (orderId : OrderId) : Projection :=
  match P.tableForOrder orderId with
  | some tableId => P.clearTable tableId
  | none => P

/-- An order ends. -/
def closeOrder (orderId : OrderId) : Projection :=
  (({ P with closedOrders := P.closedOrders.insert orderId }).clearTableOf orderId).refreshLive
    orderId

/-! ## Lines -/

/-- Put a line into its order's index. -/
def indexLine (orderId : OrderId) (lineId : OrderLineId) : Projection :=
  { P with
    orderLines := P.orderLines.insert orderId
      (Keyed.insertSorted lineId (P.lineIdsForOrder orderId)) }

/-- Take a line off the index of the order it was on. -/
def unindexLine (orderId : OrderId) (lineId : OrderLineId) : Projection :=
  { P with orderLines := P.orderLines.modify orderId (·.filter fun id => decide (id ≠ lineId)) }

/-- Record a line. One the projection holds already is put back on the order its event names. -/
def addLine (lineId : OrderLineId) (record : LineRecord) : Projection :=
  let placed := { P with lines := P.lines.insert lineId record }
  let indexed :=
    match (P.line lineId).map (·.orderId) with
    | none => placed.indexLine record.orderId lineId
    | some previous =>
      if previous = record.orderId then placed
      else ((placed.unindexLine previous lineId).indexLine record.orderId lineId).refreshLive
        previous
  indexed.refreshLive record.orderId

/-- The lines of an order as records of another. -/
def readdressLines (lineIds : List OrderLineId) (target : OrderId) : Projection :=
  { P with
    lines := lineIds.foldl
      (fun lines id => lines.modify id fun record => { record with orderId := target }) P.lines }

/-- The index of an order's lines joins another's. -/
def joinIndexes (target merged : OrderId) : Projection :=
  let without := P.orderLines.erase merged
  { P with
    orderLines := without.insert target
      (Keyed.unionSorted (without[target]?.getD []) (P.lineIdsForOrder merged)) }

/-- The table that points at an order, where one does, points at another. -/
def repointTable (target merged : OrderId) : Projection :=
  match P.tableForOrder merged with
  | some tableId => P.openOrder tableId target
  | none => P

/-- An order's lines move to another, and the order ends. -/
def mergeOrder (target merged : OrderId) : Projection :=
  if target = merged then P
  else
    let moved := (P.readdressLines (P.lineIdsForOrder merged) target).joinIndexes target merged
    let pointed := moved.repointTable target merged
    (({ pointed with closedOrders := pointed.closedOrders.insert merged }).refreshLive
      merged).refreshLive target

/-- Change a line's record, where there is one, and its order's place on the boards. -/
def updateLine (lineId : OrderLineId) (change : LineRecord → LineRecord) : Projection :=
  match P.line lineId with
  | none => P
  | some record =>
    ({ P with lines := P.lines.insert lineId (change record) }).refreshLive record.orderId

def setLineState (lineId : OrderLineId) (state : OrderLineState) : Projection :=
  P.updateLine lineId fun record => { record with state }

/-- When and where a line was sent. -/
def setFiredTime (lineId : OrderLineId) (firedTime : Timestamp) (stationId : StationId) :
    Projection :=
  P.updateLine lineId fun record =>
    { record with firedTime := some firedTime, stationId := some stationId }

/-- A line is sent to the kitchen. -/
def foldFired (lineId : OrderLineId) (firedTime : Timestamp) (stationId : StationId) : Projection :=
  (P.setLineState lineId .fired).setFiredTime lineId firedTime stationId

/-- A line takes another quantity and total. -/
def setLineQuantity (lineId : OrderLineId) (quantity : Quantity) (lineTotal : Money) : Projection :=
  { P with lines := P.lines.modify lineId fun record => { record with quantity, lineTotal } }

/-- An item is sold out, or is back. -/
def setSoldOut (menuItemId : MenuItemId) (soldOut : Bool) : Projection :=
  { P with
    soldOut := if soldOut then P.soldOut.insert menuItemId else P.soldOut.erase menuItemId }

/-- A guest's order: its table, where it is, its lines and the order they join. -/
def foldInboundOrder (orderId : OrderId) (channel : Option SalesChannel) (tableId : Option TableId)
    (lines : List (OrderLineId × LineRecord)) (joins : Option OrderId) : Projection :=
  let seated :=
    match tableId with
    | some tableId => P.seatGuestOrder tableId orderId
    | none => P
  let opened := seated.openOrderOrigin orderId channel tableId
  let filled := lines.foldl (fun P entry => P.addLine entry.1 entry.2) opened
  match joins with
  | some target => filled.mergeOrder target orderId
  | none => filled

end Projection

end PosFramework
