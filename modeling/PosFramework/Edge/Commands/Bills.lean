import PosFramework.Core.Billing.Assemble
import PosFramework.Edge.Plan

set_option autoImplicit false

/-! # Commands on bills

Opening a bill on an order, taking money off it, splitting and merging bills, taking payment and
voiding. A bill is always assembled from its order's lines as they stand, narrowed to the lines the
bill covers. -/

namespace PosFramework

open Fallible Money

/-! ## What a bill is assembled from -/

/-- The lines of a bill, as it is assembled from them. -/
structure OrderSnapshot where
  lines : List LineRecord
  classBases : List ClassBase
  billLines : List BillLine
  salesChannel : SalesChannel

/-- The lines that are not voided. -/
def soldLines (lines : List LineRecord) : List LineRecord := lines.filter (·.isSold)

/-- A line, as the fees count it. -/
def billLine (line : LineRecord) : BillLine where
  menuItemId := line.menuItemId
  quantity := line.quantity
  net := line.lineTotal
  taxClassId := line.taxClassId

def billLines (lines : List LineRecord) : List BillLine := (soldLines lines).map billLine

/-- What the sold lines come to in each tax class. -/
def classBases (lines : List LineRecord) : Except DomainError (List ClassBase) :=
  (soldLines lines).foldlM (fun bases line => addToClass bases line.taxClassId line.lineTotal) []

namespace Projection

variable (P : Projection)

/-- The lines of a bill's order that the bill covers, all of them where it names none. -/
def snapshotLines (bill : BillRecord) : List LineRecord :=
  if bill.orderLineIds = [] then P.linesForOrder bill.orderId
  else ((P.identifiedLinesForOrder bill.orderId).filter fun entry =>
    decide (entry.1 ∈ bill.orderLineIds)).map (·.2)

/-- The lines a bill covers, and the channel of its order. -/
def billSnapshot (session : EdgeSession) (bill : BillRecord) :
    Except DomainError OrderSnapshot := do
  let lines := P.snapshotLines bill
  let bases ← classBases lines
  pure
    { lines
      classBases := bases
      billLines := billLines lines
      salesChannel := (P.orderChannel bill.orderId).getD session.salesChannel }

end Projection

/-- What a bill is assembled from. -/
def EdgeSession.billInput (session : EdgeSession) (order : OrderSnapshot)
    (feeRules : List FrozenFee) (waivedFeeIds : List FeeId) (reductions : Money × Money) :
    BillInput where
  currencyCode := session.currency
  classBases := order.classBases
  billDiscount := reductions.1
  comps := reductions.2
  serviceCharge := zero session.currency
  serviceChargeTaxable := true
  serviceChargeTaxClass := none
  rates := session.taxRates
  salesChannel := order.salesChannel
  cashRoundingIncrement := session.cashRoundingIncrement
  taxRounding := session.taxRounding.rounding
  pricesIncludeTax := session.pricesIncludeTax
  feeRules := feeRules
  waivedFeeIds := waivedFeeIds
  lines := order.billLines

namespace Env

variable (env : Env) (ids : Nat → Nat) (P : Projection)

/-! ## Opening -/

/-- The table of an order that can be billed: one with something sold on it and no bill yet. -/
def billableOrder (orderId : OrderId) : Except AppError (Option TableId) := do
  refuseIf ((P.billForOrder orderId).isSome = true) .billAlreadyOpen
  let table := P.tableForOrder orderId
  refuseIf (table = none ∧ P.linesForOrder orderId = []) .unknownOrder
  refuseIf (P.soldLineIds orderId = []) .nothingToBill
  pure table

/-- Asking for the bill is a move of the table, where the order has one. -/
def requestBill (ctx : DecisionCtx) (table : Option TableId) :
    Except AppError (Option (TableId × TableState)) :=
  match table with
  | none => .ok none
  | some tableId => do
    let decision ← liftDomain (decideTable (P.tableState tableId) .requestBill ctx)
    pure (some (tableId, decision.nextState))

/-- The change an opened bill makes. -/
def recordOpenedBill (P : Projection) (opened : BillingBillOpened) (table : Option TableId)
    (moved : Option (TableId × TableState)) : Projection :=
  let recorded := P.openBillRecord opened.billId (.opened opened table)
  match moved with
  | some (tableId, state) => recorded.setTable tableId state
  | none => recorded

/-- A bill is opened on what an order has sold. -/
def openBillForOrder (actor : Actor) (orderId : OrderId) : Except AppError Plan := do
  let ctx ← env.decisionCtx actor
  let _ ← liftDomain (ctx.require .openBill)
  let table ← billableOrder P orderId
  env.checkFlowGuard "billing.bill.open" orderId
  let moved ← requestBill P ctx table
  let opened : BillingBillOpened :=
    { billId := ⟨ids 0⟩
      orderId
      orderLineIds := P.soldLineIds orderId
      feeRules := env.session.fees.inForce
        ((P.orderChannel orderId).getD env.session.salesChannel) }
  pure
    { events := [P.prepare ctx (ids 1) (.billingBillOpened opened)]
      minted := 2
      apply := fun P => .ok (recordOpenedBill P opened table moved) }

/-- Open the bill of a table's order. A table with no order is refused by its own machine, unless it
    is occupied. -/
def openBill (actor : Actor) (tableId : TableId) : Except AppError Plan :=
  match P.orderForTable tableId with
  | some orderId => env.openBillForOrder ids P actor orderId
  | none => do
    let ctx ← env.decisionCtx actor
    let _ ← liftDomain (decideTable (P.tableState tableId) .requestBill ctx)
    .error .noOpenOrder

/-! ## Reductions -/

/-- What the class bases come to. -/
def reducibleBase (bases : List ClassBase) (currency : CurrencyCode) : Except DomainError Money :=
  bases.foldlM (fun sum base => addMoney sum base.amount) (zero currency)

/-- Who approves a discount: somebody only where it passes the ceiling and an approval is given. -/
def discountApprover (ctx : DecisionCtx) (amount : Money) (ceiling : Option Money)
    (approval : Option Approval) : Except AppError (Option EmployeeId × DecisionCtx) := do
  let passes ← liftDomain (overCeiling amount ceiling)
  if passes ∧ approval ≠ none then env.resolveStepUp ctx .overrideDiscountCeiling approval
  else pure (none, ctx)

/-- How far a discount went past its ceiling, where somebody approved that. -/
def exceededBy (amount : Money) (ceiling : Option Money) (approver : Option EmployeeId) :
    Except DomainError (Option Payload) :=
  match approver with
  | none => .ok none
  | some approver =>
    match ceiling with
    | none => .ok (some (overrideRecord .overrideDiscountCeiling approver (some amount)))
    | some ceiling => do
      let exceeded ← liftMoney (amount.checkedSub ceiling)
      pure (some (overrideRecord .overrideDiscountCeiling approver (some exceeded)))

/-- The totals a discount is answered with. -/
def discountedTotals (P : Projection) (billId : BillId) (bill : BillRecord)
    (order : OrderSnapshot) : Except AppError BillTotals := do
  let reduced ← okOr .unknownBill (P.bill billId)
  liftDomain (assemble (env.session.billInput order bill.feeRules bill.waivedFeeIds
    (reduced.reductions env.session.currency)))

/-- A discount is given on an open bill. -/
def discountBill (actor : Actor) (billId : BillId) (amount : Money) (reasonCodeId : ReasonCodeId)
    (approval : Option Approval) : Except AppError Plan := do
  let ctx ← env.decisionCtx actor
  let bill ← okOr .unknownBill (P.bill billId)
  refuseIf (env.session.reasonCodes.accepts reasonCodeId .discount = false) .voidReasonNotValid
  let order ← liftDomain (P.billSnapshot env.session bill)
  let reducible ← liftDomain (reducibleBase order.classBases env.session.currency)
  let (discount, comp) := bill.reductions env.session.currency
  let applied ← liftDomain (addMoney discount comp)
  let ceiling := env.session.staff.discountCeilingFor actor.employeeId
  let (approver, ctx) ← env.discountApprover ctx amount ceiling approval
  let _ ← liftDomain (decideBill bill.state
    (.reduce .discount amount applied reducible ceiling approver.isSome) ctx)
  let overridden ← liftDomain (exceededBy amount ceiling approver)
  let payloads :=
    .billingDiscountApplied billId (.fromKnown .discount) amount (some reasonCodeId) ::
      overridden.toList
  pure
    { events := prepareAll ctx ids P.currentShiftId payloads
      minted := payloads.length
      apply := fun P => P.addReduction billId .discount amount
      answer := fun P => (fun _ => ()) <$> env.discountedTotals P billId bill order }

/-- The totals of a bill; a bill whose every line was voided owes nothing. -/
def billTotals (P : Projection) (billId : BillId) : Except AppError Unit := do
  let bill ← okOr .unknownBill (P.bill billId)
  let order ← liftDomain (P.billSnapshot env.session bill)
  if order.classBases = [] then pure ()
  else (fun _ => ()) <$> liftDomain (assemble (env.session.billInput order bill.feeRules
    bill.waivedFeeIds (bill.reductions env.session.currency)))

/-- A fee is waived on an open bill. -/
def waiveFee (actor : Actor) (billId : BillId) (feeId : FeeId) (reasonCodeId : ReasonCodeId)
    (approval : Option Approval) : Except AppError Plan := do
  let ctx ← env.decisionCtx actor
  let bill ← okOr .unknownBill (P.bill billId)
  refuseIf (env.session.reasonCodes.accepts reasonCodeId .waiveFee = false) .reasonCodeNotValid
  let _ ← liftDomain (billMachine.step bill.state .reduce)
  let _ ← liftDomain (waivableFee bill.feeRules bill.waivedFeeIds feeId)
  let (approver, ctx) ← env.resolveStepUp ctx .waiveFee approval
  let _ ← liftDomain (decideBill bill.state (.waiveFee approver.isSome) ctx)
  let payloads :=
    .billingFeeWaived billId feeId reasonCodeId :: overridePayloads [(.waiveFee, approver)]
  pure
    { events := prepareAll ctx ids P.currentShiftId payloads
      minted := payloads.length
      apply := fun P => .ok (P.waiveFeeRecord billId feeId)
      answer := fun P => env.billTotals P billId }

/-! ## Splitting and merging -/

/-- The sold lines of each part, as the fees count them. -/
def partLines (orderId : OrderId) (parts : List (List OrderLineId)) : List (List BillLine) :=
  parts.map fun part =>
    billLines (((P.identifiedLinesForOrder orderId).filter fun entry =>
      decide (entry.1 ∈ part)).map (·.2))

/-- The openings of a split's parts, each with its own id, lines and rules. -/
def partOpenings (orderId : OrderId) (parts : List (List OrderLineId))
    (rules : List (List FrozenFee)) : List BillingBillOpened :=
  (parts.zip rules).mapIdx fun i part =>
    { billId := ⟨ids i⟩, orderId, orderLineIds := part.1, feeRules := part.2 }

/-- The change a split makes: its parts open on their source's table, take their share of what was
    taken off it, and it is split. -/
def applySplit (P : Projection) (source : BillId) (tableId : Option TableId)
    (openings : List BillingBillOpened) (nextState : BillState) :
    Except DomainError Projection := do
  let opened := openings.foldl
    (fun P opening => P.openBillRecord opening.billId (.opened opening tableId)) P
  let partIds := openings.map (·.billId)
  let reduced ← (opened.inheritFees source partIds).inheritReductions source partIds
  pure (reduced.setBillState source nextState)

/-- An open bill is split into parts, each with its share of the reductions. -/
def splitBill (actor : Actor) (billId : BillId) (parts : List (List OrderLineId)) :
    Except AppError Plan := do
  let ctx ← env.decisionCtx actor
  let bill ← okOr .unknownBill (P.bill billId)
  let decided ← liftDomain (decideBill bill.state (.split (P.coveredLines bill) parts) ctx)
  let rules ← liftDomain (splitFeeRules bill.feeRules (partLines P bill.orderId parts))
  let openings := partOpenings ids bill.orderId parts rules
  let payloads :=
    openings.map Payload.billingBillOpened ++
      [.billingBillSplit billId (openings.map (·.billId))]
  pure
    { events := prepareAll ctx (idsFrom ids parts.length) P.currentShiftId payloads
      minted := parts.length + payloads.length
      apply := fun P => applySplit P billId bill.tableId openings decided.nextState }

/-- One bill that is merged into another: another bill of the same table and order that is open. -/
def decideAbsorbed (ctx : DecisionCtx) (billId : BillId) (target : BillRecord)
    (absorbedId : BillId) : Except AppError (BillId × BillRecord × BillState) := do
  refuseIf (absorbedId = billId) .billsOnDifferentTables
  let record ← okOr .unknownBill (P.bill absorbedId)
  refuseIf (record.tableId ≠ target.tableId) .billsOnDifferentTables
  refuseIf (record.orderId ≠ target.orderId) .billsOnDifferentOrders
  let decided ← liftDomain (decideBill record.state .merge ctx)
  pure (absorbedId, record, decided.nextState)

/-- An absorbed bill's lines join the target's, and it moves to its next state. -/
def absorb (acc : Projection × List OrderLineId) (absorbed : BillId × BillRecord × BillState) :
    Projection × List OrderLineId :=
  (acc.1.setBillState absorbed.1 absorbed.2.2, acc.2 ++ acc.1.coveredLines absorbed.2.1)

/-- The change a merge makes. -/
def applyMerge (P : Projection) (billId : BillId) (target : BillRecord)
    (folded : List (BillId × BillRecord × BillState)) (fees : Option MergedFees)
    (absorbed : List BillId) : Except DomainError Projection :=
  let (regrouped, lines) := folded.foldl absorb (P, P.coveredLines target)
  ((regrouped.setBillLines billId (Projection.sortedLines lines)).setMergedFees billId
    fees).absorbReductions billId absorbed

/-- Open bills of one order are merged into another. -/
def mergeBills (actor : Actor) (billId : BillId) (absorbed : List BillId) :
    Except AppError Plan := do
  let ctx ← env.decisionCtx actor
  let target ← okOr .unknownBill (P.bill billId)
  let _ ← liftDomain (decideBill target.state .merge ctx)
  let folded ← absorbed.mapM (decideAbsorbed P ctx billId target)
  let fees ← liftDomain (P.mergedFees billId absorbed)
  pure
    { events := [P.prepare ctx (ids 0) (.billingBillMerged billId absorbed)]
      minted := 1
      apply := fun P => applyMerge P billId target folded fees absorbed }

/-! ## Payment -/

/-- What a settle proves before anything is written. -/
structure ProvedSettle where
  order : OrderSnapshot
  totals : BillTotals
  cashTaken : Money
  nextState : BillState

/-- The cash among the tenders. -/
def cashTendered (currency : CurrencyCode) (payments : List Payment) : Except DomainError Money :=
  (payments.filter fun payment => decide (payment.method = .cash)).foldlM
    (fun sum payment => addMoney sum payment.appliedToBill) (zero currency)

/-- A table's bill is paid where the table waits for it. -/
def proveTableSettles (ctx : DecisionCtx) (table : Option TableId) : Except AppError Unit :=
  match table with
  | some tableId => (fun _ => ()) <$> liftDomain (decideTable (P.tableState tableId) .settle ctx)
  | none => .ok ()

/-- A bill is assembled from its lines now, and its tenders are checked against it. -/
def proveSettle (ctx : DecisionCtx) (billId : BillId) (payments : List Payment) :
    Except AppError ProvedSettle := do
  let bill ← okOr .unknownBill (P.bill billId)
  let order ← liftDomain (P.billSnapshot env.session bill)
  let totals ← liftDomain (assemble (env.session.billInput order bill.feeRules bill.waivedFeeIds
    (bill.reductions env.session.currency)))
  proveTableSettles P ctx bill.tableId
  let cashTaken ← liftDomain (cashTendered env.session.currency payments)
  let decision ← liftDomain (decideBill bill.state (.settle totals.totalDue payments) ctx)
  pure { order, totals, cashTaken, nextState := decision.nextState }

/-- A tender's event; a tender that does not cover its own share and tip gives no change. -/
def capturePayment (currency : CurrencyCode) (billId : BillId) (paymentId : PaymentId)
    (payment : Payment) : Except DomainError BillingPaymentCaptured := do
  let change ← payment.change
  pure
    { billId
      paymentId
      method := .fromKnown payment.method
      outcome := .fromKnown .captured
      tendered := payment.tendered
      appliedToBill := payment.appliedToBill
      changeGiven := if change.isNegative then zero currency else change
      tipAmount := payment.tip }

/-- The tenders' events; an id is taken for each payment and for its event in turn. -/
def capturePayments (currency : CurrencyCode) (billId : BillId) (payments : List Payment) :
    Except DomainError (List BillingPaymentCaptured) :=
  payments.zipIdx.mapM fun entry =>
    capturePayment currency billId ⟨ids (2 * entry.2)⟩ entry.1

/-- What is recorded of a paid bill. -/
def settledEvent (billId : BillId) (receiptNumber : Nat) (totals : BillTotals)
    (reductionTotal : Money) (buyerSubjectId : Option SubjectId) : BillingBillSettled where
  billId := billId
  receiptNumber := receiptNumber
  subtotal := totals.subtotal
  reductionTotal := reductionTotal
  serviceCharge := totals.serviceCharge
  taxTotal := totals.taxTotal
  roundingAdjustment := totals.roundingAdjustment
  totalDue := totals.totalDue
  buyerSubjectId := buyerSubjectId
  feeLines := feeRecords totals
  taxLines := totals.taxLines

/-- One tender onto its bill and its shift. -/
def applyTender (billId : BillId) (shift : Option ShiftId) (P : Projection) (payment : Payment) :
    Except DomainError Projection := do
  let paid ← P.recordPayment billId payment.method payment.appliedToBill
  paid.collectTender shift payment.method payment.appliedToBill

/-- The change a settle makes. -/
def foldSettled (P : Projection) (settled : BillingBillSettled) (shift : Option ShiftId)
    (payments : List Payment) (ctx : DecisionCtx) (cashTaken : Money) :
    Except DomainError Projection := do
  let tendered ← payments.foldlM (applyTender settled.billId shift) P
  let folded ← tendered.foldSettle settled shift ctx.businessDate ctx.now
  folded.collectCash shift cashTaken

/-- A bill is paid: each tender is captured, and the receipt takes its number. -/
def settleBill (actor : Actor) (scope : TillScope) (billId : BillId) (payments : List Payment)
    (hasBuyer : Bool) (approval : Option Approval) : Except AppError Plan := do
  let ctx ← env.decisionCtx actor
  let (drawer, ctx) ← env.settleDrawer P ctx scope payments approval
  let proved ← env.proveSettle P ctx billId payments
  let receiptNumber ← okOr .port env.receiptNumber
  let reductionTotal ← liftDomain (addMoney proved.totals.discountTotal proved.totals.compTotal)
  let captured ← liftDomain (capturePayments ids env.session.currency billId payments)
  let taken := 2 * payments.length + (if hasBuyer then 1 else 0)
  let settled := settledEvent billId receiptNumber proved.totals reductionTotal
    (if hasBuyer then some ⟨ids (2 * payments.length)⟩ else none)
  let payloads :=
    .billingBillSettled settled :: overridePayloads [(.overrideDrawerAssignment, drawer.overrider)]
  pure
    { events :=
        (captured.mapIdx fun i payment =>
          prepareOn ctx (ids (2 * i + 1)) (.billingPaymentCaptured payment) drawer.shift) ++
          prepareAll ctx (idsFrom ids taken) drawer.shift payloads
      minted := taken + payloads.length
      apply := fun P => foldSettled P settled drawer.shift payments ctx proved.cashTaken }

/-! ## Voiding -/

/-- An open bill is voided. -/
def voidBill (actor : Actor) (billId : BillId) (reasonCodeId : ReasonCodeId)
    (approval : Option Approval) : Except AppError Plan := do
  let ctx ← env.decisionCtx actor
  let bill ← okOr .unknownBill (P.bill billId)
  refuseIf (env.session.reasonCodes.accepts reasonCodeId .voidBill = false) .voidReasonNotValid
  let (approver, ctx) ← env.resolveStepUp ctx .voidBill approval
  let _ ← liftDomain (ctx.require .voidBill)
  let _ ← liftDomain (billMachine.step bill.state .void)
  let payloads :=
    .billingBillVoided billId reasonCodeId :: overridePayloads [(.voidBill, approver)]
  pure
    { events := prepareAll ctx ids P.currentShiftId payloads
      minted := payloads.length
      apply := fun P => .ok (P.voidBillRecord billId) }

/-- Whether the shift that took a payment is still open. -/
def takingShiftOpen (paid : PaidBill) : Bool :=
  (paid.shiftId.bind P.shift).any fun shift => decide (shift.state = .open)

/-- The drawer a void gives its cash back from; none where the bill took no cash. -/
def voidDrawer (ctx : DecisionCtx) (scope : TillScope) (cash : Money)
    (approval : Option Approval) : Except AppError (SettleDrawer × DecisionCtx) :=
  if cash.isZero then
    .ok ({ drawer := none, shift := P.drawerShift env scope, overrider := none }, ctx)
  else env.cashDrawerFor P ctx scope approval

/-- A paid bill is voided whole, and its cash goes back from a drawer. -/
def voidSettledBill (actor : Actor) (scope : TillScope) (billId : BillId)
    (reasonCodeId : ReasonCodeId) (approval : Option Approval) : Except AppError Plan := do
  let ctx ← env.decisionCtx actor
  let bill ← okOr .unknownBill (P.bill billId)
  let paid := P.paid[billId]?.getD (.nothing ctx.currency)
  refuseIf (env.session.reasonCodes.accepts reasonCodeId .voidBill = false) .voidReasonNotValid
  let facts : SettledVoid :=
    { pinVerified := false
      window := env.session.settledVoidWindowInForce
      billBusinessDate := (P.settled[billId]?.map (·.businessDate)).getD ctx.businessDate
      takingShiftOpen := takingShiftOpen P paid
      eInvoiceIssued := false }
  -- the facts, decided as if the act were held, before anybody is asked to approve it
  let _ ← liftDomain (decideBill bill.state (.voidSettled facts)
    { ctx with
      granted := ctx.granted.insert .voidSettledBill
      grantedDirectly := ctx.grantedDirectly.insert .voidSettledBill })
  let (approver, ctx) ← env.resolveStepUp ctx .voidSettledBill approval
  let (drawer, ctx) ← env.voidDrawer P ctx scope paid.cash approval
  let _ ← liftDomain (decideBill bill.state
    (.voidSettled { facts with pinVerified := approver.isSome }) ctx)
  let payloads :=
    .billingBillVoided billId reasonCodeId ::
      overridePayloads
        [(.voidSettledBill, approver), (.overrideDrawerAssignment, drawer.overrider)]
  pure
    { events := prepareAll ctx ids drawer.shift payloads
      minted := payloads.length
      apply := fun P => P.voidSettledRecord billId drawer.shift }

/-! ## Receipts -/

/-- A copy of a receipt, on the day it was paid. -/
def reprintReceipt (actor : Actor) (billId : BillId) : Except AppError Plan := do
  let ctx ← env.decisionCtx actor
  let _ ← liftDomain (ctx.require .reprintReceipt)
  let bill ← okOr .unknownBill (P.bill billId)
  let receipt ← okOr .notSettled
    (P.settled[billId]?.filter fun _ => decide (bill.state = .settled ∨ bill.state = .voided))
  refuseIf (receipt.businessDate ≠ ctx.businessDate) .receiptFromAnotherDay
  let _ ← liftDomain (P.billSnapshot env.session bill)
  let copyNumber := u32SaturatingAdd receipt.copies 1
  pure
    { events := [P.prepare ctx (ids 0)
        (.billingReceiptReprinted billId receipt.receiptNumber copyNumber)]
      minted := 1
      apply := fun P => .ok (P.recordCopy billId copyNumber) }

end Env

end PosFramework
