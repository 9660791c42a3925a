import PosFramework.Edge.Projection

set_option autoImplicit false

/-! # The projection's bills and shifts

How a bill opens, is reduced, split, merged, paid and voided, and what each of these leaves on the
shift that took the money. -/

namespace PosFramework

open Fallible

/-! ## A bill's reductions -/

/-- What has been taken off, with one more amount. -/
def addToSlot (slot : Option Money) (amount : Money) : Except DomainError Money :=
  match slot with
  | some running => addMoney running amount
  | none => .ok amount

/-- Take an amount off a bill. Only a discount and a comp are kept on it. -/
def BillRecord.reduce (record : BillRecord) (kind : ReductionKind) (amount : Money) :
    Except DomainError BillRecord :=
  match kind with
  | .discount => do
    let total ← addToSlot record.discount amount
    pure { record with discount := some total }
  | .comp => do
    let total ← addToSlot record.comp amount
    pure { record with comp := some total }
  | .void | .unspecified => .ok record

namespace Projection

variable (P : Projection)

/-! ## Bills -/

/-- A bill is opened on its order. -/
def openBillRecord (billId : BillId) (record : BillRecord) : Projection :=
  let ids := P.billIdsForOrder record.orderId
  ({ P with
      orderBillIds := P.orderBillIds.insert record.orderId
        (if billId ∈ ids then ids else ids ++ [billId])
      bills := P.bills.insert billId record }).refreshLive record.orderId

/-- Change a bill's record, where there is one. -/
def updateBill (billId : BillId) (change : BillRecord → BillRecord) : Projection :=
  { P with bills := P.bills.modify billId change }

/-- A bill moves to a state. -/
def setBillState (billId : BillId) (state : BillState) : Projection :=
  match P.bill billId with
  | none => P
  | some record => (P.updateBill billId fun bill => { bill with state }).refreshLive record.orderId

/-- Line ids in order, each once. -/
def sortedLines (lines : List OrderLineId) : List OrderLineId :=
  (lines.insertionSort (· ≤ ·)).dedup

/-- A bill covers other lines. -/
def setBillLines (billId : BillId) (orderLineIds : List OrderLineId) : Projection :=
  P.updateBill billId fun bill => { bill with orderLineIds }

/-- A bill carries the fees of those merged into it. -/
def setBillFees (billId : BillId) (fees : MergedFees) : Projection :=
  P.updateBill billId fun bill =>
    { bill with
      feeRules := fees.feeRules
      feeWholes := fees.feeWholes
      waivedFeeIds := fees.waivedFeeIds }

/-- A fee of a bill is waived. -/
def waiveFeeRecord (billId : BillId) (feeId : FeeId) : Projection :=
  P.updateBill billId fun bill =>
    if feeId ∈ bill.waivedFeeIds then bill
    else { bill with waivedFeeIds := bill.waivedFeeIds ++ [feeId] }

/-- A discount or a comp is taken off a bill. -/
def addReduction (billId : BillId) (kind : ReductionKind) (amount : Money) :
    Except DomainError Projection :=
  match P.bill billId with
  | none => .ok P
  | some record => do
    let reduced ← record.reduce kind amount
    pure { P with bills := P.bills.insert billId reduced }

/-- Take off a bill what another held of one kind, where it held anything. -/
def addHeld (billId : BillId) (kind : ReductionKind) (held : Option Money) :
    Except DomainError Projection :=
  match held with
  | some amount => P.addReduction billId kind amount
  | none => .ok P

/-- The parts of a split take their source's wholes and waived fees. -/
def inheritFees (source : BillId) (parts : List BillId) : Projection :=
  match P.bill source with
  | none => P
  | some bill => parts.foldl
      (fun P part => P.updateBill part fun record =>
        { record with feeWholes := bill.feeWholes, waivedFeeIds := bill.waivedFeeIds }) P

/-- What a part's sold lines come to, none of them below zero. -/
def partWeight (lines : List (OrderLineId × LineRecord)) (part : BillId) : Except DomainError I64 :=
  let covered := ((P.bill part).map (·.orderLineIds)).getD []
  liftMoney <| sumWeights <|
    (lines.filter fun entry => decide (entry.1 ∈ covered) && entry.2.isSold).map
      (·.2.lineTotal.weight)

/-- One part takes its share, where there is one. -/
def takeShare (kind : ReductionKind) (P : Projection) (entry : BillId × Money) :
    Except DomainError Projection :=
  if entry.2.isZero then .ok P else P.addReduction entry.1 kind entry.2

/-- The parts share one reduction of their source. -/
def shareReduction (parts : List BillId) (weights : List I64) (kind : ReductionKind)
    (held : Option Money) : Except DomainError Projection :=
  match held with
  | none => .ok P
  | some amount => do
    let shares ← liftMoney (amount.allocate weights)
    (parts.zip shares).foldlM (takeShare kind) P

/-- The parts of a split share their source's discount and comp by what their lines come to; the
    parts after the last that owes anything take nothing. -/
def inheritReductions (source : BillId) (parts : List BillId) : Except DomainError Projection :=
  match P.bill source with
  | none => .ok P
  | some bill =>
    if bill.discount = none ∧ bill.comp = none then .ok P
    else do
      let weights ← parts.mapM (P.partWeight (P.identifiedLinesForOrder bill.orderId))
      if trimWeights weights = [] then pure P
      else do
        let discounted ← P.shareReduction parts (trimWeights weights) .discount bill.discount
        discounted.shareReduction parts (trimWeights weights) .comp bill.comp

/-- One absorbed bill's discount and comp go to the bill it was merged into. -/
def absorbReduction (target : BillId) (P : Projection) (absorbed : BillId) :
    Except DomainError Projection :=
  match P.bill absorbed with
  | none => .ok P
  | some bill => do
    let discounted ← P.addHeld target .discount bill.discount
    discounted.addHeld target .comp bill.comp

/-- What was taken off each absorbed bill is taken off the target. -/
def absorbReductions (target : BillId) (absorbed : List BillId) : Except DomainError Projection :=
  absorbed.foldlM (absorbReduction target) P

/-- What a bill holds once others are merged into it; nothing for a bill that is not there. -/
def mergedFees (target : BillId) (absorbed : List BillId) :
    Except DomainError (Option MergedFees) :=
  match P.bill target with
  | none => .ok none
  | some holder => some <$>
      mergeFeeRules holder.merging ((absorbed.filterMap P.bill).map (·.merging))

/-- The fees of a merged bill, where the bill is there. -/
def setMergedFees (billId : BillId) (fees : Option MergedFees) : Projection :=
  match fees with
  | some fees => P.setBillFees billId fees
  | none => P

/-- A bill is paid; the table of its order's last open bill waits to be cleaned. -/
def settleBillRecord (billId : BillId) : Projection :=
  let settled := P.setBillState billId .settled
  match settled.bill billId with
  | some { orderId, tableId := some tableId, .. } =>
    if (settled.latestBillIn orderId .open).isNone then settled.setTable tableId .needsCleaning
    else settled
  | _ => settled

/-- A bill is voided; its table, where it waited for the payment and no other bill of the order is
    open, is cleaned when one was paid and occupied again when none was. -/
def voidBillRecord (billId : BillId) : Projection :=
  let voided := P.setBillState billId .voided
  match voided.bill billId with
  | some { orderId, tableId := some tableId, .. } =>
    if voided.tableState tableId ≠ .awaitingPayment ∨ (voided.latestBillIn orderId .open).isSome
    then voided
    else voided.setTable tableId
      (if (voided.latestBillIn orderId .settled).isSome then .needsCleaning else .occupied)
  | _ => voided

/-! ## Payments -/

/-- One tender, as a bill's or a new paid record takes it. -/
def payWith (paid : PaidBill) (method : PaymentMethod) (applied : Money) :
    Except DomainError PaidBill :=
  if method = .cash then do
    let cash ← addMoney paid.cash applied
    pure { paid with cash }
  else do
    let other ← addMoney paid.other applied
    pure { paid with other }

/-- A tender is kept with its bill. -/
def recordPayment (billId : BillId) (method : PaymentMethod) (applied : Money) :
    Except DomainError Projection := do
  let paid ← payWith (P.paid[billId]?.getD (.nothing applied.currencyCode)) method applied
  pure { P with paid := P.paid.insert billId paid }

/-- Change a shift's record, where there is one. -/
def updateShift (shift : Option ShiftId) (change : ShiftRecord → Except DomainError ShiftRecord) :
    Except DomainError Projection :=
  match shift with
  | none => .ok P
  | some shiftId =>
    match P.shift shiftId with
    | none => .ok P
    | some record => do
      let changed ← change record
      pure { P with shifts := P.shifts.insert shiftId changed }

/-- Cash goes into a shift's drawer. -/
def collectCash (shift : Option ShiftId) (amount : Money) : Except DomainError Projection :=
  P.updateShift shift fun record => do
    let cashCollected ← addMoney record.cashCollected amount
    pure { record with cashCollected }

/-- Add a tender to what its method took so far. -/
def addTender (tenders : List (PaymentMethod × Money)) (method : PaymentMethod) (applied : Money) :
    Except DomainError (List (PaymentMethod × Money)) :=
  Tally.bump (fun tender => decide (tender.1 = method))
    (fun tender => do
      let total ← addMoney tender.2 applied
      pure (tender.1, total))
    (method, applied) tenders

/-- A tender counts to its shift. -/
def collectTender (shift : Option ShiftId) (method : PaymentMethod) (applied : Money) :
    Except DomainError Projection :=
  P.updateShift shift fun record => do
    let tenders ← addTender record.tenders method applied
    pure { record with tenders }

/-- The shift a bill was paid on, and one more bill on its report. -/
def recordSettleShift (billId : BillId) (shift : Option ShiftId) : Except DomainError Projection :=
  ({ P with paid := P.paid.modify billId fun paid => { paid with shiftId := shift } }).updateShift
    shift fun record => .ok { record with bills := u32SaturatingAdd record.bills 1 }

/-- A paid bill counts to its shift. -/
def recordShiftSale (shift : Option ShiftId) (settled : BillingBillSettled) :
    Except DomainError Projection :=
  P.updateShift shift fun record => do
    let sales ← addMoney record.sales settled.totalDue
    let discounts ← addMoney record.discounts settled.reductionTotal
    pure { record with sales, discounts }

/-- The receipt of a bill is kept. -/
def recordSettled (billId : BillId) (receipt : SettledReceipt) : Projection :=
  { P with settled := P.settled.insert billId receipt }

/-- The tax of a paid bill counts to its shift. -/
def collectTaxComponents (shift : Option ShiftId) (settled : BillingBillSettled) :
    Except DomainError Projection :=
  P.updateShift shift fun record => do
    let taxComponents ←
      (settled.taxLines.flatMap (·.components)).foldlM addComponent record.taxComponents
    pure { record with taxComponents }

/-- A bill is paid: its state and table, the shift's figures and its receipt. -/
def foldSettle (settled : BillingBillSettled) (shift : Option ShiftId)
    (businessDate : BusinessDate) (settleTime : Timestamp) : Except DomainError Projection := do
  let counted ← (P.settleBillRecord settled.billId).recordSettleShift settled.billId shift
  let sold ← counted.recordShiftSale shift settled
  (sold.recordSettled settled.billId (.of settled businessDate settleTime)).collectTaxComponents
    shift settled

/-- A copy of a receipt was printed. -/
def recordCopy (billId : BillId) (copyNumber : Nat) : Projection :=
  { P with
    settled := P.settled.modify billId fun receipt =>
      { receipt with copies := max receipt.copies copyNumber } }

/-- A paid bill is voided: the cash it took leaves the drawer the void is stamped with. -/
def voidSettledRecord (billId : BillId) (shift : Option ShiftId) :
    Except DomainError Projection := do
  let paidBack ← P.updateShift shift fun record => do
    let voidedCash ← addToVoided record P.paid[billId]?
    pure { record with voidedCash, voidedBills := u32SaturatingAdd record.voidedBills 1 }
  pure (paidBack.voidBillRecord billId)
where
  /-- What a shift has given back, with the cash of one more bill. -/
  addToVoided (record : ShiftRecord) (paid : Option PaidBill) : Except DomainError Money :=
    match paid with
    | some paid => addMoney record.voidedCash paid.cash
    | none => .ok record.voidedCash

/-! ## Shifts -/

/-- A shift opens on its drawer. -/
def openShiftRecord (shiftId : ShiftId) (record : ShiftRecord) : Projection :=
  { P with
    openShifts := P.openShifts.insert record.till shiftId
    shifts := P.shifts.insert shiftId record }

/-- A shift was counted. -/
def recordShiftCount (shiftId : ShiftId) (counted : Money) (breakdown : CountBreakdown)
    (state : ShiftState) : Projection :=
  { P with
    shifts := P.shifts.modify shiftId fun record =>
      { record with counted := some counted, countBreakdown := breakdown, state } }

/-- A shift closes, and was its drawer's last. -/
def closeShiftRecord (shiftId : ShiftId) : Projection :=
  match P.shift shiftId with
  | none => P
  | some record =>
    { P with
      shifts := P.shifts.insert shiftId { record with state := .closed }
      openShifts :=
        if P.openShiftOf record.till = some shiftId then P.openShifts.erase record.till
        else P.openShifts
      lastClosed := P.lastClosed.insert record.till shiftId }

/-- A shift's figures with one more movement of cash. -/
def moveCash (movement : CashMovement) (amount : Money) (record : ShiftRecord) :
    Except DomainError ShiftRecord :=
  match movement with
  | .paidIn => do
    let paidIn ← addMoney record.paidIn amount
    pure { record with paidIn }
  | .paidOut => do
    let paidOut ← addMoney record.paidOut amount
    pure { record with paidOut }
  | .dropped => do
    let dropped ← addMoney record.dropped amount
    pure { record with dropped }

/-- Cash moves in a shift's drawer. -/
def recordMovement (shiftId : ShiftId) (movement : CashMovement) (amount : Money) :
    Except DomainError Projection :=
  P.updateShift (some shiftId) (moveCash movement amount)

end Projection

end PosFramework
