import PosFramework.Edge.Books
import PosFramework.Edge.Commands.Bills
import PosFramework.Edge.Commands.Orders

set_option autoImplicit false

/-! # What the projection's operations change

For each operation, what it does to the books and to the floor. Most of them leave the books as they
are, so that a command's effect on the ledger is read off its one or two operations that do not. -/

namespace PosFramework

open Fallible Keyed Option BillRecord Env

/-- A reduction changes a bill's discount or its comp, and nothing else of it. -/
theorem BillRecord.reduce_ok {record reduced : BillRecord} {kind : ReductionKind} {amount : Money}
    (h : record.reduce kind amount = .ok reduced) :
    ∃ discount comp, reduced = { record with discount := discount, comp := comp } := by
  cases kind <;> simp only [reduce, bind_eq_ok, pure_eq_ok, Except.ok.injEq] at h
  · exact ⟨_, _, h.symm⟩
  · obtain ⟨total, _, rfl⟩ := h
    exact ⟨some total, record.comp, rfl⟩
  · obtain ⟨total, _, rfl⟩ := h
    exact ⟨record.discount, some total, rfl⟩
  · exact ⟨_, _, h.symm⟩

namespace Projection

def floor (P : Projection) : Floor := ⟨P.orders, P.tableOrders⟩

/-- The books of a projection. -/
def books (P : Projection) : Books :=
  ⟨P.lines, P.orderLines, P.orderBillIds, fun billId => (P.bill billId).map charge⟩

/-- The ledger of a projection. -/
def ledger (P : Projection) : Ledger := P.books.ledger

variable {P : Projection} {bound : Nat}

/-! ## The tables of the orders -/

theorem repointTable_eq (P : Projection) (target merged : OrderId) :
    ∃ tableOrders, P.repointTable target merged = { P with tableOrders := tableOrders } := by
  unfold repointTable
  split <;> exact ⟨_, rfl⟩

theorem clearTableOf_eq (P : Projection) (orderId : OrderId) :
    ∃ tableOrders, P.clearTableOf orderId = { P with tableOrders := tableOrders } := by
  unfold clearTableOf
  split <;> exact ⟨_, rfl⟩

theorem giveTableBack_eq (P : Projection) (tableId : TableId) :
    ∃ tables tableOrders, P.giveTableBack tableId =
      { P with tables := tables, tableOrders := tableOrders } := by
  unfold giveTableBack
  split
  · exact ⟨_, _, rfl⟩
  · dsimp only
    split <;> exact ⟨_, _, rfl⟩

/-! ## The floor -/

variable {orderId target merged : OrderId} {tableId fromTableId toTableId : TableId}
  {lineId : OrderLineId} {record : BillRecord} {billId source : BillId} {P' : Projection}
  {kind : ReductionKind} {parts : List BillId} {shift : Option ShiftId}
  {settled : BillingBillSettled} {decision : StaffDecision} {payments : List Payment}
  {held : Option Money} {state : BillState}

theorem floor_below_openOrder (tableId : TableId) (hP : P.floor.Below bound)
    (horder : orderId.ulid < bound) : (P.openOrder tableId orderId).floor.Below bound where
  orders := hP.orders
  tables := by
    intro other orderId' hother
    simp only [floor, openOrder, get_insert] at hother
    split at hother
    · obtain rfl := some.inj hother
      exact horder
    · exact hP.tables other orderId' hother

theorem floor_below_clearTable (tableId : TableId) (hP : P.floor.Below bound) :
    (P.clearTable tableId).floor.Below bound where
  orders := hP.orders
  tables := by
    intro other orderId hother
    simp only [floor, clearTable, get_erase] at hother
    split at hother
    · contradiction
    · exact hP.tables other orderId hother

theorem floor_below_openOrderOrigin {channel : Option SalesChannel} {tableId : Option TableId}
    (hP : P.floor.Below bound) (horder : orderId.ulid < bound) :
    (P.openOrderOrigin orderId channel tableId).floor.Below bound where
  orders := by
    intro other origin hother
    simp only [floor, openOrderOrigin, get_insert] at hother
    by_cases heq : orderId = other
    · exact heq ▸ horder
    · rw [if_neg heq] at hother
      exact hP.orders other origin hother
  tables := hP.tables

theorem floor_below_moveOrder (hP : P.floor.Below bound) (horder : orderId.ulid < bound) :
    (P.moveOrder orderId fromTableId toTableId).floor.Below bound := by
  have hleft : (if P.orderForTable fromTableId = some orderId then P.clearTable fromTableId
      else P).floor.Below bound := by
    by_cases hfrom : P.orderForTable fromTableId = some orderId
    · rw [if_pos hfrom]
      exact floor_below_clearTable fromTableId hP
    · rwa [if_neg hfrom]
  have hseated := floor_below_openOrder toTableId hleft horder
  refine ⟨fun other origin hother => ?_, hseated.tables⟩
  simp only [floor, moveOrder, get_modify] at hother
  by_cases heq : orderId = other
  · exact heq ▸ horder
  · rw [if_neg heq] at hother
    exact hseated.orders other origin hother

theorem floor_below_isAtTable (hP : P.floor.Below bound)
    (hat : P.isAtTable tableId orderId = true) : orderId.ulid < bound := by
  obtain ⟨origin, horigin, _⟩ := (any_eq_true _ _).1 hat
  exact hP.orders orderId origin horigin

theorem floor_below_giveTableBack (hP : P.floor.Below bound) :
    (P.giveTableBack tableId).floor.Below bound := by
  unfold giveTableBack
  cases hother : P.displacedAt tableId with
  | some other =>
    have hat : P.isAtTable tableId other = true := List.find?_some hother
    exact floor_below_openOrder tableId hP (floor_below_isAtTable hP hat)
  | none =>
    have hcleared := floor_below_clearTable tableId hP
    by_cases hstate : (P.clearTable tableId).tableState tableId = .occupied
    · simp only [if_pos hstate]
      exact hcleared
    · simp only [if_neg hstate]
      exact hcleared

theorem floor_below_recordStaffDecision (hP : P.floor.Below bound) :
    (P.recordStaffDecision orderId decision).floor.Below bound := by
  unfold recordStaffDecision
  by_cases hrejected : decision = .rejected
  · simp only [if_pos hrejected]
    split
    · exact floor_below_giveTableBack hP
    · exact hP
  · simp only [if_neg hrejected]
    exact hP

theorem floor_below_closeOrder (hP : P.floor.Below bound) :
    (P.closeOrder orderId).floor.Below bound := by
  show (clearTableOf _ orderId).floor.Below bound
  unfold clearTableOf
  split
  · exact floor_below_clearTable (P := { P with closedOrders := _ }) _ hP
  · exact hP

theorem floor_below_repointTable (hP : P.floor.Below bound) (htarget : target.ulid < bound) :
    (P.repointTable target merged).floor.Below bound := by
  unfold repointTable
  split
  · exact floor_below_openOrder _ hP htarget
  · exact hP

theorem floor_below_mergeOrder (hP : P.floor.Below bound) (htarget : target.ulid < bound) :
    (P.mergeOrder target merged).floor.Below bound := by
  unfold mergeOrder
  by_cases heq : target = merged
  · rwa [if_pos heq]
  · rw [if_neg heq]
    exact floor_below_repointTable
      (P := (P.readdressLines (P.lineIdsForOrder merged) target).joinIndexes target merged) hP
        htarget

/-! ## Operations outside the books -/

theorem books_moveOrder : (P.moveOrder orderId fromTableId toTableId).books = P.books := by
  unfold moveOrder
  split <;> rfl

theorem books_giveTableBack : (P.giveTableBack tableId).books = P.books := by
  unfold giveTableBack
  cases P.displacedAt tableId with
  | some => rfl
  | none =>
    by_cases hstate : (P.clearTable tableId).tableState tableId = .occupied
    · simp only [if_pos hstate]
      rfl
    · simp only [if_neg hstate]
      rfl

theorem books_recordStaffDecision : (P.recordStaffDecision orderId decision).books = P.books := by
  unfold recordStaffDecision
  by_cases hrejected : decision = .rejected
  · simp only [if_pos hrejected]
    split
    · exact books_giveTableBack
    · rfl
  · simp only [if_neg hrejected]
    rfl

theorem books_closeOrder : (P.closeOrder orderId).books = P.books := by
  show (clearTableOf _ orderId).books = P.books
  unfold clearTableOf
  split <;> rfl

/-! ## Lines -/

theorem books_addLine {record : LineRecord} (hnew : P.line lineId = none) :
    (P.addLine lineId record).books = P.books.addLine lineId record := by
  simp only [addLine, hnew, map_none]
  rfl

theorem books_updateLine {record : LineRecord} (hline : P.line lineId = some record)
    (change : LineRecord → LineRecord) :
    (P.updateLine lineId change).books = P.books.setLine lineId (change record) := by
  simp only [updateLine, hline]
  rfl

theorem books_setLineQuantity {record : LineRecord} {quantity : Quantity} {lineTotal : Money}
    (hline : P.line lineId = some record) :
    (P.setLineQuantity lineId quantity lineTotal).books =
      P.books.setLine lineId { record with quantity, lineTotal } := by
  simp only [setLineQuantity, modify_eq_insert hline]
  rfl

theorem books_mergeOrder (hne : target ≠ merged) :
    (P.mergeOrder target merged).books = P.books.mergeOrder target merged := by
  rw [mergeOrder, if_neg hne]
  show (repointTable _ target merged).books = _
  unfold repointTable
  split <;> rfl

/-! ## Bills -/

theorem books_openBillRecord :
    (P.openBillRecord billId record).books = P.books.openBill billId record.charge := by
  simp only [openBillRecord, books, Books.openBill, refreshLive, bill, Books.mk.injEq, true_and]
  exact ⟨rfl, read_eq_update P.bills (Option.map charge)
    (get_insert _ billId · record)⟩

theorem books_insert_bill :
    ({ P with bills := P.bills.insert billId record } : Projection).books =
      P.books.setCharge billId record.charge := by
  simp only [books, Books.setCharge, bill, Books.mk.injEq, true_and]
  exact read_eq_update P.bills (Option.map charge) (get_insert _ billId · record)

theorem books_updateBill (hbill : P.bill billId = some record) (change : BillRecord → BillRecord) :
    (P.updateBill billId change).books = P.books.setCharge billId (change record).charge := by
  rw [updateBill, modify_eq_insert hbill]
  exact books_insert_bill

theorem books_setBillState (hbill : P.bill billId = some record) :
    (P.setBillState billId state).books =
      P.books.setCharge billId { record.charge with state } := by
  simp only [setBillState, hbill]
  exact books_updateBill hbill _

/-! ## What a bill owes -/

/-- Projections whose bills differ in reductions and fees only. -/
def SameFaces (P P' : Projection) : Prop :=
  ∃ bills, P' = { P with bills := bills } ∧
    ∀ billId : BillId, bills[billId]?.map face = (P.bill billId).map face

theorem SameFaces.refl (P : Projection) : P.SameFaces P := ⟨P.bills, rfl, fun _ => rfl⟩

theorem SameFaces.trans {P P'' : Projection} (h : P.SameFaces P') (h' : P'.SameFaces P'') :
    P.SameFaces P'' := by
  obtain ⟨_, rfl, hface⟩ := h
  obtain ⟨bills, rfl, hface'⟩ := h'
  exact ⟨bills, rfl, fun billId => (hface' billId).trans (hface billId)⟩

/-- What is read of a bill's face is the same. -/
theorem SameFaces.read_eq {P : Projection} {α : Type} (h : P.SameFaces P') (read : BillRecord → α)
    (hread : ∀ bill, read bill = read bill.face) (billId : BillId) :
    (P'.bill billId).map read = (P.bill billId).map read := by
  obtain ⟨bills, rfl, hface⟩ := h
  have hmap : ∀ bill : Option BillRecord, bill.map read = (bill.map face).map read := by
    intro bill
    rw [map_map]
    exact congrArg (Option.map · bill) (funext hread)
  rw [hmap, hmap (P.bill billId)]
  exact congrArg (Option.map read) (hface billId)

theorem SameFaces.books_eq {P : Projection} (h : P.SameFaces P') : P'.books = P.books := by
  have hcharge := funext (h.read_eq charge fun _ => rfl)
  obtain ⟨bills, rfl, _⟩ := h
  simp only [books, Books.mk.injEq, true_and]
  exact hcharge

theorem SameFaces.floor_eq {P : Projection} (h : P.SameFaces P') : P'.floor = P.floor := by
  obtain ⟨_, rfl, _⟩ := h
  rfl

theorem sameFaces_updateBill {change : BillRecord → BillRecord}
    (hkeep : ∀ record, (change record).face = record.face) :
    P.SameFaces (P.updateBill billId change) := by
  refine ⟨_, rfl, fun other => ?_⟩
  rw [get_modify]
  by_cases heq : billId = other
  · subst heq
    rw [if_pos rfl, map_map]
    exact congrArg (Option.map · _) (funext hkeep)
  · rw [if_neg heq]
    rfl

theorem sameFaces_addReduction {amount : Money} (h : P.addReduction billId kind amount = .ok P') :
    P.SameFaces P' := by
  unfold addReduction at h
  split at h
  · cases h
    exact .refl P
  next record hbill =>
    simp only [bind_eq_ok, pure_eq_ok] at h
    obtain ⟨reduced, hreduced, rfl⟩ := h
    obtain ⟨discount, comp, rfl⟩ := reduce_ok hreduced
    refine ⟨_, rfl, fun other => ?_⟩
    rw [get_insert]
    by_cases heq : billId = other
    · subst heq
      rw [if_pos rfl, hbill]
      rfl
    · rw [if_neg heq]
      rfl

theorem sameFaces_addHeld (h : P.addHeld billId kind held = .ok P') : P.SameFaces P' := by
  cases held with
  | none =>
    cases h
    exact .refl P
  | some => exact sameFaces_addReduction h

theorem sameFaces_absorbReductions {target : BillId} {absorbed : List BillId}
    (h : P.absorbReductions target absorbed = .ok P') : P.SameFaces P' := by
  refine foldlM_invariant (P.SameFaces ·) (fun Q a Q' _ hQ hstep => hQ.trans ?_) h (.refl P)
  unfold absorbReduction at hstep
  split at hstep
  · cases hstep
    exact .refl Q
  · simp only [bind_eq_ok] at hstep
    obtain ⟨discounted, hdiscounted, hcomped⟩ := hstep
    exact (sameFaces_addHeld hdiscounted).trans (sameFaces_addHeld hcomped)

theorem sameFaces_shareReduction {weights : List I64}
    (h : P.shareReduction parts weights kind held = .ok P') :
    P.SameFaces P' := by
  cases held with
  | none =>
    cases h
    exact .refl P
  | some =>
    simp only [shareReduction, bind_eq_ok] at h
    obtain ⟨shares, _, hshared⟩ := h
    refine foldlM_invariant (P.SameFaces ·) (fun Q entry Q' _ hQ hstep => hQ.trans ?_) hshared
      (.refl P)
    unfold takeShare at hstep
    split at hstep
    · cases hstep
      exact .refl Q
    · exact sameFaces_addReduction hstep

theorem sameFaces_inheritReductions
    (h : P.inheritReductions source parts = .ok P') : P.SameFaces P' := by
  unfold inheritReductions at h
  split at h
  · cases h
    exact .refl P
  · split at h
    · cases h
      exact .refl P
    · simp only [bind_eq_ok] at h
      obtain ⟨weights, _, h⟩ := h
      split at h
      · cases h
        exact .refl P
      · simp only [bind_eq_ok] at h
        obtain ⟨discounted, hdiscounted, hcomped⟩ := h
        exact (sameFaces_shareReduction hdiscounted).trans (sameFaces_shareReduction hcomped)

theorem sameFaces_inheritFees : P.SameFaces (P.inheritFees source parts) := by
  unfold inheritFees
  split
  · exact .refl P
  next bill hbill =>
    clear hbill
    induction parts generalizing P with
    | nil => exact .refl P
    | cons part rest ih =>
      refine SameFaces.trans ?_ ih
      exact sameFaces_updateBill fun _ => rfl

theorem sameFaces_setMergedFees {fees : Option MergedFees} :
    P.SameFaces (P.setMergedFees billId fees) := by
  cases fees with
  | none => exact .refl P
  | some fees => exact sameFaces_updateBill fun _ => rfl

theorem sameFaces_waiveFeeRecord {feeId : FeeId} : P.SameFaces (P.waiveFeeRecord billId feeId) := by
  refine sameFaces_updateBill fun record => ?_
  split <;> rfl

/-! ## Takings -/

/-- Projections that differ in payments, receipts and shifts only. -/
def TakingsOnly (P P' : Projection) : Prop :=
  ∃ paid settled shifts, P' = { P with paid := paid, settled := settled, shifts := shifts }

theorem TakingsOnly.refl (P : Projection) : P.TakingsOnly P := ⟨P.paid, P.settled, P.shifts, rfl⟩

theorem TakingsOnly.trans {P P'' : Projection} (h : P.TakingsOnly P') (h' : P'.TakingsOnly P'') :
    P.TakingsOnly P'' := by
  obtain ⟨_, _, _, rfl⟩ := h
  obtain ⟨paid, settled, shifts, rfl⟩ := h'
  exact ⟨paid, settled, shifts, rfl⟩

theorem TakingsOnly.books_eq {P : Projection} (h : P.TakingsOnly P') : P'.books = P.books := by
  obtain ⟨_, _, _, rfl⟩ := h
  rfl

theorem TakingsOnly.floor_eq {P : Projection} (h : P.TakingsOnly P') : P'.floor = P.floor := by
  obtain ⟨_, _, _, rfl⟩ := h
  rfl

theorem TakingsOnly.bill_eq {P : Projection} (h : P.TakingsOnly P') (billId : BillId) :
    P'.bill billId = P.bill billId := by
  obtain ⟨_, _, _, rfl⟩ := h
  rfl

theorem takingsOnly_updateShift {change : ShiftRecord → Except DomainError ShiftRecord}
    (h : P.updateShift shift change = .ok P') : P.TakingsOnly P' := by
  unfold updateShift at h
  split at h
  · cases h
    exact .refl P
  · split at h
    · cases h
      exact .refl P
    · simp only [bind_eq_ok, pure_eq_ok] at h
      obtain ⟨_, _, rfl⟩ := h
      exact ⟨_, _, _, rfl⟩

theorem takingsOnly_recordPayment {method : PaymentMethod} {applied : Money}
    (h : P.recordPayment billId method applied = .ok P') : P.TakingsOnly P' := by
  simp only [recordPayment, bind_eq_ok, pure_eq_ok] at h
  obtain ⟨_, _, rfl⟩ := h
  exact ⟨_, _, _, rfl⟩

theorem takingsOnly_applyTender {payment : Payment}
    (h : applyTender billId shift P payment = .ok P') : P.TakingsOnly P' := by
  simp only [applyTender, bind_eq_ok] at h
  obtain ⟨paid, hpaid, htender⟩ := h
  exact (takingsOnly_recordPayment hpaid).trans (takingsOnly_updateShift htender)

/-! ## Paying and voiding a bill -/

theorem floor_setBillState : (P.setBillState billId state).floor = P.floor := by
  unfold setBillState
  split <;> rfl

theorem settleBillRecord_eq (P : Projection) (billId : BillId) :
    ∃ tables, P.settleBillRecord billId =
      { P.setBillState billId .settled with tables := tables } := by
  unfold settleBillRecord
  dsimp only
  split
  · split <;> exact ⟨_, rfl⟩
  · exact ⟨_, rfl⟩

theorem voidBillRecord_eq (P : Projection) (billId : BillId) :
    ∃ tables, P.voidBillRecord billId =
      { P.setBillState billId .voided with tables := tables } := by
  unfold voidBillRecord
  dsimp only
  split
  · split <;> exact ⟨_, rfl⟩
  · exact ⟨_, rfl⟩

theorem foldSettle_takings {businessDate : BusinessDate}
    {settleTime : Timestamp} (h : P.foldSettle settled shift businessDate settleTime = .ok P') :
    (P.settleBillRecord settled.billId).TakingsOnly P' := by
  simp only [foldSettle, recordSettleShift, recordShiftSale, collectTaxComponents, bind_eq_ok] at h
  obtain ⟨counted, hcounted, sold, hsold, htaxed⟩ := h
  have hreceipt : sold.TakingsOnly
      (sold.recordSettled settled.billId (.of settled businessDate settleTime)) := ⟨_, _, _, rfl⟩
  have hpaid : (P.settleBillRecord settled.billId).TakingsOnly
      { P.settleBillRecord settled.billId with
        paid := (P.settleBillRecord settled.billId).paid.modify settled.billId fun paid =>
          { paid with shiftId := shift } } := ⟨_, _, _, rfl⟩
  exact hpaid.trans ((takingsOnly_updateShift hcounted).trans ((takingsOnly_updateShift hsold).trans
    (hreceipt.trans (takingsOnly_updateShift htaxed))))

theorem takingsOnly_tenders
    (h : payments.foldlM (applyTender billId shift) P = .ok P') :
    P.TakingsOnly P' :=
  foldlM_invariant (P.TakingsOnly ·)
    (fun _ _ _ _ hQ hstep => hQ.trans (takingsOnly_applyTender hstep))
    h (.refl P)

theorem foldSettled_frame
    {ctx : DecisionCtx} {cashTaken : Money} (hbill : P.bill settled.billId = some record)
    (h : foldSettled P settled shift payments ctx cashTaken = .ok P') :
    P'.books = P.books.setCharge settled.billId { record.charge with state := .settled } ∧
      P'.floor = P.floor := by
  simp only [foldSettled, bind_eq_ok] at h
  obtain ⟨tendered, htendered, folded, hfolded, hcash⟩ := h
  have hbefore := takingsOnly_tenders htendered
  have hafter := (foldSettle_takings hfolded).trans (takingsOnly_updateShift hcash)
  obtain ⟨tables, heq⟩ := settleBillRecord_eq tendered settled.billId
  rw [heq] at hafter
  constructor
  · rw [hafter.books_eq]
    show (tendered.setBillState settled.billId .settled).books = _
    rw [books_setBillState ((hbefore.bill_eq _).trans hbill), hbefore.books_eq]
  · rw [hafter.floor_eq]
    show (tendered.setBillState settled.billId .settled).floor = _
    rw [floor_setBillState, hbefore.floor_eq]

theorem voidSettledRecord_frame (hbill : P.bill billId = some record)
    (h : P.voidSettledRecord billId shift = .ok P') :
    P'.books = P.books.setCharge billId { record.charge with state := .voided } ∧
      P'.floor = P.floor := by
  simp only [voidSettledRecord, bind_eq_ok, pure_eq_ok] at h
  obtain ⟨paidBack, hpaid, rfl⟩ := h
  have hbefore := takingsOnly_updateShift hpaid
  obtain ⟨tables, heq⟩ := voidBillRecord_eq paidBack billId
  rw [heq]
  constructor
  · show (paidBack.setBillState billId .voided).books = _
    rw [books_setBillState ((hbefore.bill_eq _).trans hbill), hbefore.books_eq]
  · show (paidBack.setBillState billId .voided).floor = _
    rw [floor_setBillState, hbefore.floor_eq]

theorem voidBillRecord_frame (hbill : P.bill billId = some record) :
    (P.voidBillRecord billId).books =
        P.books.setCharge billId { record.charge with state := .voided } ∧
      (P.voidBillRecord billId).floor = P.floor := by
  obtain ⟨tables, heq⟩ := voidBillRecord_eq P billId
  rw [heq]
  exact ⟨books_setBillState hbill, floor_setBillState⟩

end Projection

end PosFramework
