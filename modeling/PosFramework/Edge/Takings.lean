import PosFramework.Edge.Hall.Frames
import PosFramework.Edge.Writes

set_option autoImplicit false

/-! # Takings

The part of the projection that money goes to: the shifts, the shift each drawer trades on and what
each bill took. Most commands leave all of it as it was. For the others, what an operation does is
said of any projection it is applied to, since a command may be applied to another one than it was
decided on. -/

namespace PosFramework

open Fallible Env

structure Takings where
  shifts : Std.ExtTreeMap ShiftId ShiftRecord
  openShifts : Std.ExtTreeMap (Option DeviceId) ShiftId
  lastClosed : Std.ExtTreeMap (Option DeviceId) ShiftId
  paid : Std.ExtTreeMap BillId PaidBill

namespace Projection

def takings (P : Projection) : Takings := ⟨P.shifts, P.openShifts, P.lastClosed, P.paid⟩

variable {P P' : Projection} {lineId : OrderLineId}

/-! ## Operations that move no money -/

theorem takings_addLine {record : LineRecord} : (P.addLine lineId record).takings = P.takings := by
  unfold addLine
  split
  · rfl
  · split <;> rfl

theorem takings_addLines {entries : List (OrderLineId × LineRecord)} :
    (entries.foldl (fun P entry => P.addLine entry.1 entry.2) P).takings = P.takings := by
  induction entries generalizing P with
  | nil => rfl
  | cons first rest ih => exact ih.trans takings_addLine

theorem takings_updateLine {change : LineRecord → LineRecord} :
    (P.updateLine lineId change).takings = P.takings := by
  unfold updateLine
  split <;> rfl

theorem takings_fired {now : Timestamp} {fired : List FiredLine} :
    (fired.foldl (applyFired now) P).takings = P.takings := by
  induction fired generalizing P with
  | nil => rfl
  | cons first rest ih => exact ih.trans (takings_updateLine.trans takings_updateLine)

variable {orderId : OrderId} {tableId : Option TableId} {billId : BillId}
  {folded : List (BillId × BillRecord × BillState)} {openings : List BillingBillOpened}

theorem takings_moveOrder {fromTableId toTableId : TableId} :
    (P.moveOrder orderId fromTableId toTableId).takings = P.takings := by
  unfold moveOrder
  split <;> rfl

theorem takings_closeOrder : (P.closeOrder orderId).takings = P.takings := by
  obtain ⟨tableOrders, heq⟩ :=
    clearTableOf_eq { P with closedOrders := P.closedOrders.insert orderId } orderId
  unfold closeOrder
  rw [heq]
  rfl

theorem takings_mergeOrder {target merged : OrderId} :
    (P.mergeOrder target merged).takings = P.takings := by
  obtain ⟨tableOrders, heq⟩ := repointTable_eq
    ((P.readdressLines (P.lineIdsForOrder merged) target).joinIndexes target merged) target merged
  unfold mergeOrder
  dsimp only
  rw [heq]
  split <;> rfl

theorem takings_giveTableBack {tableId : TableId} :
    (P.giveTableBack tableId).takings = P.takings := by
  unfold giveTableBack
  split
  · rfl
  · dsimp only
    split <;> rfl

theorem takings_recordStaffDecision {decision : StaffDecision} :
    (P.recordStaffDecision orderId decision).takings = P.takings := by
  unfold recordStaffDecision
  dsimp only
  split
  · split
    · exact takings_giveTableBack
    · rfl
  · rfl

theorem takings_foldInboundOrder {channel : Option SalesChannel}
    {lines : List (OrderLineId × LineRecord)} {joins : Option OrderId} :
    (P.foldInboundOrder orderId channel tableId lines joins).takings = P.takings := by
  -- whether or not it is seated, the order takes nothing
  have hfilled : ∀ Q : Projection, Q.takings = P.takings →
      (lines.foldl (fun P entry => P.addLine entry.1 entry.2)
        (Q.openOrderOrigin orderId channel tableId)).takings = P.takings := by
    intro Q hQ
    exact takings_addLines.trans hQ
  cases tableId <;> cases joins
  · exact hfilled _ rfl
  · exact takings_mergeOrder.trans (hfilled _ rfl)
  · exact hfilled _ rfl
  · exact takings_mergeOrder.trans (hfilled _ rfl)

theorem takings_setBillState {state : BillState} :
    (P.setBillState billId state).takings = P.takings := by
  unfold setBillState
  split <;> rfl

theorem takings_settleBillRecord : (P.settleBillRecord billId).takings = P.takings := by
  obtain ⟨tables, heq⟩ := settleBillRecord_eq P billId
  rw [heq]
  exact takings_setBillState

theorem takings_voidBillRecord : (P.voidBillRecord billId).takings = P.takings := by
  obtain ⟨tables, heq⟩ := voidBillRecord_eq P billId
  rw [heq]
  exact takings_setBillState

theorem SameFaces.takings_eq (h : P.SameFaces P') : P'.takings = P.takings := by
  obtain ⟨_, rfl, _⟩ := h
  rfl

theorem takings_recordOpenedBill {opened : BillingBillOpened} {table : Option TableId}
    {moved : Option (TableId × TableState)} :
    (recordOpenedBill P opened table moved).takings = P.takings := by
  unfold recordOpenedBill
  split <;> rfl

theorem takings_openBills :
    (openings.foldl
      (fun P opening => P.openBillRecord opening.billId (.opened opening tableId)) P).takings =
        P.takings := by
  induction openings generalizing P with
  | nil => rfl
  | cons first rest ih => exact ih

theorem takings_applySplit {source : BillId}
    {nextState : BillState} (h : applySplit P source tableId openings nextState = .ok P') :
    P'.takings = P.takings := by
  simp only [applySplit, bind_eq_ok, pure_eq_ok] at h
  obtain ⟨reduced, hreduced, rfl⟩ := h
  rw [takings_setBillState, (sameFaces_inheritReductions hreduced).takings_eq,
    (sameFaces_inheritFees ..).takings_eq, takings_openBills]

theorem takings_absorb
    {lines : List OrderLineId} :
    (folded.foldl absorb (P, lines)).1.takings = P.takings := by
  induction folded generalizing P lines with
  | nil => rfl
  | cons first rest ih => exact ih.trans takings_setBillState

theorem takings_applyMerge {target : BillRecord} {fees : Option MergedFees} {absorbed : List BillId}
    (h : applyMerge P billId target folded fees absorbed = .ok P') :
    P'.takings = P.takings := by
  rw [(sameFaces_absorbReductions h).takings_eq, (sameFaces_setMergedFees ..).takings_eq]
  exact takings_absorb

end Projection

/-- The commands that put money on a shift, take it off or change its state. -/
def Command.movesMoney : Command → Bool
  | .settleBill .. | .voidSettledBill .. | .openShift .. | .countShift .. | .closeShift ..
  | .closeShifts .. | .recordCashMovement .. | .recordSafeDrop .. => true
  | _ => false

open Projection in
/-- The others leave the takings alone, whatever projection they are applied to. -/
theorem Command.takings_eq {command : Command} {env : Env} {ids : Nat → Nat} {P Q Q' : Projection}
    {plan : Plan} (hmoves : command.movesMoney = false)
    (hplan : command.plan env ids P = .ok plan) (happly : plan.apply Q = .ok Q') :
    Q'.takings = Q.takings := by
  cases command with
  | seatTable =>
    obtain ⟨ctx, _, rfl⟩ := seatTable_ok hplan
    cases happly
    rfl
  | cleanTable =>
    obtain ⟨ctx, _, rfl⟩ := cleanTable_ok hplan
    cases happly
    rfl
  | releaseTable actor tableId =>
    obtain ⟨ctx, payloads, _, _, _, rfl⟩ := releaseTable_ok hplan
    cases happly
    unfold closeIfAny
    split
    · exact takings_closeOrder
    · rfl
  | transferTable =>
    obtain ⟨ctx, orderId, _, _, _, rfl⟩ := transferTable_ok hplan
    cases happly
    exact takings_moveOrder
  | addLine =>
    obtain ⟨ctx, orderId, names, _, _, rfl⟩ := addLine_ok hplan
    cases happly
    exact takings_addLine
  | addLineToOrder =>
    obtain ⟨ctx, origin, draft, names, _, _, _, rfl⟩ := addLineToOrder_ok hplan
    cases happly
    exact takings_addLine
  | voidLine =>
    obtain ⟨ctx, record, payloads, approver, _, _, rfl⟩ := voidLine_ok hplan
    cases happly
    exact takings_updateLine
  | setLineQuantity =>
    obtain ⟨ctx, record, lineTotal, _, _, rfl⟩ := setLineQuantity_ok hplan
    cases happly
    rfl
  | fireLine =>
    obtain ⟨ctx, record, fired, _, _, _, rfl⟩ := fireLine_ok hplan
    cases happly
    exact takings_updateLine.trans takings_updateLine
  | fireOrder =>
    obtain ⟨ctx, fired, _, _, rfl⟩ := fireUnsent_ok (fireOrder_ok hplan)
    cases happly
    exact takings_fired
  | fireCourse =>
    obtain ⟨ctx, fired, _, _, rfl⟩ := fireUnsent_ok (fireCourse_ok hplan)
    cases happly
    exact takings_fired
  | openInboundOrder =>
    obtain ⟨businessDate, joins, prepare, _, _, rfl⟩ := openInboundOrder_ok hplan
    cases happly
    exact takings_foldInboundOrder
  | openCounterOrder =>
    obtain ⟨ctx, rfl⟩ := openCounterOrder_ok hplan
    cases happly
    rfl
  | confirmInboundOrder actor orderId =>
    obtain ⟨ctx, joins, payloads, _, _, _, rfl⟩ := confirmInboundOrder_ok hplan
    cases happly
    unfold mergeIfAny
    split
    · exact takings_mergeOrder.trans takings_recordStaffDecision
    · exact takings_recordStaffDecision
  | rejectInboundOrder =>
    obtain ⟨ctx, _, rfl⟩ := rejectInboundOrder_ok hplan
    cases happly
    exact takings_closeOrder.trans takings_recordStaffDecision
  | setItemSoldOut =>
    obtain ⟨ctx, payloads, _, rfl⟩ := setItemSoldOut_ok hplan
    cases happly
    split <;> rfl
  | openBill =>
    obtain ⟨orderId, _, horder⟩ := openBill_ok hplan
    obtain ⟨ctx, _, _, _, rfl⟩ := openBillForOrder_ok horder
    cases happly
    exact takings_recordOpenedBill
  | openBillForOrder =>
    obtain ⟨ctx, _, _, _, rfl⟩ := openBillForOrder_ok hplan
    cases happly
    exact takings_recordOpenedBill
  | discountBill =>
    obtain ⟨ctx, _, _, _, _, overridden, _, _, _, _, _, _, _, _, _, rfl⟩ := discountBill_ok hplan
    exact (sameFaces_addReduction happly).takings_eq
  | waiveFee =>
    obtain ⟨ctx, _, _, _, rfl⟩ := waiveFee_ok hplan
    cases happly
    rfl
  | splitBill =>
    obtain ⟨ctx, bill, _, openings, _, _, _, _, _, _, _, rfl⟩ := splitBill_ok hplan
    exact takings_applySplit happly
  | mergeBills =>
    obtain ⟨ctx, _, _, _, _, _, _, _, rfl⟩ := mergeBills_ok hplan
    exact takings_applyMerge happly
  | voidBill =>
    obtain ⟨ctx, _, _, _, _, _, _, rfl⟩ := voidBill_ok hplan
    cases happly
    exact takings_voidBillRecord
  | reprintReceipt =>
    obtain ⟨ctx, _, _, rfl⟩ := reprintReceipt_ok hplan
    cases happly
    rfl
  | openDrawerNoSale =>
    obtain ⟨ctx, _, drawer, _, _, _, rfl⟩ := openDrawerNoSale_ok hplan
    cases happly
    rfl
  | settleBill | voidSettledBill | openShift | countShift | closeShift | closeShifts
  | recordCashMovement | recordSafeDrop => exact absurd hmoves Bool.noConfusion

end PosFramework
