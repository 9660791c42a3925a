import PosFramework.Edge.Outcomes.Bills
import PosFramework.Edge.Outcomes.Orders
import PosFramework.Edge.Outcomes.Shifts
import PosFramework.Edge.Run

set_option autoImplicit false

/-! # Who writes what

Each event of the log is written by one kind of command, which names what the event is about. A
claim about the log is read off this table first, and off the command's own outcome after that. -/

namespace PosFramework

open Fallible Env List Option

/-- The commands that write a payload. -/
def Command.Writes (command : Command) : Payload → Prop
  | .salesTableOpened tableId _ => ∃ actor, command = .seatTable actor tableId
  | .salesTableClosed tableId =>
    ∃ actor, command = .cleanTable actor tableId ∨ command = .releaseTable actor tableId
  | .salesTableMerged _ merged =>
    (∃ actor, command = .confirmInboundOrder actor merged) ∨
      ∃ deviceId channel tableId lines,
        command = .openInboundOrder deviceId channel tableId lines
  | .salesTableTransferred _ fromTableId toTableId =>
    ∃ actor, command = .transferTable actor fromTableId toTableId
  | .salesOrderOpened _ _ tableId =>
    (∃ actor seated, command = .seatTable actor seated ∧ tableId = some seated) ∨
      (∃ deviceId channel lines, command = .openInboundOrder deviceId channel tableId lines) ∨
      ∃ actor channel, command = .openCounterOrder actor channel ∧ tableId = none
  | .salesOrderConfirmedByStaff orderId => ∃ actor, command = .confirmInboundOrder actor orderId
  | .salesOrderRejectedByStaff orderId reasonCodeId =>
    ∃ actor, command = .rejectInboundOrder actor orderId reasonCodeId
  | .salesOrderClosed orderId =>
    (∃ actor tableId, command = .releaseTable actor tableId) ∨
      ∃ actor reasonCodeId, command = .rejectInboundOrder actor orderId reasonCodeId
  | .salesOrderLineAdded added =>
    (∃ actor tableId draft hasNote, command = .addLine actor tableId draft hasNote) ∨
      (∃ actor choice hasNote, command = .addLineToOrder actor added.orderId choice hasNote) ∨
      ∃ deviceId channel tableId lines,
        command = .openInboundOrder deviceId channel tableId lines
  | .salesOrderLineFired _ orderLineId _ _ =>
    (∃ actor stationId, command = .fireLine actor orderLineId stationId) ∨
      (∃ actor orderId stationId, command = .fireOrder actor orderId stationId) ∨
      ∃ actor orderId courseId stationId,
        command = .fireCourse actor orderId courseId stationId
  | .salesOrderLineUpdated _ orderLineId quantity _ =>
    ∃ actor, command = .setLineQuantity actor orderLineId quantity
  | .salesOrderLineVoided _ orderLineId reasonCodeId _ =>
    ∃ actor approval, command = .voidLine actor orderLineId reasonCodeId approval
  | .billingBillOpened opened =>
    (∃ actor tableId, command = .openBill actor tableId) ∨
      (∃ actor, command = .openBillForOrder actor opened.orderId) ∨
      ∃ actor billId parts, command = .splitBill actor billId parts
  | .billingPaymentCaptured captured =>
    ∃ actor scope payments hasBuyer approval,
      command = .settleBill actor scope captured.billId payments hasBuyer approval
  | .billingBillSettled settled =>
    ∃ actor scope payments hasBuyer approval,
      command = .settleBill actor scope settled.billId payments hasBuyer approval
  | .billingReceiptReprinted billId _ _ => ∃ actor, command = .reprintReceipt actor billId
  | .billingDiscountApplied billId _ amount _ =>
    ∃ actor reasonCodeId approval,
      command = .discountBill actor billId amount reasonCodeId approval
  | .billingFeeWaived billId feeId reasonCodeId =>
    ∃ actor approval, command = .waiveFee actor billId feeId reasonCodeId approval
  | .billingBillSplit billId _ => ∃ actor parts, command = .splitBill actor billId parts
  | .billingBillMerged billId absorbed => ∃ actor, command = .mergeBills actor billId absorbed
  | .billingBillVoided billId reasonCodeId =>
    (∃ actor approval, command = .voidBill actor billId reasonCodeId approval) ∨
      ∃ actor scope approval,
        command = .voidSettledBill actor scope billId reasonCodeId approval
  | .cashShiftOpened opened =>
    ∃ actor scope breakdown approval assignee handedOverFrom, command =
      .openShift actor scope opened.openingFloat breakdown approval assignee handedOverFrom
  | .cashShiftCounted shiftId _ _ breakdown =>
    ∃ actor scope countedMinor approval,
      command = .countShift actor scope shiftId countedMinor breakdown approval
  | .cashShiftClosed closed =>
    (∃ actor scope approval reason,
      command = .closeShift actor scope closed.closedShiftId approval reason) ∨
      ∃ actor scope shiftIds approval reasons,
        command = .closeShifts actor scope shiftIds approval reasons ∧
          closed.closedShiftId ∈ shiftIds
  | .cashDrawerPaidIn amount reasonCodeId _ =>
    ∃ actor scope shiftId approval,
      command = .recordCashMovement actor scope shiftId .paidIn amount reasonCodeId approval
  | .cashDrawerPaidOut amount reasonCodeId _ =>
    ∃ actor scope shiftId approval,
      command = .recordCashMovement actor scope shiftId .paidOut amount reasonCodeId approval
  | .cashDrawerDropped amount _ reasonCodeId _ =>
    (∃ actor scope shiftId reason approval,
      command = .recordCashMovement actor scope shiftId .dropped amount reason approval) ∨
      ∃ actor scope shiftId breakdown approval,
        command = .recordSafeDrop actor scope shiftId amount breakdown reasonCodeId approval
  | .cashDrawerOpened _ _ _ =>
    ∃ actor scope reasonCodeId approval,
      command = .openDrawerNoSale actor scope reasonCodeId approval
  | .inventoryItemSoldOut menuItemId _ =>
    ∃ actor, command = .setItemSoldOut actor menuItemId true
  | .inventoryItemRestored menuItemId =>
    ∃ actor, command = .setItemSoldOut actor menuItemId false
  | .securityPermissionOverridden _ _ _ => True
  | .storeChainAnchored _ _ _ =>
    (∃ actor scope shiftId approval reason,
      command = .closeShift actor scope shiftId approval reason) ∨
      ∃ actor scope shiftIds approval reasons,
        command = .closeShifts actor scope shiftIds approval reasons

namespace Command

variable {command : Command} {env : Env} {ids : Nat → Nat} {P : Projection} {plan : Plan}
  {payload : Payload} {ctx : DecisionCtx}

theorem writes_of_isOverride (h : payload.isOverride = true) : command.Writes payload := by
  cases payload <;> first | exact trivial | exact absurd h Bool.false_ne_true

theorem writes_prepareAll {taken : Nat → Nat} {shift : Option ShiftId}
    {payloads : List Payload} (h : ∀ payload ∈ payloads, command.Writes payload) :
    ∀ event ∈ prepareAll ctx taken shift payloads, command.Writes event.payload :=
  fun event hevent => h event.payload (mem_prepareAll hevent).1

/-- An act's own event and those of its step-ups. -/
theorem writes_approved {stepUps : List (Permission × Option EmployeeId)}
    (h : command.Writes payload) :
    ∀ other ∈ payload :: overridePayloads stepUps, command.Writes other := by
  intro other hother
  rcases mem_cons.1 hother with rfl | hoverride
  · exact h
  · exact writes_of_isOverride (isOverride_of_mem_overridePayloads hoverride)

variable {actor : Actor} {scope : TillScope} {approval : Option Approval} {orderId : OrderId}

theorem writes_moveCash {shiftId : ShiftId} {movement : CashMovement} {amount : Money}
    {reason : Option ReasonCodeId} {breakdown : CountBreakdown} (hwrites : ∀ till payload,
      Env.movementPayload movement amount till reason breakdown = some payload →
      command.Writes payload)
    (hplan : env.moveCash ids P actor scope shiftId movement amount reason breakdown approval =
      .ok plan) :
    ∀ event ∈ plan.events, command.Writes event.payload := by
  obtain ⟨ctx, record, payload, stepUps, _, _, _, _, hpayload, rfl, rfl⟩ := moveCash_ok hplan
  exact writes_prepareAll (writes_approved (hwrites record.till payload hpayload))

theorem writes_openInboundOrder {deviceId : DeviceId} {channel : Open SalesChannel}
    {tableId : Option TableId} {lines : List (PricedLine × Bool)}
    (hplan : env.openInboundOrder ids P deviceId channel tableId lines = .ok plan) :
    ∀ event ∈ plan.events,
      (openInboundOrder deviceId channel tableId lines).Writes event.payload := by
  obtain ⟨businessDate, joins, prepare, _, rfl, rfl⟩ := openInboundOrder_ok hplan
  intro event hevent
  rcases mem_append.1 hevent with hopened | hjoined
  · rcases mem_cons.1 hopened with rfl | hline
    · exact .inr (.inl ⟨deviceId, channel, lines, rfl⟩)
    · obtain ⟨i, hi, rfl⟩ := mem_mapIdx.1 hline
      exact .inr (.inr ⟨deviceId, channel, tableId, lines, rfl⟩)
  · obtain ⟨target, _, rfl⟩ := map_eq_some_iff.1 (mem_toList.1 hjoined)
    exact .inr ⟨deviceId, channel, tableId, lines, rfl⟩

theorem writes_fireUnsent {stationId : Option StationId}
    {course : Option CourseId} (hwrites : ∀ fired now, command.Writes (Env.firedPayload now fired))
    (hplan : env.fireUnsent ids P actor orderId stationId course = .ok plan) :
    ∀ event ∈ plan.events, command.Writes event.payload := by
  obtain ⟨ctx, fired, _, _, rfl⟩ := fireUnsent_ok hplan
  refine writes_prepareAll fun payload hpayload => ?_
  obtain ⟨line, _, rfl⟩ := mem_map.1 hpayload
  exact hwrites line ctx.now

theorem writes_openBillForOrder
    (hwrites : ∀ opened : BillingBillOpened, opened.orderId = orderId →
      command.Writes (.billingBillOpened opened))
    (hplan : env.openBillForOrder ids P actor orderId = .ok plan) :
    ∀ event ∈ plan.events, command.Writes event.payload := by
  obtain ⟨ctx, _, _, _, rfl⟩ := openBillForOrder_ok hplan
  exact forall_mem_singleton.2 (hwrites _ rfl)

theorem writes_settleBill {billId : BillId} {payments : List Payment} {hasBuyer : Bool}
    (hplan : env.settleBill ids P actor scope billId payments hasBuyer approval = .ok plan) :
    ∀ event ∈ plan.events,
      (settleBill actor scope billId payments hasBuyer approval).Writes event.payload := by
  obtain ⟨_, ctx, drawer, _, _, _, captured, _, _, _, _, _, hcaptured, rfl, _, rfl, rfl⟩ :=
    settleBill_ok hplan
  intro event hevent
  rcases mem_append.1 hevent with hpaid | hsettled
  · obtain ⟨i, hi, rfl⟩ := mem_mapIdx.1 hpaid
    obtain ⟨entry, _, hentry⟩ := exists_of_mem_mapM hcaptured (getElem_mem hi)
    obtain ⟨hbill, _, _⟩ := capturePayment_ok hentry
    exact ⟨actor, scope, payments, hasBuyer, approval, by rw [hbill]⟩
  · refine writes_prepareAll (writes_approved ?_) event hsettled
    exact ⟨actor, scope, payments, hasBuyer, approval, rfl⟩

theorem writes_anchorChain {id : Nat} {anchor : List Event}
    (hwrites : ∀ seq head unchained, command.Writes (.storeChainAnchored seq head unchained))
    (hanchor : env.anchorChain P ctx id = .ok anchor) :
    ∀ event ∈ anchor, command.Writes event.payload := by
  intro event hevent
  rcases anchorChain_ok hanchor with rfl | ⟨seq, head, unchained, rfl⟩
  · exact absurd hevent not_mem_nil
  · obtain rfl := mem_singleton.1 hevent
    exact hwrites seq head unchained

theorem writes_closeShifts {shiftIds : List ShiftId} {reasons : List (ShiftId × ReasonCodeId)}
    (hplan : env.closeShifts ids P actor scope shiftIds approval reasons = .ok plan) :
    ∀ event ∈ plan.events,
      (closeShifts actor scope shiftIds approval reasons).Writes event.payload := by
  obtain ⟨ctx, named, closings, approver, overrider, payloads, anchor, hnamed, hclosings, rfl,
    hanchor, rfl⟩ := closeShifts_ok hplan
  intro event hevent
  rcases mem_append.1 hevent with hclosed | hanchored
  · obtain ⟨i, hi, rfl⟩ := mem_mapIdx.1 hclosed
    obtain ⟨entry, hentry, hpayload⟩ := mem_flatMap.1 (getElem_mem hi)
    obtain ⟨payload, hmem, heq⟩ := mem_map.1 hpayload
    rw [← heq]
    refine writes_approved ?_ payload hmem
    obtain ⟨_, _, _, hid, _⟩ := (forall₂_iff_zip.1 hclosings).2 hentry
    refine .inr ⟨actor, scope, shiftIds, approval, reasons, rfl, ?_⟩
    rw [hid]
    exact ((namedShifts_ok hnamed).2 entry.1 (of_mem_zip hentry).1).1
  · unfold anchorBatch at hanchor
    split at hanchor
    · cases hanchor
      exact absurd hanchored not_mem_nil
    · exact writes_anchorChain (fun _ _ _ => .inr ⟨actor, scope, shiftIds, approval, reasons, rfl⟩)
        hanchor event hanchored

/-- Every event of a command that was taken is one it writes. -/
theorem plan_writes (hplan : command.plan env ids P = .ok plan) :
    ∀ event ∈ plan.events, command.Writes event.payload := by
  cases command with
  | seatTable actor tableId =>
    obtain ⟨ctx, _, rfl⟩ := seatTable_ok hplan
    intro event hevent
    rcases mem_cons.1 hevent with rfl | hopened
    · exact ⟨actor, rfl⟩
    · obtain rfl := mem_singleton.1 hopened
      exact .inl ⟨actor, tableId, rfl, rfl⟩
  | cleanTable actor tableId =>
    obtain ⟨ctx, _, rfl⟩ := cleanTable_ok hplan
    exact forall_mem_singleton.2 ⟨actor, .inl rfl⟩
  | releaseTable actor tableId =>
    obtain ⟨ctx, payloads, _, _, rfl, rfl⟩ := releaseTable_ok hplan
    refine writes_prepareAll fun payload hpayload => ?_
    rcases mem_append.1 hpayload with hclosed | hfreed
    · obtain ⟨orderId, _, rfl⟩ := map_eq_some_iff.1 (mem_toList.1 hclosed)
      exact .inl ⟨actor, tableId, rfl⟩
    · obtain rfl := mem_singleton.1 hfreed
      exact ⟨actor, .inr rfl⟩
  | transferTable actor fromTableId toTableId =>
    obtain ⟨ctx, orderId, _, _, _, rfl⟩ := transferTable_ok hplan
    exact forall_mem_singleton.2 ⟨actor, rfl⟩
  | addLine actor tableId draft hasNote =>
    obtain ⟨ctx, orderId, names, _, _, rfl⟩ := addLine_ok hplan
    exact forall_mem_singleton.2 (.inl ⟨actor, tableId, draft, hasNote, rfl⟩)
  | addLineToOrder actor orderId choice hasNote =>
    obtain ⟨ctx, origin, draft, names, _, _, _, rfl⟩ := addLineToOrder_ok hplan
    exact forall_mem_singleton.2 (.inr (.inl ⟨actor, choice, hasNote, rfl⟩))
  | voidLine actor lineId reasonCodeId approval =>
    obtain ⟨ctx, record, payloads, approver, _, rfl, rfl⟩ := voidLine_ok hplan
    exact writes_prepareAll (writes_approved ⟨actor, approval, rfl⟩)
  | setLineQuantity actor lineId quantity =>
    obtain ⟨ctx, record, lineTotal, _, _, rfl⟩ := setLineQuantity_ok hplan
    exact forall_mem_singleton.2 ⟨actor, rfl⟩
  | fireLine actor lineId stationId =>
    obtain ⟨ctx, record, fired, _, _, hfired, rfl⟩ := fireLine_ok hplan
    exact forall_mem_singleton.2 (.inl ⟨actor, stationId, by rw [(decideFire_ok hfired).1]⟩)
  | fireOrder actor orderId stationId =>
    exact writes_fireUnsent (fun _ _ => .inr (.inl ⟨actor, orderId, stationId, rfl⟩))
      (fireOrder_ok hplan)
  | fireCourse actor orderId courseId stationId =>
    exact writes_fireUnsent (fun _ _ => .inr (.inr ⟨actor, orderId, courseId, stationId, rfl⟩))
      (fireCourse_ok hplan)
  | openInboundOrder => exact writes_openInboundOrder hplan
  | openCounterOrder actor channel =>
    obtain ⟨ctx, rfl⟩ := openCounterOrder_ok hplan
    exact forall_mem_singleton.2 (.inr (.inr ⟨actor, channel, rfl, rfl⟩))
  | confirmInboundOrder actor orderId =>
    obtain ⟨ctx, joins, payloads, _, _, rfl, rfl⟩ := confirmInboundOrder_ok hplan
    refine writes_prepareAll fun payload hpayload => ?_
    rcases mem_cons.1 hpayload with rfl | hjoined
    · exact ⟨actor, rfl⟩
    · obtain ⟨target, _, rfl⟩ := map_eq_some_iff.1 (mem_toList.1 hjoined)
      exact .inl ⟨actor, rfl⟩
  | rejectInboundOrder actor orderId reasonCodeId =>
    obtain ⟨ctx, _, rfl⟩ := rejectInboundOrder_ok hplan
    intro event hevent
    rcases mem_cons.1 hevent with rfl | hclosed
    · exact ⟨actor, rfl⟩
    · obtain rfl := mem_singleton.1 hclosed
      exact .inr ⟨actor, reasonCodeId, rfl⟩
  | setItemSoldOut actor menuItemId soldOut =>
    obtain ⟨ctx, payloads, hpayloads, rfl⟩ := setItemSoldOut_ok hplan
    refine writes_prepareAll fun payload hpayload => ?_
    rw [hpayloads payload hpayload]
    cases soldOut <;> exact ⟨actor, rfl⟩
  | openBill actor tableId =>
    obtain ⟨orderId, _, horder⟩ := openBill_ok hplan
    exact writes_openBillForOrder (fun _ _ => .inl ⟨actor, tableId, rfl⟩) horder
  | openBillForOrder actor orderId =>
    exact writes_openBillForOrder (fun _ horder => .inr (.inl ⟨actor, by rw [horder]⟩)) hplan
  | discountBill actor billId amount reasonCodeId approval =>
    obtain ⟨ctx, _, _, _, _, overridden, _, _, _, _, _, _, _, hoverridden, rfl, rfl⟩ :=
      discountBill_ok hplan
    refine writes_prepareAll fun payload hpayload => ?_
    rcases mem_cons.1 hpayload with rfl | hmem
    · exact ⟨actor, reasonCodeId, approval, rfl⟩
    · exact writes_of_isOverride (hoverridden payload hmem)
  | waiveFee actor billId feeId reasonCodeId approval =>
    obtain ⟨ctx, _, _, rfl, rfl⟩ := waiveFee_ok hplan
    exact writes_prepareAll (writes_approved ⟨actor, approval, rfl⟩)
  | splitBill actor billId parts =>
    obtain ⟨ctx, bill, _, openings, _, _, _, _, _, _, rfl, rfl⟩ := splitBill_ok hplan
    refine writes_prepareAll fun payload hpayload => ?_
    rcases mem_append.1 hpayload with hopened | hsplit
    · obtain ⟨opened, _, rfl⟩ := mem_map.1 hopened
      exact .inr (.inr ⟨actor, billId, parts, rfl⟩)
    · obtain rfl := mem_singleton.1 hsplit
      exact ⟨actor, parts, rfl⟩
  | mergeBills actor billId absorbed =>
    obtain ⟨ctx, _, _, _, _, _, _, _, rfl⟩ := mergeBills_ok hplan
    exact forall_mem_singleton.2 ⟨actor, rfl⟩
  | settleBill => exact writes_settleBill hplan
  | voidBill actor billId reasonCodeId approval =>
    obtain ⟨ctx, _, _, _, _, _, rfl, rfl⟩ := voidBill_ok hplan
    exact writes_prepareAll (writes_approved (.inl ⟨actor, approval, rfl⟩))
  | voidSettledBill actor scope billId reasonCodeId approval =>
    obtain ⟨_, ctx, _, _, _, _, _, _, _, rfl, rfl⟩ := voidSettledBill_ok hplan
    exact writes_prepareAll (writes_approved (.inr ⟨actor, scope, approval, rfl⟩))
  | reprintReceipt actor billId =>
    obtain ⟨ctx, _, _, rfl⟩ := reprintReceipt_ok hplan
    exact forall_mem_singleton.2 ⟨actor, rfl⟩
  | openShift actor scope openingFloat breakdown approval assignee handedOverFrom =>
    obtain ⟨ctx, _, _, _, opened, _, _, _, _, _, hopened, rfl, rfl⟩ := openShift_ok hplan
    refine writes_prepareAll (writes_approved ?_)
    exact ⟨actor, scope, breakdown, approval, assignee, handedOverFrom, by rw [hopened]⟩
  | countShift actor scope shiftId countedMinor breakdown approval =>
    obtain ⟨ctx, _, _, _, _, _, rfl, rfl⟩ := countShift_ok hplan
    exact writes_prepareAll (writes_approved ⟨actor, scope, countedMinor, approval, rfl⟩)
  | closeShift actor scope shiftId approval reason =>
    obtain ⟨ctx, closed, stepUps, _, anchor, ⟨_, _, _, hid, _⟩, rfl, hanchor, rfl⟩ :=
      closeShift_ok hplan
    intro event hevent
    rcases mem_append.1 hevent with hclosed | hanchored
    · refine writes_prepareAll (writes_approved ?_) event hclosed
      exact .inl ⟨actor, scope, approval, reason, by rw [hid]⟩
    · exact writes_anchorChain (fun _ _ _ => .inl ⟨actor, scope, shiftId, approval, reason, rfl⟩)
        hanchor event hanchored
  | closeShifts => exact writes_closeShifts hplan
  | recordCashMovement actor scope shiftId movement amount reasonCodeId approval =>
    refine writes_moveCash (fun till payload hpayload => ?_) hplan
    cases movement <;> obtain rfl := some.inj hpayload
    · exact ⟨actor, scope, shiftId, approval, rfl⟩
    · exact ⟨actor, scope, shiftId, approval, rfl⟩
    · exact .inl ⟨actor, scope, shiftId, reasonCodeId, approval, rfl⟩
  | recordSafeDrop actor scope shiftId amount breakdown reasonCodeId approval =>
    refine writes_moveCash (fun till payload hpayload => ?_) (recordSafeDrop_ok hplan)
    obtain rfl := some.inj hpayload
    exact .inr ⟨actor, scope, shiftId, breakdown, approval, rfl⟩
  | openDrawerNoSale actor scope reasonCodeId approval =>
    obtain ⟨ctx, _, drawer, _, _, rfl, rfl⟩ := openDrawerNoSale_ok hplan
    exact writes_prepareAll (writes_approved ⟨actor, scope, reasonCodeId, approval, rfl⟩)

end Command

end PosFramework
