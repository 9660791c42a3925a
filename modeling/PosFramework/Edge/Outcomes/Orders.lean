import PosFramework.Core.Decision.Proofs
import PosFramework.Edge.Commands.Orders

set_option autoImplicit false

/-! # What an order command that was taken did

For each command on tables, orders and lines: what it found, and the plan it made. The refusals are
read off once here, so that a proof about runs never unfolds a command. -/

namespace PosFramework

open Fallible Payload

namespace Env

variable {env : Env} {ids : Nat → Nat} {P : Projection} {actor : Actor} {plan : Plan}

/-! ## Tables -/

variable {tableId : TableId} {orderId : OrderId} {orderLineId : OrderLineId}
  {stationId : Option StationId} {reasonCodeId : ReasonCodeId} {course : Option CourseId}
  {hasNote : Bool}

theorem seatTable_ok (h : env.seatTable ids P actor tableId = .ok plan) :
    ∃ ctx, P.tableState tableId = .free ∧ plan =
      { events :=
          [P.prepare ctx (ids 1) (.salesTableOpened tableId ⟨ids 0⟩),
            P.prepare ctx (ids 2) (.salesOrderOpened ⟨ids 0⟩ (.fromKnown .dineIn) (some tableId))]
        minted := 3
        apply := fun P =>
          .ok (((P.setTable tableId .occupied).openOrder tableId ⟨ids 0⟩).openOrderOrigin ⟨ids 0⟩
            (some .dineIn) (some tableId)) } := by
  simp only [seatTable, bind_eq_ok, liftDomain_eq_ok, pure_eq_ok] at h
  obtain ⟨_, _, _, _, ctx, _, decision, hdecision, rfl⟩ := h
  obtain ⟨hstate, hnext⟩ := tableMachine_next.1 (decideTable_ok hdecision)
  exact ⟨ctx, hstate, by rw [hnext]⟩

theorem cleanTable_ok (h : env.cleanTable ids P actor tableId = .ok plan) :
    ∃ ctx, P.tableState tableId = .needsCleaning ∧ plan =
      { events := [P.prepare ctx (ids 0) (.salesTableClosed tableId)]
        minted := 1
        apply := fun P => .ok (P.setTable tableId .free) } := by
  simp only [cleanTable, bind_eq_ok, liftDomain_eq_ok, pure_eq_ok] at h
  obtain ⟨ctx, _, decision, hdecision, rfl⟩ := h
  obtain ⟨hstate, hnext⟩ := tableMachine_next.1 (decideTable_ok hdecision)
  exact ⟨ctx, hstate, by rw [hnext]⟩

theorem releaseTable_ok (h : env.releaseTable ids P actor tableId = .ok plan) :
    ∃ ctx payloads, P.tableState tableId = .occupied ∧
      (P.orderForTable tableId).any (orderHolds P) = false ∧
      payloads = ((P.orderForTable tableId).map fun orderId => salesOrderClosed orderId).toList
        ++ [.salesTableClosed tableId] ∧
      plan =
        { events := prepareAll ctx ids P.currentShiftId payloads
          minted := payloads.length
          apply := fun Q =>
            .ok ((closeIfAny Q (P.orderForTable tableId)).setTable tableId .free) } := by
  simp only [releaseTable, bind_eq_ok, liftDomain_eq_ok, refuseIf_eq_ok, pure_eq_ok] at h
  obtain ⟨ctx, _, decision, hdecision, _, hholds, rfl⟩ := h
  obtain ⟨hstate, hnext⟩ := tableMachine_next.1 (decideTable_ok hdecision)
  exact ⟨ctx, _, hstate, Bool.not_eq_true _ ▸ hholds, rfl, by rw [hnext]⟩

theorem transferTable_ok {fromTableId toTableId : TableId}
    (h : env.transferTable ids P actor fromTableId toTableId = .ok plan) :
    ∃ ctx orderId, P.orderForTable fromTableId = some orderId ∧
      P.tableState fromTableId = .occupied ∧ P.tableState toTableId = .free ∧ plan =
      { events := [P.prepare ctx (ids 0) (.salesTableTransferred orderId fromTableId toTableId)]
        minted := 1
        apply := fun P => .ok (((P.setTable fromTableId .needsCleaning).setTable toTableId
          .occupied).moveOrder orderId fromTableId toTableId) } := by
  simp only [transferTable, bind_eq_ok, liftDomain_eq_ok, okOr_eq_ok, pure_eq_ok] at h
  obtain ⟨ctx, _, left, hleft, seated, hseated, orderId, horder, _, _, rfl⟩ := h
  obtain ⟨hoccupied, hleftNext⟩ := tableMachine_next.1 (decideTable_ok hleft)
  obtain ⟨hfree, hseatedNext⟩ := tableMachine_next.1 (decideTable_ok hseated)
  exact ⟨ctx, orderId, horder, hoccupied, hfree, by rw [hleftNext, hseatedNext]⟩

/-! ## Lines -/

theorem addLine_ok {draft : LineDraft}
    (h : env.addLine ids P actor tableId draft hasNote = .ok plan) :
    ∃ ctx orderId names, P.orderForTable tableId = some orderId ∧
      P.billForOrder orderId = none ∧ plan = appendLine ids P ctx orderId draft names hasNote := by
  simp only [addLine, bind_eq_ok, liftDomain_eq_ok, okOr_eq_ok, refuseIf_eq_ok, pure_eq_ok] at h
  obtain ⟨ctx, _, _, _, _, _, _, _, _, _, orderId, horder, _, _, _, hbill, rfl⟩ := h
  exact ⟨ctx, orderId, _, horder, Option.not_isSome_iff_eq_none.1 hbill, rfl⟩

theorem addLineToOrder_ok {choice : OrderLineChoice}
    (h : env.addLineToOrder ids P actor orderId choice hasNote = .ok plan) :
    ∃ ctx origin draft names, P.orderOrigin orderId = some origin ∧
      P.staffDecision orderId ≠ some .rejected ∧ P.billForOrder orderId = none ∧
      plan = appendLine ids P ctx orderId draft names hasNote := by
  simp only [addLineToOrder, bind_eq_ok, liftDomain_eq_ok, okOr_eq_ok, refuseIf_eq_ok, pure_eq_ok]
    at h
  obtain ⟨ctx, _, _, _, _, _, _, _, origin, horigin, _, hdecision, _, hbill, _, _, _, _, _,
    _, rfl⟩ := h
  exact ⟨ctx, origin, _, _, horigin, hdecision, Option.not_isSome_iff_eq_none.1 hbill, rfl⟩

theorem voidLine_ok {approval : Option Approval}
    (h : env.voidLine ids P actor orderLineId reasonCodeId approval = .ok plan) :
    ∃ ctx record payloads approver, P.line orderLineId = some record ∧
      payloads = .salesOrderLineVoided record.orderId orderLineId reasonCodeId
        (decide (record.state = .fired)) :: overridePayloads [(.voidFiredLine, approver)] ∧
      plan =
        { events := prepareAll ctx ids P.currentShiftId payloads
          minted := payloads.length
          apply := fun P => .ok (P.setLineState orderLineId .voided) } := by
  simp only [voidLine, bind_eq_ok, liftDomain_eq_ok, okOr_eq_ok, refuseIf_eq_ok, pure_eq_ok] at h
  obtain ⟨_, _, record, hrecord, _, _, ⟨approver, ctx⟩, _, decision, hdecision, rfl⟩ := h
  exact ⟨ctx, record, _, approver, hrecord, rfl, by rw [decideLine_void_ok hdecision]⟩

theorem setLineQuantity_ok {quantity : Quantity}
    (h : env.setLineQuantity ids P actor orderLineId quantity = .ok plan) :
    ∃ ctx record lineTotal, P.line orderLineId = some record ∧
      record.unitPrice.mulQuantity quantity .halfUp = .ok lineTotal ∧
      plan =
        { events := [P.prepare ctx (ids 0)
            (.salesOrderLineUpdated record.orderId orderLineId quantity lineTotal)]
          minted := 1
          apply := fun P => .ok (P.setLineQuantity orderLineId quantity lineTotal) } := by
  simp only [setLineQuantity, bind_eq_ok, liftDomain_eq_ok, liftMoney_eq_ok, okOr_eq_ok, pure_eq_ok]
    at h
  obtain ⟨ctx, _, record, hrecord, _, _, lineTotal, htotal, rfl⟩ := h
  exact ⟨ctx, record, lineTotal, hrecord, htotal, rfl⟩

/-! ## The kitchen -/

theorem decideFire_ok {ctx : DecisionCtx} {entry : OrderLineId × LineRecord} {fired : FiredLine}
    (h : env.decideFire ctx stationId course entry = .ok fired) :
    fired.orderLineId = entry.1 ∧ fired.orderId = entry.2.orderId ∧ entry.2.state ≠ .voided ∧
      fired.nextState = .fired := by
  simp only [decideFire, bind_eq_ok, liftDomain_eq_ok, okOr_eq_ok, pure_eq_ok] at h
  obtain ⟨_, _, decision, hdecision, rfl⟩ := h
  obtain ⟨hstate, hnext⟩ := decideLine_fire_ok hdecision
  refine ⟨rfl, rfl, ?_, hnext⟩
  rcases hstate with hstate | hstate <;> simp [hstate]

theorem fireLine_ok (h : env.fireLine ids P actor orderLineId stationId = .ok plan) :
    ∃ ctx record fired, P.line orderLineId = some record ∧
      env.refuseUnlessFireable P record.orderId = .ok () ∧
      env.decideFire ctx stationId none (orderLineId, record) = .ok fired ∧
      plan =
        { events := [P.prepare ctx (ids 0) (firedPayload ctx.now fired)]
          minted := 1
          apply := fun P => .ok (applyFired ctx.now P fired) } := by
  simp only [fireLine, bind_eq_ok, okOr_eq_ok, pure_eq_ok] at h
  obtain ⟨ctx, _, record, hrecord, _, hfireable, fired, hfired, rfl⟩ := h
  exact ⟨ctx, record, fired, hrecord, hfireable, hfired, rfl⟩

theorem fireUnsent_ok
    (h : env.fireUnsent ids P actor orderId stationId course = .ok plan) :
    ∃ ctx fired, env.refuseUnlessFireable P orderId = .ok () ∧
      (unsentLines P orderId course).mapM (env.decideFire ctx stationId course) = .ok fired ∧
      plan =
        { events := prepareAll ctx ids P.currentShiftId (fired.map (firedPayload ctx.now))
          minted := fired.length
          apply := fun P => .ok (fired.foldl (applyFired ctx.now) P) } := by
  simp only [fireUnsent, bind_eq_ok, pure_eq_ok] at h
  obtain ⟨ctx, _, _, _, _, hfireable, fired, hfired, rfl⟩ := h
  exact ⟨ctx, fired, hfireable, hfired, rfl⟩

theorem fireOrder_ok (h : env.fireOrder ids P actor orderId stationId = .ok plan) :
    env.fireUnsent ids P actor orderId stationId none = .ok plan := by
  simp only [fireOrder, bind_eq_ok] at h
  obtain ⟨_, _, hfire⟩ := h
  exact hfire

theorem fireCourse_ok {courseId : CourseId}
    (h : env.fireCourse ids P actor orderId courseId stationId = .ok plan) :
    env.fireUnsent ids P actor orderId stationId (some courseId) = .ok plan := by
  simp only [fireCourse, bind_eq_ok] at h
  obtain ⟨_, _, hfire⟩ := h
  exact hfire

/-! ## Orders that come in -/

theorem openInboundOrder_ok {deviceId : DeviceId} {channel : Open SalesChannel}
    {tableId : Option TableId} {lines : List (PricedLine × Bool)}
    (h : env.openInboundOrder ids P deviceId channel tableId lines = .ok plan) :
    ∃ businessDate joins prepare,
      joins = env.orderJoinedOnArrival P channel.require? tableId
        (env.session.holdsForStaffConfirmation channel.require? tableId) ∧
      prepare = P.systemPrepare deviceId env.now businessDate ∧
      plan =
        { events :=
            prepare (ids 1) (.salesOrderOpened ⟨ids 0⟩ channel tableId) ::
              ((inboundLines ids ⟨ids 0⟩ lines).mapIdx fun i line =>
                prepare (ids (3 + 2 * i)) (.salesOrderLineAdded line)) ++
              (joins.map fun target =>
                prepare (ids (2 + 2 * lines.length)) (.salesTableMerged target ⟨ids 0⟩)).toList
          minted := 2 + 2 * lines.length + joins.toList.length
          apply := fun P => .ok (P.foldInboundOrder ⟨ids 0⟩ channel.require? tableId
            ((inboundLines ids ⟨ids 0⟩ lines).map fun line => (line.orderLineId, .ofAdded line))
            joins) } := by
  simp only [openInboundOrder, bind_eq_ok, okOr_eq_ok, pure_eq_ok] at h
  obtain ⟨_, _, businessDate, _, rfl⟩ := h
  exact ⟨businessDate, _, _, rfl, rfl, rfl⟩

theorem openCounterOrder_ok {channel : SalesChannel}
    (h : env.openCounterOrder ids P actor channel = .ok plan) :
    ∃ ctx, plan =
      { events := [P.prepare ctx (ids 1) (.salesOrderOpened ⟨ids 0⟩ (.fromKnown channel) none)]
        minted := 2
        apply := fun P => .ok (P.openOrderOrigin ⟨ids 0⟩ (some channel) none) } := by
  simp only [openCounterOrder, bind_eq_ok, pure_eq_ok] at h
  obtain ⟨_, _, _, _, ctx, _, _, _, _, _, rfl⟩ := h
  exact ⟨ctx, rfl⟩

theorem confirmInboundOrder_ok (h : env.confirmInboundOrder ids P actor orderId = .ok plan) :
    ∃ ctx joins payloads, P.awaitsStaffConfirmation env.session orderId = true ∧
      joins = env.orderJoinedOnConfirm P orderId ∧
      payloads = .salesOrderConfirmedByStaff orderId ::
        (joins.map fun target => salesTableMerged target orderId).toList ∧
      plan =
        { events := prepareAll ctx ids P.currentShiftId payloads
          minted := payloads.length
          apply := fun P =>
            .ok (mergeIfAny (P.recordStaffDecision orderId .confirmed) joins orderId) } := by
  simp only [confirmInboundOrder, bind_eq_ok, refuseIf_eq_ok, pure_eq_ok, Bool.not_eq_false] at h
  obtain ⟨ctx, _, _, _, _, hawaits, rfl⟩ := h
  exact ⟨ctx, _, _, hawaits, rfl, rfl, rfl⟩

theorem rejectInboundOrder_ok
    (h : env.rejectInboundOrder ids P actor orderId reasonCodeId = .ok plan) :
    ∃ ctx, P.awaitsStaffConfirmation env.session orderId = true ∧ plan =
      { events :=
          [P.prepare ctx (ids 0) (.salesOrderRejectedByStaff orderId reasonCodeId),
            P.prepare ctx (ids 1) (.salesOrderClosed orderId)]
        minted := 2
        apply := fun P =>
          .ok ((P.recordStaffDecision orderId .rejected).closeOrder orderId) } := by
  simp only [rejectInboundOrder, bind_eq_ok, refuseIf_eq_ok, pure_eq_ok, Bool.not_eq_false] at h
  obtain ⟨ctx, _, _, _, _, hawaits, _, _, _, _, rfl⟩ := h
  exact ⟨ctx, hawaits, rfl⟩

theorem setItemSoldOut_ok {menuItemId : MenuItemId} {soldOut : Bool}
    (h : env.setItemSoldOut ids P actor menuItemId soldOut = .ok plan) :
    ∃ ctx payloads,
      (∀ payload ∈ payloads, payload = if soldOut then inventoryItemSoldOut menuItemId false
        else .inventoryItemRestored menuItemId) ∧
      plan =
        { events := prepareAll ctx ids P.currentShiftId payloads
          minted := payloads.length
          apply := fun P =>
            .ok (if payloads = [] then P else P.setSoldOut menuItemId soldOut) } := by
  simp only [setItemSoldOut, bind_eq_ok, pure_eq_ok] at h
  obtain ⟨ctx, _, _, _, _, _, rfl⟩ := h
  refine ⟨ctx, _, fun payload hpayload => ?_, rfl⟩
  split at hpayload
  · exact absurd hpayload List.not_mem_nil
  · exact List.mem_singleton.1 hpayload

end Env

end PosFramework
