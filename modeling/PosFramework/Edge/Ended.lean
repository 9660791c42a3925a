import PosFramework.Edge.Paid
import PosFramework.Edge.Hall.Run
import PosFramework.Edge.Writes

set_option autoImplicit false

/-! # Orders that have ended

An order ends when staff refuse it, when its table is released and when it is merged into another.
The commands that go by a table find no ended order; those that go by an order or by a bill check
less, and take one up again. -/

namespace PosFramework

open Fallible Projection Env List Trial Option Command Edge Transition Payload Ledger Function

/-- The order an event ends. -/
def Payload.ends : Payload → Option OrderId
  | .salesOrderRejectedByStaff orderId _ => some orderId
  | .salesOrderClosed orderId => some orderId
  | .salesTableMerged _ merged => some merged
  | _ => none

/-- The order an event adds a line to, fires a line of or opens a bill on. -/
def Payload.resumes : Payload → Option OrderId
  | .salesOrderLineAdded added => some added.orderId
  | .salesOrderLineFired orderId _ _ _ => some orderId
  | .billingBillOpened opened => some opened.orderId
  | _ => none

/-! ## Orders with nothing left on them -/

namespace Ledger

/-- Nothing is sold on the order any more and none of its bills is open. -/
structure Done (L : Ledger) (orderId : OrderId) : Prop where
  unsold : ∀ line sale, L.sale line = some sale → sale.orderId = orderId → sale.sold = false
  closed : ∀ bill charge, L.charge bill = some charge → charge.orderId = orderId →
    charge.state ≠ .open

variable {L L' : Ledger} {orderId : OrderId} {command : Command} {state : BillState} {bill : BillId}

theorem Done.sell (h : L.Done orderId) {line : OrderLineId} {sale : Sale}
    (hsale : sale.orderId = orderId → sale.sold = false) : (L.sell line sale).Done orderId where
  unsold := by
    intro other found hfound horder
    simp only [Ledger.sell, update_apply] at hfound
    split at hfound
    · obtain rfl := some.inj hfound
      exact hsale horder
    · exact h.unsold other found hfound horder
  closed := h.closed

theorem Done.sellAll {sales : List (OrderLineId × Sale)} (h : L.Done orderId)
    (hsales : ∀ entry ∈ sales, entry.2.orderId ≠ orderId) : (L.sellAll sales).Done orderId := by
  induction sales generalizing L with
  | nil => exact h
  | cons first rest ih =>
    refine ih (h.sell fun heq => ?_) fun entry hentry => hsales entry (mem_cons_of_mem _ hentry)
    exact absurd heq (hsales first mem_cons_self)

theorem Done.move (h : L.Done orderId) {merged target : OrderId} (hne : target ≠ orderId) :
    (L.move merged target).Done orderId where
  unsold := by
    intro line sale hsale horder
    obtain ⟨before, hbefore, rfl⟩ := map_eq_some_iff.1 hsale
    by_cases hmerged : before.orderId = merged
    · rw [if_pos hmerged] at horder
      exact absurd horder hne
    · rw [if_neg hmerged] at horder ⊢
      exact h.unsold line before hbefore horder
  closed := h.closed

theorem done_of_move {merged target : OrderId} (hne : target ≠ merged) (hfree : L.Unbilled merged) :
    (L.move merged target).Done merged where
  unsold := by
    intro line sale hsale horder
    obtain ⟨before, hbefore, rfl⟩ := map_eq_some_iff.1 hsale
    split at horder
    · exact absurd horder hne
    · next hmerged =>
      exact absurd horder hmerged
  closed := fun bill charge hcharge horder hopen => hfree bill charge hcharge (.inl hopen) horder

theorem Done.issue (h : L.Done orderId) {charge : Charge}
    (hcharge : charge.orderId = orderId → charge.state ≠ .open) :
    (L.issue bill charge).Done orderId where
  unsold := h.unsold
  closed := by
    intro other found hfound horder
    simp only [Ledger.issue, update_apply] at hfound
    split at hfound
    · obtain rfl := some.inj hfound
      exact hcharge horder
    · exact h.closed other found hfound horder

theorem Done.issueAll {charges : List (BillId × Charge)} (h : L.Done orderId)
    (hcharges : ∀ entry ∈ charges, entry.2.orderId ≠ orderId) :
    (L.issueAll charges).Done orderId := by
  induction charges generalizing L with
  | nil => exact h
  | cons first rest ih =>
    refine ih (h.issue fun heq => ?_) fun entry hentry =>
      hcharges entry (mem_cons_of_mem _ hentry)
    exact absurd heq (hcharges first mem_cons_self)

theorem Done.restate (h : L.Done orderId)
    (hstate : state ≠ .open) : (L.restate bill state).Done orderId where
  unsold := h.unsold
  closed := by
    intro other found hfound horder
    simp only [Ledger.restate, update_apply] at hfound
    split at hfound
    · obtain ⟨before, _, rfl⟩ := map_eq_some_iff.1 hfound
      exact hstate
    · exact h.closed other found hfound horder

theorem Done.restateAll {bills : List BillId} (h : L.Done orderId)
    (hstate : state ≠ .open) : (L.restateAll bills state).Done orderId := by
  induction bills generalizing L with
  | nil => exact h
  | cons first rest ih => exact ih (h.restate hstate)

end Ledger

/-- The commands that may put lines on an order. -/
def Command.sells : Command → Bool
  | addLine .. | addLineToOrder .. | openInboundOrder .. | confirmInboundOrder .. => true
  | _ => false

/-- The commands that may end an order. -/
def Command.endsOrder : Command → Bool
  | releaseTable .. | openInboundOrder .. | confirmInboundOrder .. | rejectInboundOrder .. => true
  | _ => false

/-- A command that puts no line on an order leaves those alone which have nothing left. -/
theorem Ledger.Step.done {L L' : Ledger} {command : Command} {orderId : OrderId}
    (hstep : L.Step command L') (hcommand : command.sells = false) (h : L.Done orderId) :
    L'.Done orderId := by
  cases hstep with
  | quiet _ => exact h
  | addLine => cases command <;> simp_all [addsLine, sells]
  | voidLine => exact h.sell fun _ => rfl
  | setLineQuantity hline _ =>
    have hunsold := h.unsold _ _ hline
    exact h.sell hunsold
  | arrive _ => simp [sells] at hcommand
  | arriveAndJoin _ => simp [sells] at hcommand
  | confirm => exact h
  | confirmAndJoin _ => simp [sells] at hcommand
  | openBill _ hopens =>
    -- a bill opens with a line that was sold on its order
    refine h.issue fun horder => ?_
    obtain ⟨line, hline⟩ := exists_mem_of_ne_nil _ hopens.nonempty
    obtain ⟨sale, hsale, hon, hsold⟩ := (hopens.mem_lines line).1 hline
    rw [h.unsold line sale hsale (hon.trans horder)] at hsold
    contradiction
  | splitBill hsplits =>
    have hother := fun horder => h.closed _ _ hsplits.source horder hsplits.isOpen
    refine (h.restate (by decide)).issueAll fun entry hentry heq => ?_
    exact hother ((hsplits.order entry hentry).symm.trans heq)
  | mergeBills hmerges =>
    refine (h.restateAll (by decide)).issue fun horder => ?_
    exact absurd hmerges.isOpen (h.closed _ _ hmerges.target horder)
  | settleBill _ _ | voidBill _ _ | voidSettledBill _ _ => exact h.issue fun _ => by simp

theorem Hall.Step.ended_eq {H H' : Hall} {command : Command} (hstep : H.Step command H')
    (hcommand : command.endsOrder = false) : H'.ended = H.ended ∧ H'.refused = H.refused := by
  cases hstep with
  | release => simp [endsOrder] at hcommand
  | releaseEmpty _ _ => simp [endsOrder] at hcommand
  | arriveAndJoin => simp [endsOrder] at hcommand
  | confirmAndJoin => simp [endsOrder] at hcommand
  | reject _ _ => simp [endsOrder] at hcommand
  | rejectAt _ _ => simp [endsOrder] at hcommand
  | @openBill command billId orderId tableId _ _ _ => cases tableId <;> exact ⟨rfl, rfl⟩
  | _ => exact ⟨rfl, rfl⟩

namespace Projection

/-- An order that ended, unless it was refused, has nothing left on it. -/
def Quits (P : Projection) : Prop :=
  ∀ orderId ∈ P.hall.ended, orderId ∉ P.hall.refused → P.ledger.Done orderId

end Projection

namespace Edge

/-- No ended order is taken up by its own id: no line is added to one, and no bill is opened on one
    that was refused, nor is one of its bills split. -/
def KeepsEnded (edge : Edge) (input : Env × Command) : Prop :=
  let P := edge.projection
  match input.2 with
  | .addLineToOrder _ orderId _ _ => orderId ∉ P.closedOrders
  | .openBillForOrder _ orderId => P.staffDecision orderId ≠ some .rejected
  | .splitBill _ billId _ =>
    ∀ bill, P.bill billId = some bill → P.staffDecision bill.orderId ≠ some .rejected
  | _ => True

end Edge

section Steps

variable {P P' : Projection} {bound bound' : Nat} {ids : Nat → Nat} {command : Command} {env : Env}
  {plan : Plan}

theorem Projection.Quits.of_quiet (h : P.Quits) (hhosted : Hosted command P P')
    (haccounted : Accounted command bound' P P') (hends : command.endsOrder = false)
    (hsells : command.sells = false) : P'.Quits := by
  intro orderId hended hrefused
  obtain ⟨hended', hrefused'⟩ := hhosted.step.ended_eq hends
  rw [hended'] at hended
  rw [hrefused'] at hrefused
  exact haccounted.step.done hsells (h orderId hended hrefused)

variable {orderId : OrderId} {actor : Actor} {event : Event} {course : Option CourseId}

/-- A line is added to an order that trades. -/
theorem Projection.Quits.appendLine {ctx : DecisionCtx} {draft : LineDraft}
    {names : List DisplayName} {hasNote : Bool} (h : P.Quits) (hhosted : Hosted command P P')
    (hends : command.endsOrder = false) (hnew : P.line ⟨ids 0⟩ = none)
    (horder : orderId ∉ P.hall.ended)
    (happly : (appendLine ids P ctx orderId draft names hasNote).apply P = .ok P') :
    P'.Quits := by
  obtain ⟨hended', hrefused'⟩ := hhosted.step.ended_eq hends
  intro other hended hrefused
  rw [hended'] at hended
  rw [hrefused'] at hrefused
  cases happly
  rw [ledger_addLine hnew]
  refine (h other hended hrefused).sell ?_
  rintro rfl
  exact absurd hended horder

/-- A table is released: its order has nothing sold and no bill open. -/
theorem Projection.done_of_not_orderHolds (hP : P.WellFormed bound)
    (h : orderHolds P orderId = false) : P.ledger.Done orderId := by
  obtain ⟨hsold, hopen⟩ := Bool.or_eq_false_iff.1 h
  refine ⟨fun line sale hsale horder => ?_, fun bill charge hcharge horder => ?_⟩
  · have hnone : P.soldLineIds orderId = [] := by
      rwa [Bool.not_eq_false', List.isEmpty_iff] at hsold
    by_contra hsold
    have hmem := (mem_soldLineIds hP.indexed).2 ⟨sale, hsale, horder, Bool.not_eq_false _ ▸ hsold⟩
    rw [hnone] at hmem
    exact absurd hmem not_mem_nil
  · exact latestBillIn_eq_none hP.indexed
      (isNone_iff_eq_none.1 (isSome_eq_false_iff.1 hopen)) hcharge horder

theorem Projection.Quits.releaseTable {tableId : TableId} (h : P.Quits) (hP : P.WellFormed bound)
    (hhosted : Hosted (.releaseTable actor tableId) P P')
    (haccounted : Accounted (.releaseTable actor tableId) bound' P P')
    (hholds : (P.orderForTable tableId).any (orderHolds P) = false) : P'.Quits := by
  intro orderId hended hrefused
  rw [haccounted.step.eq_of_leavesLedger rfl]
  have hstep := hhosted.step
  generalize hH' : P'.hall = H' at hstep hended hrefused
  cases hstep with
  | quiet hquiet => simp [leavesHall] at hquiet
  | openBill hcommand _ _ => simp [opensBill] at hcommand
  | close hcommand _ _ => simp [closesBill] at hcommand
  | closeLast hcommand _ _ _ _ _ => simp [closesBill] at hcommand
  | releaseEmpty _ _ => exact h orderId hended hrefused
  | release _ horder _ =>
    rcases hended with rfl | hended
    · rw [show P.orderForTable tableId = some orderId from horder, any_some] at hholds
      exact done_of_not_orderHolds hP hholds
    · exact h orderId hended hrefused

theorem Projection.Quits.rejectInboundOrder {rejected : OrderId} {reasonCodeId : ReasonCodeId}
    (h : P.Quits) (hhosted : Hosted (.rejectInboundOrder actor rejected reasonCodeId) P P')
    (haccounted : Accounted (.rejectInboundOrder actor rejected reasonCodeId) bound' P P') :
    P'.Quits := by
  intro orderId hended hrefused
  rw [haccounted.step.eq_of_leavesLedger rfl]
  have hstep := hhosted.step
  generalize hH' : P'.hall = H' at hstep hended hrefused
  cases hstep with
  | quiet hquiet => simp [leavesHall] at hquiet
  | openBill hcommand _ _ => simp [opensBill] at hcommand
  | close hcommand _ _ => simp [closesBill] at hcommand
  | closeLast hcommand _ _ _ _ _ => simp [closesBill] at hcommand
  | reject _ _ | rejectAt _ _ =>
    rcases hended with rfl | hended
    · exact absurd (Set.mem_insert _ _) hrefused
    · exact h orderId hended fun hbefore => hrefused (Set.mem_insert_of_mem _ hbefore)

/-- An order without a bill joins one that trades. -/
theorem Projection.Quits.mergeOrder {target merged : OrderId} (h : P.Quits) (hP : P.hall.Placed)
    (hindexed : P.books.Indexed) (hne : target ≠ merged) (hfree : P.ledger.Unbilled merged)
    (htarget : target ∉ P.hall.ended) : (P.mergeOrder target merged).Quits := by
  have hledger : (P.mergeOrder target merged).ledger = P.ledger.move merged target :=
    (congrArg Books.ledger (books_mergeOrder hne)).trans
      (Books.ledger_mergeOrder hindexed)
  intro orderId hended hrefused
  rw [hall_mergeOrder hP hne] at hended hrefused
  rw [hledger]
  rcases hended with rfl | hended
  · exact done_of_move hne hfree
  · refine (h orderId hended hrefused).move ?_
    rintro rfl
    exact htarget hended

theorem Projection.Quits.openInboundOrder {deviceId : DeviceId} {channel : Open SalesChannel}
    {tableId : Option TableId} {lines : List (PricedLine × Bool)} (h : P.Quits)
    (hP : P.WellFormed bound) (hH : P.HallSound) (hids : TakesIds ids bound plan.minted bound')
    (hplan : env.openInboundOrder ids P deviceId channel tableId lines = .ok plan)
    (happly : plan.apply P = .ok P') : P'.Quits := by
  obtain ⟨businessDate, joins, prepare, hjoins, _, rfl⟩ := openInboundOrder_ok hplan
  cases happly
  let arrived : OrderId := ⟨ids 0⟩
  let Q := P.foldInboundOrder arrived channel.require? tableId
    (inboundEntries ids arrived lines) none
  have hnew : P.hall.place arrived = none := place_eq_none_of_le hP (hids.new 0)
  have hQhall : Q.hall = P.hall.arrived arrived tableId :=
    hall_foldInboundOrder hH.sound hnew fun _ hnone => nomatch hnone
  have hQended : Q.hall.ended = P.hall.ended ∧ Q.hall.refused = P.hall.refused := by
    rw [hQhall]
    cases tableId <;> exact ⟨rfl, rfl⟩
  obtain ⟨_, _, hQindexed, hQledger, harrives⟩ :=
    @arrived_accounted P bound bound' ids channel.require? tableId lines _ hP hids
      (Nat.le_add_right ..)
  -- the lines are on the order that arrives, which has not ended
  have hQuits : Q.Quits := by
    intro orderId hended hrefused
    rw [hQended.1] at hended
    rw [hQended.2] at hrefused
    rw [show Q.ledger = _ from hQledger]
    refine (h orderId hended hrefused).sellAll fun entry hentry heq => ?_
    obtain ⟨line, hline, rfl⟩ := mem_map.1 hentry
    obtain ⟨_, _, _, horder⟩ := mem_inboundEntries hline
    obtain rfl : orderId = arrived := heq.symm.trans horder
    exact hH.sound.not_ended_of_new hnew hended
  cases joins with
  | none => exact hQuits
  | some target =>
    obtain ⟨_, _, hplace, htarget⟩ := orderJoinedOnArrival_some hH hjoins.symm
    have hne : target ≠ arrived := by
      rintro rfl
      rw [hnew] at hplace
      contradiction
    refine hQuits.mergeOrder ?_ hQindexed hne ?_ (hQended.1 ▸ htarget)
    · rw [hQhall]
      exact (hH.sound.arrived hnew tableId).placed
    · rw [show Q.ledger = _ from hQledger, Unbilled, charge_sellAll]
      exact harrives.unbilled

theorem Projection.Quits.confirmInboundOrder {confirmed : OrderId} (h : P.Quits)
    (hP : P.WellFormed bound) (hH : P.HallSound)
    (hplan : env.confirmInboundOrder ids P actor confirmed = .ok plan)
    (happly : plan.apply P = .ok P') : P'.Quits := by
  obtain ⟨ctx, joins, payloads, hawaits, hjoins, _, rfl⟩ := confirmInboundOrder_ok hplan
  cases happly
  obtain ⟨hnone, _, _⟩ := awaitsStaffConfirmation_ok hawaits
  let Q := P.decided confirmed .confirmed
  have hQ : Q.hall = P.hall := hall_decided_confirmed hnone
  have hbooks : (P.recordStaffDecision confirmed .confirmed).books = P.books :=
    books_recordStaffDecision
  have hledger : Q.ledger = P.ledger := congrArg Books.ledger hbooks
  have hQuits : Q.Quits := by
    rw [Quits, hQ, hledger]
    exact h
  cases joins with
  | none => exact hQuits
  | some =>
    obtain ⟨_, _, _, htarget, hne, hbill⟩ := orderJoinedOnConfirm_there hH hjoins.symm
    refine hQuits.mergeOrder (hQ ▸ hH.sound.placed) (hbooks ▸ hP.indexed) hne ?_ (hQ ▸ htarget)
    exact unbilled_of_billForOrder hP.indexed hbill

/-- Every command leaves the orders that ended with nothing on them. -/
theorem plan_quits {edge : Edge} (hedge : edge.projection = P) (hP : P.WellFormed bound)
    (hH : P.HallSound) (h : P.Quits) (hids : TakesIds ids bound plan.minted bound')
    (hkeeps : edge.KeepsEnded (env, command)) (hplan : command.plan env ids P = .ok plan)
    (happly : plan.apply P = .ok P') (haccounted : Accounted command bound' P P')
    (hhosted : Hosted command P P') : P'.Quits := by
  subst hedge
  have hnew : edge.projection.line ⟨ids 0⟩ = none := line_eq_none_of_le hP (hids.new 0)
  cases command with
  | addLine actor tableId draft hasNote =>
    obtain ⟨ctx, orderId, names, horder, _, rfl⟩ := addLine_ok hplan
    exact h.appendLine hhosted rfl hnew (hH.sound.trading tableId orderId horder) happly
  | addLineToOrder =>
    obtain ⟨ctx, origin, draft, names, _, _, _, rfl⟩ := addLineToOrder_ok hplan
    exact h.appendLine hhosted rfl hnew hkeeps happly
  | releaseTable =>
    obtain ⟨_, _, _, hholds, _⟩ := releaseTable_ok hplan
    exact h.releaseTable hP hhosted haccounted hholds
  | rejectInboundOrder => exact h.rejectInboundOrder hhosted haccounted
  | openInboundOrder =>
    exact h.openInboundOrder hP hH hids hplan happly
  | confirmInboundOrder => exact h.confirmInboundOrder hP hH hplan happly
  | _ => exact h.of_quiet hhosted haccounted rfl rfl

theorem Projection.mem_ended_closeOrder : orderId ∈ (P.closeOrder orderId).hall.ended := by
  obtain ⟨tableOrders, heq⟩ := clearTableOf_eq
    { P with closedOrders := P.closedOrders.insert orderId } orderId
  rw [closeOrder, heq]
  exact (Keyed.mem_insert ..).2 (.inl rfl)

theorem Projection.mem_ended_mergeOrder {target merged : OrderId} (hne : target ≠ merged) :
    merged ∈ (P.mergeOrder target merged).hall.ended := by
  unfold mergeOrder
  rw [if_neg hne]
  exact (Keyed.mem_insert ..).2 (.inl rfl)

/-! ## What the events are about -/

/-- A line that may be fired is on no order that has ended. -/
theorem Projection.Quits.not_ended_of_fireable {lineId : OrderLineId} {record : LineRecord}
    (h : P.Quits) (hline : P.line lineId = some record) (hstate : record.state ≠ .voided)
    (hfireable : env.refuseUnlessFireable P record.orderId = .ok ()) :
    record.orderId ∉ P.hall.ended := by
  intro hended
  by_cases hrefused : P.staffDecision record.orderId = some .rejected
  · simp only [refuseUnlessFireable, staffStanding, hrefused] at hfireable
    contradiction
  · have hunsold := (h record.orderId hended hrefused).unsold lineId record.sale
      (sale_of_line hline) rfl
    exact hstate (of_decide_eq_false hunsold |> not_not.1)

theorem Projection.mem_unsentLines {entry : OrderLineId × LineRecord}
    (hindexed : P.books.Indexed) (h : entry ∈ unsentLines P orderId course) :
    P.line entry.1 = some entry.2 ∧ entry.2.orderId = orderId := by
  obtain ⟨hunfired, _⟩ := mem_filter.1 h
  obtain ⟨hidentified, _⟩ := mem_filter.1 hunfired
  obtain ⟨lineId, hlisted, hentry⟩ := mem_filterMap.1 hidentified
  obtain ⟨record, hrecord, rfl⟩ := map_eq_some_iff.1 hentry
  obtain ⟨record', hrecord', horder⟩ := (hindexed.mem_lineIndex orderId lineId).1 hlisted
  obtain rfl : record = record' := some.inj (hrecord.symm.trans hrecord')
  exact ⟨hrecord, horder⟩

/-- What is fired for an order is of an order that has not ended. -/
theorem Projection.Quits.not_ended_of_fireUnsent {stationId : Option StationId}
    {fired : OrderId} (h : P.Quits) (hindexed : P.books.Indexed)
    (hplan : env.fireUnsent ids P actor orderId stationId course = .ok plan)
    (hevent : event ∈ plan.events) (hresumes : event.payload.resumes = some fired) :
    fired ∉ P.hall.ended := by
  obtain ⟨ctx, lines, hfireable, hlines, rfl⟩ := fireUnsent_ok hplan
  obtain ⟨hpayload, _⟩ := mem_prepareAll hevent
  obtain ⟨line, hline, heq⟩ := mem_map.1 hpayload
  obtain ⟨entry, hentry, hfired⟩ := exists_of_mem_mapM hlines hline
  obtain ⟨_, horder, hstate, _⟩ := decideFire_ok hfired
  obtain ⟨hrecord, hon⟩ := mem_unsentLines hindexed hentry
  rw [← heq] at hresumes
  obtain rfl : line.orderId = fired := some.inj hresumes
  rw [horder]
  exact h.not_ended_of_fireable hrecord hstate (hon ▸ hfireable)

/-- A bill opens on an order that has not ended, unless it was refused. -/
theorem Projection.Quits.not_ended_of_sold (h : P.Quits) (hindexed : P.books.Indexed)
    (hsold : P.soldLineIds orderId ≠ []) (hrefused : P.staffDecision orderId ≠ some .rejected) :
    orderId ∉ P.hall.ended := by
  intro hended
  obtain ⟨line, hline⟩ := exists_mem_of_ne_nil _ hsold
  obtain ⟨sale, hsale, horder, hsold⟩ := (mem_soldLineIds hindexed).1 hline
  rw [(h orderId hended hrefused).unsold line sale hsale horder] at hsold
  contradiction

/-- No event takes up an order that has ended. -/
theorem plan_resumes {edge : Edge} (hedge : edge.projection = P) (hP : P.WellFormed bound)
    (hH : P.HallSound) (h : P.Quits) (hids : TakesIds ids bound plan.minted bound')
    (hkeeps : edge.KeepsEnded (env, command)) (hplan : command.plan env ids P = .ok plan)
    (hevent : event ∈ plan.events) (hresumes : event.payload.resumes = some orderId) :
    orderId ∉ P.hall.ended := by
  subst hedge
  have hwrites := plan_writes hplan event hevent
  cases hpayload : event.payload with
  | salesOrderLineAdded added =>
    rw [hpayload] at hwrites hresumes
    obtain rfl := some.inj hresumes
    rcases hwrites with ⟨actor, tableId, draft, hasNote, rfl⟩ | ⟨actor, choice, hasNote, rfl⟩ |
      ⟨deviceId, channel, tableId, lines, rfl⟩
    · obtain ⟨ctx, orderId, names, horder, _, rfl⟩ := addLine_ok hplan
      obtain rfl := mem_singleton.1 hevent
      obtain rfl := salesOrderLineAdded.inj hpayload
      exact hH.sound.trading tableId orderId horder
    · exact hkeeps
    · obtain ⟨businessDate, joins, prepare, _, rfl, rfl⟩ := openInboundOrder_ok hplan
      have hline : added ∈ inboundLines ids ⟨ids 0⟩ lines := by
        rcases mem_append.1 hevent with hopened | hjoined
        · rcases mem_cons.1 hopened with rfl | hmem
          · contradiction
          · obtain ⟨i, hi, rfl⟩ := mem_mapIdx.1 hmem
            exact salesOrderLineAdded.inj hpayload ▸ getElem_mem hi
        · obtain ⟨target, _, rfl⟩ := map_eq_some_iff.1 (mem_toList.1 hjoined)
          contradiction
      obtain ⟨i, hi, rfl⟩ := mem_mapIdx.1 hline
      exact hH.sound.not_ended_of_new (place_eq_none_of_le hP (hids.new 0))
  | salesOrderLineFired =>
    rw [hpayload] at hwrites
    rcases hwrites with ⟨actor, station, rfl⟩ | ⟨actor, order, station, rfl⟩ |
      ⟨actor, order, course, station, rfl⟩
    · obtain ⟨ctx, record, line, hline, hfireable, hfired, rfl⟩ := fireLine_ok hplan
      obtain ⟨_, horder, hstate, _⟩ := decideFire_ok hfired
      obtain rfl := mem_singleton.1 hevent
      obtain rfl : line.orderId = orderId := some.inj hresumes
      rw [horder]
      exact h.not_ended_of_fireable hline hstate hfireable
    · exact h.not_ended_of_fireUnsent hP.indexed (fireOrder_ok hplan) hevent hresumes
    · exact h.not_ended_of_fireUnsent hP.indexed (fireCourse_ok hplan) hevent hresumes
  | billingBillOpened opened =>
    rw [hpayload] at hwrites hresumes
    obtain rfl := some.inj hresumes
    rcases hwrites with ⟨actor, tableId, rfl⟩ | ⟨actor, rfl⟩ | ⟨actor, billId, parts, rfl⟩
    · obtain ⟨order, hpoints, horder⟩ := openBill_ok hplan
      obtain ⟨ctx, _, _, _, rfl⟩ := openBillForOrder_ok horder
      obtain rfl := mem_singleton.1 hevent
      obtain rfl := billingBillOpened.inj hpayload
      exact hH.sound.trading tableId order hpoints
    · obtain ⟨ctx, _, hsold, _, _⟩ := openBillForOrder_ok hplan
      exact h.not_ended_of_sold hP.indexed hsold hkeeps
    · obtain ⟨ctx, bill, rules, openings, payloads, hbill, hopen, _, _, rfl, rfl, rfl⟩ :=
        splitBill_ok hplan
      have hpart : opened.orderId = bill.orderId := by
        obtain ⟨hmem, _⟩ := mem_prepareAll hevent
        rw [hpayload] at hmem
        rcases mem_append.1 hmem with hopened | hsplit
        · obtain ⟨part, hpart, heq⟩ := mem_map.1 hopened
          obtain rfl := billingBillOpened.inj heq
          obtain ⟨i, hi, rfl⟩ := mem_mapIdx.1 hpart
          rfl
        · exact absurd (mem_singleton.1 hsplit) (by simp)
      rw [hpart]
      intro hended
      exact (h bill.orderId hended (hkeeps bill hbill)).closed billId bill.charge
        (charge_of_bill hbill) rfl hopen
  | _ =>
    rw [hpayload] at hresumes
    exact absurd hresumes (by simp [resumes])

/-- An event that ends an order leaves it ended. -/
theorem plan_ends (hP : P.WellFormed bound) (hH : P.HallSound)
    (hids : TakesIds ids bound plan.minted bound') (hplan : command.plan env ids P = .ok plan)
    (happly : plan.apply P = .ok P') (hevent : event ∈ plan.events)
    (hends : event.payload.ends = some orderId) : orderId ∈ P'.hall.ended := by
  have hwrites := plan_writes hplan event hevent
  have hrejects : ∀ actor reasonCodeId, command = .rejectInboundOrder actor orderId reasonCodeId →
      orderId ∈ P'.hall.ended := by
    rintro actor reasonCodeId rfl
    obtain ⟨ctx, _, rfl⟩ := rejectInboundOrder_ok hplan
    cases happly
    exact mem_ended_closeOrder
  cases hpayload : event.payload with
  | salesOrderRejectedByStaff rejected reasonCodeId =>
    rw [hpayload] at hwrites hends
    obtain rfl := some.inj hends
    obtain ⟨actor, hcommand⟩ := hwrites
    exact hrejects actor reasonCodeId hcommand
  | salesOrderClosed =>
    rw [hpayload] at hwrites hends
    obtain rfl := some.inj hends
    rcases hwrites with ⟨actor, tableId, rfl⟩ | ⟨actor, reasonCodeId, hcommand⟩
    · obtain ⟨ctx, payloads, _, _, rfl, rfl⟩ := releaseTable_ok hplan
      cases happly
      obtain ⟨hmem, _⟩ := mem_prepareAll hevent
      rw [hpayload] at hmem
      rcases mem_append.1 hmem with hclosed | hfreed
      · obtain ⟨order, horder, heq⟩ := map_eq_some_iff.1 (mem_toList.1 hclosed)
        obtain rfl := salesOrderClosed.inj heq
        rw [horder]
        exact mem_ended_closeOrder
      · exact absurd (mem_singleton.1 hfreed) (by simp)
    · exact hrejects actor reasonCodeId hcommand
  | salesTableMerged =>
    rw [hpayload] at hwrites hends
    obtain rfl := some.inj hends
    rcases hwrites with ⟨actor, rfl⟩ | ⟨deviceId, channel, tableId, lines, rfl⟩
    · obtain ⟨ctx, joins, payloads, _, hjoins, rfl, rfl⟩ := confirmInboundOrder_ok hplan
      cases happly
      obtain ⟨hmem, _⟩ := mem_prepareAll hevent
      rw [hpayload] at hmem
      rcases mem_cons.1 hmem with heq | hjoined
      · contradiction
      · obtain ⟨other, hother, heq⟩ := map_eq_some_iff.1 (mem_toList.1 hjoined)
        subst hother
        obtain ⟨_, _, _, _, hne, _⟩ := orderJoinedOnConfirm_there hH hjoins.symm
        exact mem_ended_mergeOrder hne
    · obtain ⟨businessDate, joins, prepare, hjoins, rfl, rfl⟩ := openInboundOrder_ok hplan
      cases happly
      rcases mem_append.1 hevent with hopened | hjoined
      · rcases mem_cons.1 hopened with rfl | hline
        · contradiction
        · obtain ⟨i, hi, rfl⟩ := mem_mapIdx.1 hline
          contradiction
      · obtain ⟨other, hother, rfl⟩ := map_eq_some_iff.1 (mem_toList.1 hjoined)
        subst hother
        obtain ⟨_, rfl⟩ := salesTableMerged.inj hpayload
        obtain ⟨_, _, hplace, _⟩ := orderJoinedOnArrival_some hH hjoins.symm
        refine mem_ended_mergeOrder ?_
        rintro rfl
        rw [place_eq_none_of_le hP (hids.new 0)] at hplace
        contradiction
  | _ =>
    rw [hpayload] at hends
    exact absurd hends (by simp [ends])

end Steps

/-! ## Histories -/

namespace Edge

variable {ids : IdSource} {edge edge' : Edge} {input : Env × Command}
  {inputs later : List (Env × Command)}

/-- A store whose ended orders have nothing left and are known to have ended. -/
structure Concluded (ids : IdSource) (edge : Edge) : Prop where
  wellFormed : edge.WellFormed ids
  hall : edge.projection.HallSound
  quits : edge.projection.Quits
  logged : ∀ event ∈ edge.log, ∀ orderId, event.payload.ends = some orderId →
    orderId ∈ edge.projection.hall.ended

theorem concluded_initial : initial.Concluded ids where
  wellFormed := wellFormed_initial
  hall := hallSound_initial
  quits := by
    intro orderId hended
    simp [initial, empty, hall] at hended
  logged := fun _ hevent => absurd hevent not_mem_nil

/-- A step adds events that take up no ended order, and leaves the ended ones ended. -/
theorem step_concluded (h : edge.Concluded ids) (hkeeps : edge.KeepsEnded input)
    (hstep : edge.step ids input = .ok edge') :
    edge'.Concluded ids ∧ edge.projection.hall.ended ⊆ edge'.projection.hall.ended ∧
      ∃ events, edge'.log = edge.log ++ events ∧ ∀ event ∈ events, ∀ orderId,
        event.payload.resumes = some orderId → orderId ∉ edge.projection.hall.ended := by
  have haccounted := step_accounted h.wellFormed hstep
  have hhosted := step_hosted h.wellFormed h.hall hstep
  obtain ⟨plan, projection, hplan, happly, _, rfl⟩ := (step_eq_ok ids).1 hstep
  have hids := takesIds ids edge plan.minted
  have hended := hhosted.step.ended_subset
  refine ⟨⟨haccounted.wellFormed h.wellFormed, hhosted.hallSound h.hall,
    plan_quits rfl h.wellFormed h.hall h.quits hids hkeeps hplan happly haccounted hhosted, ?_⟩,
    hended, plan.events, rfl, ?_⟩
  · intro event hevent orderId hends
    rcases mem_append.1 hevent with hbefore | hnow
    · exact hended (h.logged event hbefore orderId hends)
    · exact plan_ends h.wellFormed h.hall hids hplan happly hnow hends
  · intro event hevent orderId hresumes
    exact plan_resumes rfl h.wellFormed h.hall h.quits hids hkeeps hplan hevent hresumes

theorem concluded_of_run (hrun : Run ids KeepsEnded initial inputs edge) : edge.Concluded ids :=
  Run.invariant (I := Concluded ids)
    (fun _ _ _ h hkeeps hstep => (step_concluded h hkeeps hstep).1) hrun concluded_initial

end Edge

/-- An order that staff refused, that was closed or that was merged into another stays so: whatever
    is written later adds no line to it, fires none of its lines and opens no bill on it. -/
theorem ended_order_stays_ended {ids : IdSource} {inputs later : List (Env × Command)}
    {edge edge' : Edge} (hrun : Run ids KeepsEnded .initial inputs edge)
    (hlater : Run ids KeepsEnded edge later edge') (ending : Event)
    (hending : ending ∈ edge.log) (orderId : OrderId) (hends : ending.payload.ends = some orderId) :
    ∃ after, edge'.log = edge.log ++ after ∧
      ∀ event ∈ after, event.payload.resumes ≠ some orderId := by
  have hstart := concluded_of_run hrun
  have hinv : edge'.Concluded ids ∧ orderId ∈ edge'.projection.hall.ended ∧
      ∃ after, edge'.log = edge.log ++ after ∧
        ∀ event ∈ after, event.payload.resumes ≠ some orderId := by
    refine Run.invariant (I := fun edge' : Edge => edge'.Concluded ids ∧
        orderId ∈ edge'.projection.hall.ended ∧ ∃ after, edge'.log = edge.log ++ after ∧
          ∀ event ∈ after, event.payload.resumes ≠ some orderId) ?_ hlater
      ⟨hstart, hstart.logged ending hending orderId hends, [], by simp, by simp⟩
    rintro state input next ⟨hstate, hended, before, hbefore, hnone⟩ hkeeps hstep
    obtain ⟨hnext, hsubset, events, hevents, hother⟩ := step_concluded hstate hkeeps hstep
    refine ⟨hnext, hsubset hended, before ++ events, ?_, ?_⟩
    · rw [hevents, hbefore, append_assoc]
    · intro event hevent hresumes
      rcases mem_append.1 hevent with hmem | hmem
      · exact hnone event hmem hresumes
      · exact hother event hmem orderId hresumes hended
  exact hinv.2.2

namespace Trial

/-- The store with an item on its menu. -/
def menuEnv : Env :=
  { env with
    session :=
      { session with
        menu := ⟨[⟨⟨1⟩, ⟨"Pho"⟩, .few 5, ⟨1⟩, [], true⟩], []⟩ } }

/-- A table is seated and released. -/
def released : List Command := [.seatTable actor table, .releaseTable actor table]

/-- One of the item, for an order. -/
def addToOrder (orderId : OrderId) : Command :=
  .addLineToOrder actor orderId ⟨⟨1⟩, .one, [], none, none, false⟩ false

end Trial

/-- A line is added, by the order's own id, to an order that was closed with its table. -/
theorem closed_order_takes_line :
    ∃ edge edge' ending event,
      Run ids (fun _ _ => True) .initial (inputs released) edge ∧
      ending ∈ edge.log ∧ ending.payload.ends = some ⟨0⟩ ∧
      edge.step ids (menuEnv, addToOrder ⟨0⟩) = .ok edge' ∧
      edge'.log = edge.log ++ [event] ∧ event.payload.resumes = some ⟨0⟩ := by
  obtain ⟨edge, hrun, hedge⟩ : ∃ edge,
      Run ids (fun _ _ => True) .initial (inputs released) edge ∧
      ((edge.log.any fun ending => decide (ending.payload.ends = some ⟨0⟩)) &&
        succeedsWith (edge.step ids (menuEnv, addToOrder ⟨0⟩)) fun edge' =>
          edge'.log.getLast?.any fun event =>
            decide (edge'.log = edge.log ++ [event] ∧ event.payload.resumes = some ⟨0⟩)) = true :=
    run_of_after (by decide +kernel)
  obtain ⟨hended, hadded⟩ := Bool.and_eq_true_iff.1 hedge
  obtain ⟨ending, hending, hends⟩ := any_eq_true.1 hended
  obtain ⟨edge', hstep, hlast⟩ := exists_of_succeedsWith hadded
  obtain ⟨event, _, hevent⟩ := (any_eq_true _ _).1 hlast
  exact ⟨edge, edge', ending, event, hrun, hending, of_decide_eq_true hends, hstep,
    of_decide_eq_true hevent⟩

/-- The next party's line is on an order of its own. -/
theorem ended_order_stays_ended_released :
    ∃ edge edge' ending,
      Run ids KeepsEnded .initial (inputs released) edge ∧
      Run ids KeepsEnded edge (inputs [.seatTable actor table,
        .addLine actor table (line (dong 5 (by decide))) false]) edge' ∧
      ending ∈ edge.log ∧ ending.payload.ends = some ⟨0⟩ ∧
      ∃ after, edge'.log = edge.log ++ after ∧
        ∀ event ∈ after, event.payload.resumes ≠ some ⟨0⟩ := by
  have hallowed : ∀ (edge : Edge) (input : Env × Command),
      (input.2 matches .seatTable .. | .releaseTable .. | .addLine ..) = true →
        edge.KeepsEnded input := by
    rintro edge ⟨env, command⟩ hplain
    cases command <;> first | exact trivial | exact absurd hplain Bool.false_ne_true
  have hexecute : (execute (step ids)
      (fun _ input => input.2 matches .seatTable .. | .releaseTable .. | .addLine ..)
      (inputs released) .initial).any (fun edge =>
        (edge.log.any fun ending => decide (ending.payload.ends = some ⟨0⟩)) &&
          (execute (step ids)
            (fun _ input => input.2 matches .seatTable .. | .releaseTable .. | .addLine ..)
            (inputs [.seatTable actor table, .addLine actor table
              (line (dong 5 (by decide))) false]) edge).isSome) = true := by
    decide +kernel
  obtain ⟨edge, hafter, hedge⟩ := (any_eq_true _ _).1 hexecute
  obtain ⟨hended, hnext⟩ := Bool.and_eq_true_iff.1 hedge
  obtain ⟨ending, hending, hends⟩ := any_eq_true.1 hended
  obtain ⟨edge', hlater⟩ := isSome_iff_exists.1 hnext
  have hrun := (run_of_execute hafter).mono hallowed
  have hrun' := (run_of_execute hlater).mono hallowed
  exact ⟨edge, edge', ending, hrun, hrun', hending, of_decide_eq_true hends,
    ended_order_stays_ended hrun hrun' ending hending ⟨0⟩ (of_decide_eq_true hends)⟩

end PosFramework
