import PosFramework.Edge.Hall.Run
import PosFramework.Edge.Paid

set_option autoImplicit false

/-! # Tables that wait for a payment

A bill at a table is paid while the table waits for its payment and in no other state. A table waits
for every open bill that names it, in every history in which nobody takes the table over: a guest's
order takes it whatever is owed there, the rejection of an order gives it to another that owes
nothing, and the void of a paid bill gives it back to a party that has left. -/

namespace PosFramework

open Fallible Projection Trial Option Edge Transition

namespace Projection

variable {P : Projection}

/-- An open bill names the table. -/
def OwedAt (P : Projection) (tableId : TableId) : Prop :=
  ∃ billId bill, P.bill billId = some bill ∧ bill.state = .open ∧ bill.tableId = some tableId

theorem owedAt_of_owes {tableId : TableId} {billId : BillId} {tab : Tab}
    (howes : P.hall.Owes tableId billId tab) : P.OwedAt tableId := by
  obtain ⟨htab, hopen, htable⟩ := howes
  obtain ⟨bill, hbill, rfl⟩ := map_eq_some_iff.1 htab
  exact ⟨billId, bill, hbill, hopen, htable⟩

theorem tableState_closeOrder {orderId : OrderId} {tableId : TableId} :
    (P.closeOrder orderId).tableState tableId = P.tableState tableId := by
  obtain ⟨tableOrders, heq⟩ :=
    clearTableOf_eq { P with closedOrders := P.closedOrders.insert orderId } orderId
  rw [closeOrder, heq]
  rfl

/-- A table that waits and is given back waits on, unless to an order with no bill open. -/
theorem tableState_giveTableBack {tableId given : TableId}
    (hwaits : P.tableState tableId = .awaitingPayment)
    (hback : given = tableId → ∀ other, P.displacedAt given = some other →
      (P.latestBillIn other .open).isSome = true) :
    (P.giveTableBack given).tableState tableId = .awaitingPayment := by
  have hset : ∀ (Q : Projection) (state : TableState), Q.tableState tableId = .awaitingPayment →
      (given = tableId → state = .awaitingPayment) →
      (Q.setTable given state).tableState tableId = .awaitingPayment := by
    intro Q state hQ hstate
    have hread : (Q.setTable given state).tableState tableId =
        if tableId = given then state else Q.tableState tableId :=
      (congrFun (congrArg Hall.state hall_setTable) tableId).trans Hall.state_setState
    rw [hread]
    split
    next heq => exact hstate heq.symm
    next => exact hQ
  unfold giveTableBack
  cases hdisplaced : P.displacedAt given with
  | some other =>
    refine hset _ _ hwaits fun heq => ?_
    rw [if_pos (hback heq other hdisplaced)]
  | none =>
    by_cases hoccupied : (P.clearTable given).tableState given = .occupied
    · simp only [if_pos hoccupied]
      refine hset _ _ hwaits fun heq => ?_
      rw [heq, show (P.clearTable tableId).tableState tableId = P.tableState tableId from rfl,
        hwaits] at hoccupied
      contradiction
    · simp only [if_neg hoccupied]
      exact hwaits

end Projection

namespace Edge

/-- Nobody takes over a table that an open bill names: no guest's order comes to it; where the order
    the table points at is rejected, the order it goes back to has an open bill as well; and no paid
    bill is voided there once its order has no open one. -/
def LeavesWaiting (edge : Edge) (input : Env × Command) : Prop :=
  let P := edge.projection
  match input.2 with
  | .openInboundOrder _ _ (some tableId) _ => ¬ P.OwedAt tableId
  | .rejectInboundOrder _ orderId _ =>
    ∀ tableId, P.tableForOrder orderId = some tableId → P.OwedAt tableId →
      ∀ other, (P.decided orderId .rejected).displacedAt tableId = some other →
        (P.latestBillIn other .open).isSome = true
  | .voidSettledBill _ _ billId _ _ =>
    ∀ paid tableId, P.bill billId = some paid → paid.tableId = some tableId →
      (∀ other bill, P.bill other = some bill → bill.orderId = paid.orderId →
        bill.state ≠ .open) → ¬ P.OwedAt tableId
  | _ => True

variable {ids : IdSource} {edge edge' : Edge} {input : Env × Command}
    {inputs : List (Env × Command)}

/-- The rejection of an order, in the terms of the hall. -/
theorem LeavesWaiting.reject {env : Env} {actor : Actor} {orderId : OrderId}
    {reasonCodeId : ReasonCodeId} {plan : Plan} {taken : Nat → Nat} {projection : Projection}
    (hleaves : edge.LeavesWaiting (env, .rejectInboundOrder actor orderId reasonCodeId))
    (hW : edge.projection.hall.Waits)
    (hplan : env.rejectInboundOrder taken edge.projection actor orderId reasonCodeId = .ok plan)
    (happly : plan.apply edge.projection = .ok projection) {tableId : TableId} {billId : BillId}
    {tab : Tab} (howes : edge.projection.hall.Owes tableId billId tab) :
    projection.hall.state tableId = .awaitingPayment := by
  obtain ⟨ctx, _, rfl⟩ := Env.rejectInboundOrder_ok hplan
  cases happly
  have hwaits : edge.projection.tableState tableId = .awaitingPayment :=
    hW.awaits tableId billId tab howes
  show (Projection.closeOrder _ orderId).tableState tableId = _
  rw [tableState_closeOrder, recordStaffDecision_rejected]
  split
  next given hgiven =>
    refine tableState_giveTableBack hwaits ?_
    rintro rfl other hdisplaced
    exact hleaves given hgiven (owedAt_of_owes howes) other hdisplaced
  next => exact hwaits

theorem LeavesWaiting.hall (hleaves : edge.LeavesWaiting input)
    (hW : edge.projection.hall.Waits) (hstep : edge.step ids input = .ok edge') :
    edge.projection.hall.LeavesWaiting edge'.projection.hall input.2 := by
  obtain ⟨plan, projection, hplan, happly, _, rfl⟩ := (step_eq_ok ids).1 hstep
  obtain ⟨env, command⟩ := input
  cases command with
  | openInboundOrder deviceId channel tableId lines =>
    cases tableId with
    | none => exact trivial
    | some => exact fun billId tab howes => hleaves (owedAt_of_owes howes)
  | rejectInboundOrder =>
    exact fun tableId billId tab howes => hleaves.reject hW hplan happly howes
  | voidSettledBill actor scope billId reasonCodeId approval =>
    obtain ⟨_, ctx, bill, _, _, _, hbill, hsettled, _⟩ := Env.voidSettledBill_ok hplan
    intro paid hpaid hlast tableId htable other tab howes
    have hread : edge.projection.hall.tab billId = some bill.tab := by
      show (edge.projection.bill billId).map _ = _
      rw [hbill]
      rfl
    obtain rfl := some.inj (hpaid.symm.trans hread)
    refine hleaves bill tableId hbill htable ?_ (owedAt_of_owes howes)
    intro another record hrecord horder hopen
    have htab : edge.projection.hall.tab another = some record.tab := by
      show (edge.projection.bill another).map _ = _
      rw [hrecord]
      rfl
    refine hlast another record.tab htab ?_ horder hopen
    -- the bill itself is paid, so it is not the open one
    rintro ⟨⟩
    obtain rfl := some.inj (hrecord.symm.trans hbill)
    rw [hsettled] at hopen
    contradiction
  | _ => exact trivial

theorem waits_of_run (hrun : Run ids LeavesWaiting initial inputs edge) :
    edge.projection.hall.Waits := by
  have hinv : (edge.WellFormed ids ∧ edge.projection.HallSound) ∧ edge.projection.hall.Waits := by
    refine Run.invariant (I := fun edge : Edge =>
        (edge.WellFormed ids ∧ edge.projection.HallSound) ∧ edge.projection.hall.Waits) ?_ hrun
      ⟨⟨wellFormed_initial, hallSound_initial⟩, ⟨fun _ _ _ h => ?_, fun _ _ _ _ _ h => ?_⟩⟩
    · rintro edge input edge' ⟨⟨hedge, hH⟩, hW⟩ hleaves hstep
      have hhosted := step_hosted hedge hH hstep
      exact ⟨⟨(step_accounted hedge hstep).wellFormed hedge, hhosted.hallSound hH⟩,
        hhosted.step.waits hW (hleaves.hall hW hstep)⟩
    all_goals
      obtain ⟨htab, _⟩ := h
      simp [initial, empty, hall, bill] at htab
  exact hinv.2

end Edge

/-- An open bill at a table can be paid: its table waits for the payment. -/
theorem open_bill_table_waits {ids : IdSource} {inputs : List (Env × Command)} {edge : Edge}
    (hrun : Run ids LeavesWaiting .initial inputs edge) (billId : BillId)
    (bill : BillRecord) (hbill : edge.projection.bill billId = some bill)
    (hopen : bill.state = .open) (tableId : TableId) (htable : bill.tableId = some tableId) :
    edge.projection.tableState tableId = .awaitingPayment := by
  have htab : edge.projection.hall.tab billId = some bill.tab := by
    show (edge.projection.bill billId).map _ = _
    rw [hbill]
    rfl
  exact (waits_of_run hrun).awaits tableId billId bill.tab ⟨htab, hopen, htable⟩

namespace Trial

/-- A guest's own order for a table, from its code. -/
def guestOrder : Command := .openInboundOrder ⟨1⟩ (.fromKnown .qr) (some table)
  [(⟨⟨1⟩, ⟨"Pho"⟩, .one, .few 5, .few 5, ⟨1⟩, TaxRate.tenth.asRatio, [], [], false⟩, false)]

end Trial

/-- A guest's order comes to the table of an open bill: the table is occupied, and the bill, still
    open, is refused its payment. -/
theorem open_bill_table_taken_over :
    ∃ edge bill, Run ids (fun _ _ => True) .initial
        (inputs (billed ++ [guestOrder])) edge ∧
      edge.projection.bill ⟨5⟩ = some bill ∧ bill.state = .open ∧
      bill.tableId = some table ∧ edge.projection.tableState table = .occupied ∧
      (edge.step ids (env, pay)).isOk = false := by
  obtain ⟨edge, hrun, hedge⟩ : ∃ edge, Run ids (fun _ _ => True) .initial
      (inputs (billed ++ [guestOrder])) edge ∧
      ((edge.projection.bill ⟨5⟩).any fun bill => decide (bill.state = .open ∧
        bill.tableId = some table ∧ edge.projection.tableState table = .occupied ∧
        (edge.step ids (env, pay)).isOk = false)) = true :=
    run_of_after (by decide +kernel)
  obtain ⟨bill, hbill, hproperty⟩ := (any_eq_true _ _).1 hedge
  exact ⟨edge, bill, hrun, hbill, of_decide_eq_true hproperty⟩

theorem open_bill_table_waits_billed :
    ∃ edge bill, Run ids LeavesWaiting .initial (inputs billed) edge ∧
      edge.projection.bill ⟨5⟩ = some bill ∧ bill.state = .open ∧
      bill.tableId = some table ∧
      edge.projection.tableState table = .awaitingPayment := by
  have hexecute : (execute (step ids)
      (fun _ input => input.2.opensBill || input.2.leavesHall || (input.2 matches .seatTable ..))
      (inputs billed) .initial).any (fun edge =>
        (edge.projection.bill ⟨5⟩).any fun bill =>
          decide (bill.state = .open ∧ bill.tableId = some table)) = true := by
    decide +kernel
  obtain ⟨edge, hafter, hedge⟩ := (any_eq_true _ _).1 hexecute
  have hrun : Run ids LeavesWaiting .initial (inputs billed) edge := by
    refine (run_of_execute hafter).mono ?_
    rintro edge ⟨env, command⟩ hquiet
    cases command <;> first | exact trivial | exact absurd hquiet Bool.false_ne_true
  obtain ⟨bill, hbill, hproperty⟩ := (any_eq_true _ _).1 hedge
  obtain ⟨hopen, htable⟩ := of_decide_eq_true hproperty
  exact ⟨edge, bill, hrun, hbill, hopen, htable,
    open_bill_table_waits hrun ⟨5⟩ bill hbill hopen table htable⟩

end PosFramework
