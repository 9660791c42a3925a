import PosFramework.Core.Billing.Reconcile
import PosFramework.Edge.Room

set_option autoImplicit false

/-! # What was paid for

A settle assembles its bill from the lines the bill covers, and records what they came to. A line is
voided, or set to another quantity, by its own state alone, whatever became of the bill it is on: a
paid bill's lines stay as they were paid for exactly as long as nobody does that to one of them. -/

namespace PosFramework

open Fallible Projection List Function Option Edge Transition

/-! ## What a step leaves of a paid bill -/

namespace Ledger

variable {L L' : Ledger} {command : Command} {charges : List (BillId × Charge)}

theorem sale_sellAll {sales : List (OrderLineId × Sale)} {line : OrderLineId}
    (hline : line ∉ sales.map (·.1)) : (L.sellAll sales).sale line = L.sale line := by
  induction sales generalizing L with
  | nil => rfl
  | cons first rest ih =>
    refine (ih (not_mem_of_not_mem_cons hline)).trans ?_
    exact update_of_ne (ne_of_not_mem_cons hline) ..

theorem charge_issueAll {bill : BillId}
    (hbill : bill ∉ charges.map (·.1)) : (L.issueAll charges).charge bill = L.charge bill := by
  induction charges generalizing L with
  | nil => rfl
  | cons first rest ih =>
    refine (ih (not_mem_of_not_mem_cons hbill)).trans ?_
    exact update_of_ne (ne_of_not_mem_cons hbill) ..

theorem sale_issueAll : (L.issueAll charges).sale = L.sale := by
  induction charges generalizing L with
  | nil => rfl
  | cons first rest ih => exact ih

/-- A bill that is not open stays as it is, or is a paid one that is voided. -/
theorem Step.closed_charge (hstep : L.Step command L') {bill : BillId} {charge : Charge}
    (hcharge : L.charge bill = some charge) (hclosed : charge.state ≠ .open) :
    L'.charge bill = some charge ∨
      charge.state = .settled ∧ L'.charge bill = some { charge with state := .voided } := by
  -- a bill that is open, or new, is another one
  have hopen : ∀ {other : BillId} {c : Charge}, L.charge other = some c → c.state = .open →
      bill ≠ other := by
    rintro other c hc hstate rfl
    rw [hcharge] at hc
    obtain rfl := some.inj hc
    exact hclosed hstate
  have hnew : ∀ {other : BillId}, L.charge other = none → bill ≠ other := by
    rintro other hnone rfl
    rw [hcharge] at hnone
    contradiction
  cases hstep with
  | quiet _ | addLine _ _ | voidLine _ | setLineQuantity _ _ | confirm | confirmAndJoin _ =>
    exact .inl hcharge
  | arrive _ | arriveAndJoin _ =>
    refine .inl ?_
    show (L.sellAll _).charge bill = _
    rw [charge_sellAll, hcharge]
  | openBill _ hopens =>
    exact .inl ((update_of_ne (hnew hopens.new) ..).trans hcharge)
  | splitBill hsplits =>
    refine .inl ?_
    rw [charge_issueAll]
    · exact (update_of_ne (hopen hsplits.source hsplits.isOpen) ..).trans hcharge
    · intro hmem
      obtain ⟨entry, hentry, heq⟩ := mem_map.1 hmem
      exact hnew (hsplits.new entry hentry) heq.symm
  | mergeBills hmerges =>
    refine .inl ((update_of_ne (hopen hmerges.target hmerges.isOpen) ..).trans ?_)
    rw [charge_restateAll, hcharge]
    intro hmem
    obtain ⟨c, hc, hstate, _⟩ := hmerges.absorbedOpen bill hmem
    exact hopen hc hstate rfl
  | settleBill hc hstate | voidBill hc hstate =>
    exact .inl ((update_of_ne (hopen hc hstate) ..).trans hcharge)
  | @voidSettledBill _ _ other _ _ c hc hstate =>
    by_cases heq : bill = other
    · subst heq
      obtain rfl := some.inj (hcharge.symm.trans hc)
      exact .inr ⟨hstate, update_self ..⟩
    · exact .inl ((update_of_ne heq ..).trans hcharge)

end Ledger

/-- The line a command voids or sets to another quantity. -/
def Command.amends : Command → Option OrderLineId
  | voidLine _ lineId _ _ => some lineId
  | setLineQuantity _ lineId _ => some lineId
  | _ => none

namespace Ledger

variable {L L' : Ledger} {command : Command}

/-- A line that a bill holds stays as it was sold, unless the command is about that line. -/
theorem Step.held_sale (hL : L.Sound) (hstep : L.Step command L') {bill : BillId}
    {line : OrderLineId} (hheld : line ∈ L.held bill) (hamends : command.amends ≠ some line) :
    L'.sale line = L.sale line := by
  obtain ⟨charge, hcharge, hactive, hline⟩ := hheld
  obtain ⟨sale, hsale, horder⟩ := (hL.holds bill charge hcharge hactive).on_order line hline
  have hsold : ∀ {other : OrderLineId}, L.sale other = none → line ≠ other := by
    rintro other hnone rfl
    rw [hsale] at hnone
    contradiction
  have hnewLines : ∀ {sales : List (OrderLineId × Sale)},
      (∀ entry ∈ sales, L.sale entry.1 = none) → line ∉ sales.map (·.1) := by
    intro sales hnew hmem
    obtain ⟨entry, hentry, heq⟩ := mem_map.1 hmem
    exact hsold (hnew entry hentry) heq.symm
  -- the lines that move to another order are of an order without a bill
  have hmove : ∀ {M : Ledger} {merged target : OrderId}, M.sale line = L.sale line →
      L.Unbilled merged → (M.move merged target).sale line = L.sale line := by
    intro M merged target hsame hfree
    show (M.sale line).map _ = _
    rw [hsame, hsale, map_some, if_neg]
    rw [horder]
    exact hfree bill charge hcharge hactive
  cases hstep with
  | quiet _ | confirm => rfl
  | addLine _ hnew => exact update_of_ne (hsold hnew) ..
  | voidLine _ | setLineQuantity _ _ =>
    exact update_of_ne (fun heq => hamends (congrArg some heq.symm)) ..
  | arrive harrives => exact sale_sellAll (hnewLines harrives.new)
  | arriveAndJoin harrives =>
    exact hmove (sale_sellAll (hnewLines harrives.new)) harrives.unbilled
  | confirmAndJoin hfree => exact hmove rfl hfree
  | openBill _ _ | settleBill _ _ | voidBill _ _ | voidSettledBill _ _ => rfl
  | splitBill _ => exact congrFun sale_issueAll line
  | mergeBills _ => exact congrFun sale_restateAll line

/-- A bill that was paid for some lines: it still covers them as they were sold, or it was
    voided. -/
def PaidFor (L : Ledger) (bill : BillId) (lines : List OrderLineId)
    (sold : OrderLineId → Option Sale) : Prop :=
  ∃ charge, L.charge bill = some charge ∧
    (charge.state = .voided ∨
      charge.state = .settled ∧ charge.lines = lines ∧ ∀ line ∈ lines, L.sale line = sold line)

theorem PaidFor.step {bill : BillId} {lines : List OrderLineId} {sold : OrderLineId → Option Sale}
    (hL : L.Sound) (hpaid : L.PaidFor bill lines sold) (hstep : L.Step command L')
    (hamends : ∀ line charge, L.charge bill = some charge → charge.state = .settled →
      line ∈ charge.lines → command.amends ≠ some line) : L'.PaidFor bill lines sold := by
  obtain ⟨charge, hcharge, hvoided | ⟨hsettled, hlines, hsold⟩⟩ := hpaid
  · rcases hstep.closed_charge hcharge (by rw [hvoided]; decide) with hsame | ⟨hsettled, _⟩
    · exact ⟨charge, hsame, .inl hvoided⟩
    · rw [hvoided] at hsettled
      contradiction
  · rcases hstep.closed_charge hcharge (by rw [hsettled]; decide) with hsame | ⟨_, hvoided⟩
    · refine ⟨charge, hsame, .inr ⟨hsettled, hlines, fun line hline => ?_⟩⟩
      have hmem : line ∈ charge.lines := hlines ▸ hline
      rw [hstep.held_sale hL ⟨charge, hcharge, .inr hsettled, hmem⟩
        (hamends line charge hcharge hsettled hmem), hsold line hline]
    · exact ⟨_, hvoided, .inl rfl⟩

end Ledger

/-! ## What a settle records -/

namespace Projection

variable {P P' : Projection} {shift : Option ShiftId}

theorem settled_updateShift
    {change : ShiftRecord → Except DomainError ShiftRecord}
    (h : P.updateShift shift change = .ok P') : P'.settled = P.settled := by
  unfold updateShift at h
  split at h
  · cases h
    rfl
  · split at h
    · cases h
      rfl
    · simp only [bind_eq_ok, pure_eq_ok] at h
      obtain ⟨_, _, rfl⟩ := h
      rfl

/-- A settle leaves its receipt. -/
theorem foldSettled_receipt {settled : BillingBillSettled}
    {payments : List Payment} {ctx : DecisionCtx} {cashTaken : Money}
    (h : Env.foldSettled P settled shift payments ctx cashTaken = .ok P') :
    P'.settled[settled.billId]? = some (.of settled ctx.businessDate ctx.now) := by
  simp only [Env.foldSettled, foldSettle, recordSettleShift, recordShiftSale, collectTaxComponents,
    collectCash, bind_eq_ok] at h
  obtain ⟨tendered, _, folded, ⟨counted, _, sold, _, htax⟩, hcash⟩ := h
  rw [settled_updateShift hcash, settled_updateShift htax, recordSettled, Keyed.get_insert,
    if_pos rfl]

/-- The sold lines a bill covers, with their quantities and totals. -/
def soldCovered (P : Projection) (bill : BillRecord) : List (OrderLineId × Quantity × Money) :=
  (P.coveredLines bill).filterMap fun lineId =>
    ((P.line lineId).filter (·.isSold)).map fun record =>
      (lineId, record.quantity, record.lineTotal)

/-- Bills that name the same lines, sold alike, cover the same. -/
theorem soldCovered_congr {bill bill' : BillRecord} (hnamed : bill.orderLineIds ≠ [])
    (hlines : bill'.orderLineIds = bill.orderLineIds)
    (hsales : ∀ line ∈ bill.orderLineIds, P'.ledger.sale line = P.ledger.sale line) :
    P'.soldCovered bill' = P.soldCovered bill := by
  rw [soldCovered, soldCovered, coveredLines, coveredLines, hlines, if_neg hnamed, if_neg hnamed]
  refine filterMap_congr fun line hline => ?_
  -- what is read of a line is read of its sale
  have hread : ∀ Q : Projection,
      (((Q.line line).filter (·.isSold)).map fun record =>
        (line, record.quantity, record.lineTotal)) =
        ((Q.ledger.sale line).filter (·.sold)).map fun sale =>
          (line, sale.quantity, sale.lineTotal) := by
    intro Q
    rw [sale_ledger]
    cases Q.line line with
    | none => rfl
    | some record =>
      by_cases hsold : record.isSold = true <;> simp [hsold, LineRecord.sale, filter_some]
  rw [hread P, hread P', hsales line hline]

end Projection

variable {approval : Option Approval} {scope : TillScope} {billId : BillId} {hasBuyer : Bool}
  {ids : IdSource} {env : Env}

/-- What a settle takes its totals from, and what it leaves. -/
theorem settleBill_records {ids : Nat → Nat} {P P' : Projection} {actor : Actor}
    {payments : List Payment} {plan : Plan}
    (hplan : env.settleBill ids P actor scope billId payments hasBuyer approval = .ok plan)
    (happly : plan.apply P = .ok P') :
    ∃ bill receipt, P.bill billId = some bill ∧ bill.state = .open ∧
      P'.settled[billId]? = some receipt ∧
      P.soldTotal bill =
        receipt.subtotal.minor +
          if env.session.pricesIncludeTax then receipt.taxTotal.minor else 0 := by
  obtain ⟨start, ctx, drawer, proved, receiptNumber, reductionTotal, captured, taken, settled,
    payloads, _, hproved, _, rfl, _, _, rfl⟩ := Env.settleBill_ok hplan
  obtain ⟨bill, hbill, hopen, _, horder, htotals, _⟩ := Env.proveSettle_ok hproved
  refine ⟨bill, _, hbill, hopen, foldSettled_receipt happly, ?_⟩
  simp only [billSnapshot, bind_eq_ok, pure_eq_ok] at horder
  obtain ⟨bases, hbases, horder⟩ := horder
  obtain ⟨a⟩ := assembled_of_ok htotals
  have hquoted : a.quoted.minor = P.soldTotal bill := by
    rw [(quotedSubtotal_eq_ok a.quoted_ok).2.2, ← horder]
    exact classBases_total hbases
  have hsubtotal : (if env.session.pricesIncludeTax then a.quoted.checkedSub a.taxed.taxTotal
      else .ok a.quoted) = .ok proved.totals.subtotal := a.subtotal_ok
  show P.soldTotal bill = proved.totals.subtotal.minor +
    if env.session.pricesIncludeTax then proved.totals.taxTotal.minor else 0
  rw [← hquoted, a.taxTotal_eq]
  split at hsubtotal
  · next hinclude =>
    rw [Money.checkedSub_eq_ok] at hsubtotal
    rw [if_pos hinclude]
    omega
  · next hinclude =>
    rw [if_neg hinclude, ← Except.ok.inj hsubtotal, Int.add_zero]

/-! ## Runs -/

/-- Nobody voids a line of a paid bill, or sets its quantity. -/
def Edge.KeepsPaidLines (edge : Edge) (input : Env × Command) : Prop :=
  ∀ billId bill line, edge.projection.bill billId = some bill → bill.state = .settled →
    line ∈ edge.projection.coveredLines bill → input.2.amends ≠ some line

/-- As long as nobody amends a line of a paid bill, a paid bill covers what it was paid for, and
    that comes to the subtotal its settle recorded. -/
theorem paid_lines_unchanged {before after : List (Env × Command)}
    {start paid edge : Edge} {actor : Actor} {payments : List Payment} {bill : BillRecord}
    (hbefore : Run ids (fun _ _ => True) .initial before start)
    (hsettle : start.step ids (env, .settleBill actor scope billId payments hasBuyer approval) =
      .ok paid)
    (hafter : Run ids KeepsPaidLines paid after edge)
    (hbill : edge.projection.bill billId = some bill) (hsettled : bill.state = .settled) :
    ∃ assembled receipt, start.projection.bill billId = some assembled ∧
      paid.projection.settled[billId]? = some receipt ∧
      edge.projection.soldCovered bill = start.projection.soldCovered assembled ∧
      edge.projection.soldTotal bill =
        receipt.subtotal.minor +
          if env.session.pricesIncludeTax then receipt.taxTotal.minor else 0 := by
  have hstart : start.WellFormed ids := wellFormed_of_run hbefore
  have haccounted := step_accounted hstart hsettle
  obtain ⟨plan, P', hplan, happly, _, rfl⟩ := (step_eq_ok ids).1 hsettle
  obtain ⟨assembled, receipt, hassembled, hopen, hreceipt, htotal⟩ :=
    settleBill_records hplan happly
  have hpaid : P'.ledger.PaidFor billId assembled.orderLineIds start.projection.ledger.sale := by
    obtain ⟨charge, hcharge, _, heq⟩ := haccounted.step.of_settleBill
    obtain rfl := some.inj ((charge_of_bill hassembled).symm.trans hcharge)
    rw [show P'.ledger = _ from heq]
    exact ⟨_, update_self .., .inr ⟨rfl, rfl, fun line _ => rfl⟩⟩
  -- every later command leaves the bill paid for what it was paid for, or voids it
  have hinv : edge.WellFormed ids ∧
      edge.projection.ledger.PaidFor billId assembled.orderLineIds
        start.projection.ledger.sale := by
    refine Run.invariant (I := fun edge : Edge => edge.WellFormed ids ∧
      edge.projection.ledger.PaidFor billId assembled.orderLineIds start.projection.ledger.sale) ?_
      hafter ⟨haccounted.wellFormed hstart, hpaid⟩
    rintro edge input edge' ⟨hedge, hpaid⟩ hkeeps hstep
    have hone := step_accounted hedge hstep
    refine ⟨hone.wellFormed hedge, hpaid.step hedge.sound hone.step
      fun line charge hcharge hstate hline => ?_⟩
    obtain ⟨record, hrecord, rfl⟩ := map_eq_some_iff.1 hcharge
    refine hkeeps billId record line hrecord hstate ?_
    rw [coveredLines_of_active hedge hrecord (.inr hstate)]
    exact hline
  obtain ⟨hedge, charge, hcharge, hvoided | ⟨_, hlines, hsales⟩⟩ := hinv
  · obtain rfl := some.inj ((charge_of_bill hbill).symm.trans hcharge)
    rw [show bill.charge.state = bill.state from rfl, hsettled] at hvoided
    contradiction
  · obtain rfl := some.inj ((charge_of_bill hbill).symm.trans hcharge)
    have hnamed : assembled.orderLineIds ≠ [] :=
      (hstart.sound.holds billId _ (charge_of_bill hassembled) (.inl hopen)).nonempty
    refine ⟨assembled, receipt, hassembled, hreceipt,
      soldCovered_congr hnamed hlines hsales, ?_⟩
    rw [← htotal, soldTotal_eq_total hedge hbill (.inr hsettled),
      soldTotal_eq_total hstart hassembled (.inl hopen),
      show bill.orderLineIds = assembled.orderLineIds from hlines]
    exact Ledger.total_congr hsales

namespace Trial

/-- A party orders and asks for the bill. -/
def billed : List Command :=
  [.seatTable actor table,
    .addLine actor table (line (.few 5)) false,
    .openBill actor table]

/-- The party pays what it ordered and the tax on it. -/
def pay : Command :=
  .settleBill actor ⟨none, none⟩ ⟨5⟩
    [⟨.cash, .few 6, .few 6, .few 0⟩] false none

end Trial

/-- The only line of a paid bill is voided: the bill is still paid, for a line it no longer has. -/
theorem paid_line_voided :
    ∃ start paid edge assembled bill receipt,
      Run Trial.ids (fun _ _ => True) .initial (Trial.inputs Trial.billed) start ∧
      start.step Trial.ids (Trial.env, Trial.pay) = .ok paid ∧
      paid.step Trial.ids (Trial.env, .voidLine Trial.actor ⟨3⟩ Trial.reason none) = .ok edge ∧
      start.projection.bill ⟨5⟩ = some assembled ∧ edge.projection.bill ⟨5⟩ = some bill ∧
      edge.projection.settled[(⟨5⟩ : BillId)]? = some receipt ∧ bill.state = .settled ∧
      edge.projection.soldCovered bill ≠ start.projection.soldCovered assembled ∧
      edge.projection.soldTotal bill ≠ receipt.subtotal.minor := by
  obtain ⟨start, hrun, hstart⟩ : ∃ start,
      Run Trial.ids (fun _ _ => True) .initial (Trial.inputs Trial.billed) start ∧
      (succeedsWith (start.step Trial.ids (Trial.env, Trial.pay)) fun paid =>
        succeedsWith (paid.step Trial.ids (Trial.env, .voidLine Trial.actor ⟨3⟩ Trial.reason none))
          fun edge =>
            (start.projection.bill ⟨5⟩).any fun assembled =>
              (edge.projection.bill ⟨5⟩).any fun bill =>
              (edge.projection.settled[(⟨5⟩ : BillId)]?).any fun receipt =>
                decide (bill.state = .settled ∧
                  edge.projection.soldCovered bill ≠ start.projection.soldCovered assembled ∧
                  edge.projection.soldTotal bill ≠ receipt.subtotal.minor)) = true :=
    Trial.run_of_after (by decide +kernel)
  obtain ⟨paid, hpaid, hafter⟩ := exists_of_succeedsWith hstart
  obtain ⟨edge, hedge, hlast⟩ := exists_of_succeedsWith hafter
  obtain ⟨assembled, hassembled, hlast⟩ := (any_eq_true _ _).1 hlast
  obtain ⟨bill, hbill, hlast⟩ := (any_eq_true _ _).1 hlast
  obtain ⟨receipt, hreceipt, hproperty⟩ := (any_eq_true _ _).1 hlast
  exact ⟨start, paid, edge, assembled, bill, receipt, hrun, hpaid, hedge, hassembled,
    hbill, hreceipt,
    of_decide_eq_true hproperty⟩

/-- The table is cleaned after the party paid, and their bill is for what they paid. -/
theorem paid_lines_unchanged_billed :
    ∃ start paid edge bill,
      Run Trial.ids (fun _ _ => True) .initial (Trial.inputs Trial.billed) start ∧
      start.step Trial.ids (Trial.env, Trial.pay) = .ok paid ∧
      Run Trial.ids KeepsPaidLines paid
        (Trial.inputs [.cleanTable Trial.actor Trial.table]) edge ∧
      edge.projection.bill ⟨5⟩ = some bill ∧ bill.state = .settled ∧
      ∃ assembled receipt, start.projection.bill ⟨5⟩ = some assembled ∧
        paid.projection.settled[(⟨5⟩ : BillId)]? = some receipt ∧
        edge.projection.soldCovered bill = start.projection.soldCovered assembled ∧
        edge.projection.soldTotal bill = receipt.subtotal.minor + 0 := by
  obtain ⟨start, hrun, hstart⟩ : ∃ start,
      Run Trial.ids (fun _ _ => True) .initial (Trial.inputs Trial.billed) start ∧
      (succeedsWith (start.step Trial.ids (Trial.env, Trial.pay)) fun paid =>
        succeedsWith (paid.step Trial.ids (Trial.env, .cleanTable Trial.actor Trial.table))
          fun edge =>
          (edge.projection.bill ⟨5⟩).any fun bill => decide (bill.state = .settled)) = true :=
    Trial.run_of_after (by decide +kernel)
  obtain ⟨paid, hpaid, hafter⟩ := exists_of_succeedsWith hstart
  obtain ⟨edge, hedge, hlast⟩ := exists_of_succeedsWith hafter
  obtain ⟨bill, hbill, hsettled⟩ := (any_eq_true _ _).1 hlast
  have hclean : Run Trial.ids KeepsPaidLines paid
      (Trial.inputs [.cleanTable Trial.actor Trial.table]) edge :=
    .cons (fun _ _ _ _ _ _ => by simp [Command.amends]) hedge (.nil edge)
  exact ⟨start, paid, edge, bill, hrun, hpaid, hclean, hbill, of_decide_eq_true hsettled,
    paid_lines_unchanged hrun hpaid hclean hbill (of_decide_eq_true hsettled)⟩

/-- The bill is as it was, or it was paid and is voided. -/
def Ledger.KeepsClosed (L : Ledger) (bill : BillId) (charge : Charge) : Prop :=
  L.charge bill = some charge ∨
    charge.state = .settled ∧ L.charge bill = some { charge with state := .voided }

/-- A bill that was paid, voided, split or merged is never open again, nor for other lines. -/
theorem closed_bill_stays {allowed : Edge → Env × Command → Prop}
    {inputs later : List (Env × Command)} {start edge : Edge} {bill : BillId} {charge : Charge}
    (hrun : Run ids allowed .initial inputs start) (hlater : Run ids allowed start later edge)
    (hcharge : start.projection.ledger.charge bill = some charge) (hclosed : charge.state ≠ .open) :
    edge.projection.ledger.KeepsClosed bill charge := by
  refine (Run.invariant (I := fun edge : Edge => edge.WellFormed ids ∧
    edge.projection.ledger.KeepsClosed bill charge) ?_ hlater
      ⟨wellFormed_of_run hrun, .inl hcharge⟩).2
  rintro edge input edge' ⟨hedge, hkept⟩ _ hstep
  have hone := step_accounted hedge hstep
  refine ⟨hone.wellFormed hedge, ?_⟩
  rcases hkept with hsame | ⟨hsettled, hvoided⟩
  · exact hone.step.closed_charge hsame hclosed
  · rcases hone.step.closed_charge hvoided (by simp) with hsame | ⟨hpaid, _⟩
    · exact .inr ⟨hsettled, hsame⟩
    · contradiction

theorem closed_bill_stays_paid :
    ∃ start edge : Edge, start.step Trial.ids
      (Trial.env, .cleanTable Trial.actor Trial.table) = .ok edge ∧
      edge.projection.ledger.KeepsClosed ⟨5⟩ ⟨⟨0⟩, .settled, [⟨3⟩]⟩ := by
  obtain ⟨start, edge, hrun, hstep, hcharge⟩ := @Trial.exists_step (Trial.billed ++ [Trial.pay])
    (.cleanTable Trial.actor Trial.table)
    (fun start _ => start.projection.ledger.charge ⟨5⟩ = some ⟨⟨0⟩, .settled, [⟨3⟩]⟩)
      (by decide +kernel)
  exact ⟨start, edge, hstep, closed_bill_stays hrun (.cons trivial hstep (.nil edge))
    (of_decide_eq_true hcharge) (by decide)⟩

end PosFramework
