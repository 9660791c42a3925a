import PosFramework.Core.Decision.Proofs
import PosFramework.Edge.Commands.Bills

set_option autoImplicit false

/-! # What a bill command that was taken did

For each command on bills: the bill it found, what it checked of it, and the plan it made. -/

namespace PosFramework

open Fallible Option

namespace Env

variable {env : Env} {ids : Nat → Nat} {P : Projection} {actor : Actor} {plan : Plan}
  {table : Option TableId} {orderId : OrderId}

/-! ## Opening -/

theorem billableOrder_ok
    (h : billableOrder P orderId = .ok table) :
    P.billForOrder orderId = none ∧ table = P.tableForOrder orderId ∧
      P.soldLineIds orderId ≠ [] := by
  simp only [billableOrder, bind_eq_ok, refuseIf_eq_ok, pure_eq_ok] at h
  obtain ⟨_, hbill, _, _, _, hsold, rfl⟩ := h
  exact ⟨not_isSome_iff_eq_none.1 hbill, rfl, hsold⟩

variable {ctx : DecisionCtx} {billId : BillId} {reasonCodeId : ReasonCodeId}
  {approval : Option Approval} {payments : List Payment} {currency : CurrencyCode}
  {tableId : TableId} {scope : TillScope} {amount : Money}

theorem requestBill_ok {moved : Option (TableId × TableState)}
    (h : requestBill P ctx table = .ok moved) :
    (∀ tableId, table = some tableId → P.tableState tableId = .occupied) ∧
      moved = table.map fun tableId => (tableId, .awaitingPayment) := by
  cases table with
  | none => exact ⟨(fun _ hnone => nomatch hnone), (Except.ok.inj h).symm⟩
  | some =>
    simp only [requestBill, bind_eq_ok, liftDomain_eq_ok, pure_eq_ok] at h
    obtain ⟨decision, hdecision, rfl⟩ := h
    obtain ⟨hstate, hnext⟩ := tableMachine_next.1 (decideTable_ok hdecision)
    refine ⟨fun other hother => ?_, by rw [hnext]; rfl⟩
    obtain rfl := some.inj hother
    exact hstate

/-- The opening of an order's bill: every line sold on it, and the rules in force. -/
def billOpening (env : Env) (ids : Nat → Nat) (P : Projection) (orderId : OrderId) :
    BillingBillOpened where
  billId := ⟨ids 0⟩
  orderId := orderId
  orderLineIds := P.soldLineIds orderId
  feeRules := env.session.fees.inForce ((P.orderChannel orderId).getD env.session.salesChannel)

theorem openBillForOrder_ok
    (h : env.openBillForOrder ids P actor orderId = .ok plan) :
    ∃ ctx, P.billForOrder orderId = none ∧ P.soldLineIds orderId ≠ [] ∧
      (∀ tableId, P.tableForOrder orderId = some tableId → P.tableState tableId = .occupied) ∧
      plan =
        { events := [P.prepare ctx (ids 1) (.billingBillOpened (env.billOpening ids P orderId))]
          minted := 2
          apply := fun Q => .ok (recordOpenedBill Q (env.billOpening ids P orderId)
            (P.tableForOrder orderId)
            ((P.tableForOrder orderId).map fun tableId => (tableId, .awaitingPayment))) } := by
  simp only [openBillForOrder, bind_eq_ok, liftDomain_eq_ok, pure_eq_ok] at h
  obtain ⟨ctx, _, _, _, table, htable, _, _, moved, hmoved, rfl⟩ := h
  obtain ⟨hbill, rfl, hsold⟩ := billableOrder_ok htable
  obtain ⟨hoccupied, rfl⟩ := requestBill_ok hmoved
  exact ⟨ctx, hbill, hsold, hoccupied, rfl⟩

theorem openBill_ok (h : env.openBill ids P actor tableId = .ok plan) :
    ∃ orderId, P.orderForTable tableId = some orderId ∧
      env.openBillForOrder ids P actor orderId = .ok plan := by
  cases horder : P.orderForTable tableId with
  | some orderId =>
    simp only [openBill, horder] at h
    exact ⟨orderId, rfl, h⟩
  | none =>
    simp only [openBill, horder, bind_eq_ok] at h
    obtain ⟨_, _, _, _, herror⟩ := h
    contradiction

/-! ## Reductions -/

theorem exceededBy_override {ceiling : Option Money} {approver : Option EmployeeId}
    {overridden : Option Payload} (h : exceededBy amount ceiling approver = .ok overridden) :
    ∀ payload ∈ overridden.toList, payload.isOverride = true := by
  intro payload hpayload
  obtain rfl := mem_toList.1 hpayload
  cases approver with
  | none => exact absurd h (by simp [exceededBy])
  | some =>
    cases ceiling with
    | none =>
      obtain rfl := some.inj (Except.ok.inj h)
      rfl
    | some =>
      simp only [exceededBy, bind_eq_ok, pure_eq_ok, some.injEq] at h
      obtain ⟨_, _, rfl⟩ := h
      rfl

theorem discountBill_ok
    (h : env.discountBill ids P actor billId amount reasonCodeId approval = .ok plan) :
    ∃ ctx bill order reducible applied overridden payloads,
      P.bill billId = some bill ∧ bill.state = .open ∧
      P.billSnapshot env.session bill = .ok order ∧
      reducibleBase order.classBases env.session.currency = .ok reducible ∧
      addMoney (bill.reductions env.session.currency).1 (bill.reductions env.session.currency).2 =
        .ok applied ∧
      applied.minor + amount.minor ≤ reducible.minor ∧
      (∀ payload ∈ overridden, Payload.isOverride payload = true) ∧
      payloads = .billingDiscountApplied billId (.fromKnown .discount) amount (some reasonCodeId) ::
        overridden ∧
      plan =
        { events := prepareAll ctx ids P.currentShiftId payloads
          minted := payloads.length
          apply := fun P => P.addReduction billId .discount amount
          answer := fun P => (fun _ => ()) <$> env.discountedTotals P billId bill order } := by
  simp only [discountBill, bind_eq_ok, liftDomain_eq_ok, okOr_eq_ok, refuseIf_eq_ok,
    pure_eq_ok] at h
  obtain ⟨_, _, bill, hbill, _, _, order, horder, reducible, hreducible, applied, happlied,
    ⟨approver, ctx⟩, _, decision, hdecision, overridden, hoverridden, rfl⟩ := h
  obtain ⟨hopen, hbound⟩ := decideBill_reduce_ok hdecision
  exact ⟨ctx, bill, order, reducible, applied, overridden.toList, _, hbill, hopen, horder,
    hreducible, happlied, hbound, exceededBy_override hoverridden, rfl, rfl⟩

theorem waiveFee_ok {feeId : FeeId}
    (h : env.waiveFee ids P actor billId feeId reasonCodeId approval = .ok plan) :
    ∃ ctx approver payloads,
      payloads = .billingFeeWaived billId feeId reasonCodeId ::
        overridePayloads [(.waiveFee, approver)] ∧
      plan =
        { events := prepareAll ctx ids P.currentShiftId payloads
          minted := payloads.length
          apply := fun P => .ok (P.waiveFeeRecord billId feeId)
          answer := fun P => env.billTotals P billId } := by
  simp only [waiveFee, bind_eq_ok, pure_eq_ok] at h
  obtain ⟨_, _, _, _, _, _, _, _, _, _, ⟨approver, ctx⟩, _, _, _, rfl⟩ := h
  exact ⟨ctx, approver, _, rfl, rfl⟩

/-! ## Splitting and merging -/

theorem splitBill_ok {parts : List (List OrderLineId)}
    (h : env.splitBill ids P actor billId parts = .ok plan) :
    ∃ ctx bill rules openings payloads,
      P.bill billId = some bill ∧ bill.state = .open ∧
      checkPartition (P.coveredLines bill) parts = .ok () ∧
      splitFeeRules bill.feeRules (partLines P bill.orderId parts) = .ok rules ∧
      openings = partOpenings ids bill.orderId parts rules ∧
      payloads = openings.map Payload.billingBillOpened ++
        [.billingBillSplit billId (openings.map (·.billId))] ∧
      plan =
        { events := prepareAll ctx (idsFrom ids parts.length) P.currentShiftId payloads
          minted := parts.length + payloads.length
          apply := fun P => applySplit P billId bill.tableId openings .split } := by
  simp only [splitBill, bind_eq_ok, liftDomain_eq_ok, okOr_eq_ok, pure_eq_ok] at h
  obtain ⟨ctx, _, bill, hbill, decided, hdecided, rules, hrules, rfl⟩ := h
  obtain ⟨hopen, hnext, hparts⟩ := decideBill_split_ok hdecided
  exact ⟨ctx, bill, rules, _, _, hbill, hopen, hparts, hrules, rfl, rfl, by rw [hnext]⟩

theorem decideAbsorbed_ok {absorbedId : BillId} {target : BillRecord}
    {absorbed : BillId × BillRecord × BillState}
    (h : decideAbsorbed P ctx billId target absorbedId = .ok absorbed) :
    absorbedId ≠ billId ∧ ∃ record, P.bill absorbedId = some record ∧
      record.tableId = target.tableId ∧ record.orderId = target.orderId ∧ record.state = .open ∧
      absorbed = (absorbedId, record, .merged) := by
  simp only [decideAbsorbed, bind_eq_ok, liftDomain_eq_ok, okOr_eq_ok, refuseIf_eq_ok, pure_eq_ok,
    not_not] at h
  obtain ⟨_, hself, record, hrecord, _, htable, _, horder, decided, hdecided, rfl⟩ := h
  obtain ⟨hopen, hnext⟩ := decideBill_merge_ok hdecided
  exact ⟨hself, record, hrecord, htable, horder, hopen, by rw [hnext]⟩

theorem mergeBills_ok {absorbed : List BillId}
    (h : env.mergeBills ids P actor billId absorbed = .ok plan) :
    ∃ ctx target folded fees,
      P.bill billId = some target ∧ target.state = .open ∧
      absorbed.mapM (decideAbsorbed P ctx billId target) = .ok folded ∧
      P.mergedFees billId absorbed = .ok fees ∧
      plan =
        { events := [P.prepare ctx (ids 0) (.billingBillMerged billId absorbed)]
          minted := 1
          apply := fun P => applyMerge P billId target folded fees absorbed } := by
  simp only [mergeBills, bind_eq_ok, liftDomain_eq_ok, okOr_eq_ok, pure_eq_ok] at h
  obtain ⟨ctx, _, target, htarget, _, hdecided, folded, hfolded, fees, hfees, rfl⟩ := h
  exact ⟨ctx, target, folded, fees, htarget, (decideBill_merge_ok hdecided).1, hfolded, hfees, rfl⟩

/-! ## Payment -/

theorem proveTableSettles_ok
    (h : proveTableSettles P ctx (some tableId) = .ok ()) :
    P.tableState tableId = .awaitingPayment := by
  obtain ⟨decision, hdecision, _⟩ := map_eq_ok.1 h
  exact (tableMachine_next.1 (decideTable_ok (liftDomain_eq_ok.1 hdecision))).1

theorem proveSettle_ok {proved : ProvedSettle}
    (h : env.proveSettle P ctx billId payments = .ok proved) :
    ∃ bill, P.bill billId = some bill ∧ bill.state = .open ∧
      (∀ tableId, bill.tableId = some tableId → P.tableState tableId = .awaitingPayment) ∧
      P.billSnapshot env.session bill = .ok proved.order ∧
      assemble (env.session.billInput proved.order bill.feeRules bill.waivedFeeIds
        (bill.reductions env.session.currency)) = .ok proved.totals ∧
      cashTendered env.session.currency payments = .ok proved.cashTaken ∧
      ∃ settlement, settle proved.totals.totalDue payments = .ok settlement := by
  simp only [proveSettle, bind_eq_ok, liftDomain_eq_ok, okOr_eq_ok, pure_eq_ok] at h
  obtain ⟨bill, hbill, order, horder, totals, htotals, _, htable, cashTaken, hcash, decision,
    hdecision, rfl⟩ := h
  obtain ⟨hopen, hsettlement⟩ := decideBill_settle_ok hdecision
  refine ⟨bill, hbill, hopen, fun tableId hsome => ?_, horder, htotals, hcash, hsettlement⟩
  rw [hsome] at htable
  exact proveTableSettles_ok htable

/-- The tender's event names its bill, method and amount. -/
theorem capturePayment_ok {paymentId : PaymentId} {payment : Payment}
    {captured : BillingPaymentCaptured}
    (h : capturePayment currency billId paymentId payment = .ok captured) :
    captured.billId = billId ∧ captured.method.known = payment.method ∧
      captured.appliedToBill = payment.appliedToBill := by
  simp only [capturePayment, bind_eq_ok, pure_eq_ok] at h
  obtain ⟨_, _, rfl⟩ := h
  exact ⟨rfl, rfl, rfl⟩

/-- The tenders' events, one for each in turn, keep what each of them keeps of its tender. -/
theorem map_capturePayments {κ : Type}
    {captured : List BillingPaymentCaptured} (keyOf : Payment → κ)
    (key : BillingPaymentCaptured → κ) (hkey : ∀ paymentId payment event,
      capturePayment currency billId paymentId payment = .ok event → key event = keyOf payment)
    (h : capturePayments ids currency billId payments = .ok captured) :
    captured.map key = payments.map keyOf := by
  rw [map_eq_of_mapM (fun entry => keyOf entry.1) key h fun entry _ event hentry =>
    hkey _ entry.1 event hentry]
  show payments.zipIdx.map (keyOf ∘ Prod.fst) = _
  rw [← List.map_map, List.zipIdx_map_fst]

theorem settleBill_ok {hasBuyer : Bool}
    (h : env.settleBill ids P actor scope billId payments hasBuyer approval = .ok plan) :
    ∃ start ctx drawer proved receiptNumber reductionTotal captured taken settled payloads,
      env.settleDrawer P start scope payments approval = .ok (drawer, ctx) ∧
      env.proveSettle P ctx billId payments = .ok proved ∧
      capturePayments ids env.session.currency billId payments = .ok captured ∧
      settled = settledEvent billId receiptNumber proved.totals reductionTotal
        (if hasBuyer then some ⟨ids (2 * payments.length)⟩ else none) ∧
      taken = 2 * payments.length + (if hasBuyer then 1 else 0) ∧
      payloads = .billingBillSettled settled ::
        overridePayloads [(.overrideDrawerAssignment, drawer.overrider)] ∧
      plan =
        { events :=
            (captured.mapIdx fun i payment =>
              prepareOn ctx (ids (2 * i + 1)) (.billingPaymentCaptured payment) drawer.shift) ++
              prepareAll ctx (idsFrom ids taken) drawer.shift payloads
          minted := taken + payloads.length
          apply := fun P =>
            foldSettled P settled drawer.shift payments ctx proved.cashTaken } := by
  simp only [settleBill, bind_eq_ok, liftDomain_eq_ok, okOr_eq_ok, pure_eq_ok] at h
  obtain ⟨start, _, ⟨drawer, ctx⟩, hdrawer, proved, hproved, receiptNumber, _, reductionTotal, _,
    captured, hcaptured, rfl⟩ := h
  exact ⟨start, ctx, drawer, proved, receiptNumber, reductionTotal, captured, _, _, _, hdrawer,
    hproved, hcaptured, rfl, rfl, rfl, rfl⟩

/-! ## Voiding -/

theorem voidBill_ok (h : env.voidBill ids P actor billId reasonCodeId approval = .ok plan) :
    ∃ ctx bill approver payloads, P.bill billId = some bill ∧ bill.state = .open ∧
      payloads = .billingBillVoided billId reasonCodeId ::
        overridePayloads [(.voidBill, approver)] ∧
      plan =
        { events := prepareAll ctx ids P.currentShiftId payloads
          minted := payloads.length
          apply := fun P => .ok (P.voidBillRecord billId) } := by
  simp only [voidBill, bind_eq_ok, liftDomain_eq_ok, okOr_eq_ok, pure_eq_ok,
    StateMachine.step_eq_ok, billMachine_next] at h
  obtain ⟨_, _, bill, hbill, _, _, ⟨approver, ctx⟩, _, _, _, _, ⟨hopen, _⟩, rfl⟩ := h
  exact ⟨ctx, bill, approver, _, hbill, hopen, rfl, rfl⟩

theorem voidSettledBill_ok
    (h : env.voidSettledBill ids P actor scope billId reasonCodeId approval = .ok plan) :
    ∃ start ctx bill approver drawer payloads, P.bill billId = some bill ∧ bill.state = .settled ∧
      env.voidDrawer P start scope (P.paid[billId]?.getD (.nothing env.session.currency)).cash
        approval = .ok (drawer, ctx) ∧
      payloads = .billingBillVoided billId reasonCodeId :: overridePayloads
        [(.voidSettledBill, approver), (.overrideDrawerAssignment, drawer.overrider)] ∧
      plan =
        { events := prepareAll ctx ids drawer.shift payloads
          minted := payloads.length
          apply := fun P => P.voidSettledRecord billId drawer.shift } := by
  simp only [voidSettledBill, bind_eq_ok, liftDomain_eq_ok, okOr_eq_ok, pure_eq_ok] at h
  obtain ⟨first, hfirst, bill, hbill, _, _, _, _, ⟨approver, start⟩, _, ⟨drawer, ctx⟩, hdrawer,
    decision, hdecision, rfl⟩ := h
  have hcurrency : first.currency = env.session.currency := by
    simp only [decisionCtx, bind_eq_ok, pure_eq_ok] at hfirst
    obtain ⟨_, _, rfl⟩ := hfirst
    rfl
  exact ⟨start, ctx, bill, approver, drawer, _, hbill, decideBill_voidSettled_ok hdecision,
    hcurrency ▸ hdrawer, rfl, rfl⟩

theorem reprintReceipt_ok (h : env.reprintReceipt ids P actor billId = .ok plan) :
    ∃ ctx receiptNumber copyNumber, plan =
      { events := [P.prepare ctx (ids 0)
          (.billingReceiptReprinted billId receiptNumber copyNumber)]
        minted := 1
        apply := fun P => .ok (P.recordCopy billId copyNumber) } := by
  simp only [reprintReceipt, bind_eq_ok, pure_eq_ok] at h
  obtain ⟨ctx, _, _, _, _, _, receipt, _, _, _, _, _, rfl⟩ := h
  exact ⟨ctx, receipt.receiptNumber, _, rfl⟩

end Env

end PosFramework
