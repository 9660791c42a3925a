import PosFramework.Edge.Drawers

set_option autoImplicit false

/-! # What a settle takes

The payments a device sends, as the handler reads them, and what a settle of them leaves in the log
and in the drawers. The settlement is proved on the sums of the tenders, so a tender below zero can
stand behind another one: its cash leaves the drawer. In the same way a tender that falls short of
its own share can stand behind one that covers it, and the change recorded is then more than what
was given. -/

namespace PosFramework

open Fallible Projection List Trial Money Env Payment Edge

/-! ## The request -/

/-- A payment as a device sends it. -/
structure PaymentRequest where
  method : Open PaymentMethod
  tendered : Money
  appliedToBill : Money
  tip : Option Money

namespace PaymentRequest

/-- A payment of a known method; an absent tip is no tip, in the currency of what was tendered. -/
def intoPayment (request : PaymentRequest) : Option Payment := do
  let method ← request.method.require?
  pure
    { method
      tendered := request.tendered
      appliedToBill := request.appliedToBill
      tip := request.tip.getD (zero request.tendered.currencyCode) }

/-- Nothing is handed over, applied or left that is below zero. -/
def NonNegative (request : PaymentRequest) : Prop :=
  0 ≤ request.tendered.minor ∧ 0 ≤ request.appliedToBill.minor ∧
    ∀ tip, request.tip = some tip → 0 ≤ tip.minor

end PaymentRequest

/-- The payments a settle is asked for: each of a known method, and of one the store accepts. -/
def settlePayments (acceptedTender : Option (List PaymentMethod)) (requests : List PaymentRequest) :
    Except String (List Payment) := do
  let payments ← okOr "a payment method must be a known method"
    (requests.mapM PaymentRequest.intoPayment)
  refuseIf (payments.all (fun payment =>
      acceptedTender.all fun accepted => accepted.contains payment.method) = false)
    "this store does not accept one of those payment methods as tender"
  pure payments

/-- What a tender hands over, what it applies and what it leaves. -/
structure TenderAmounts where
  tendered : Money
  applied : Money
  tip : Money

def TenderAmounts.NonNegative (amounts : TenderAmounts) : Prop :=
  0 ≤ amounts.tendered.minor ∧ 0 ≤ amounts.applied.minor ∧ 0 ≤ amounts.tip.minor

def Payment.amounts (payment : Payment) : TenderAmounts :=
  ⟨payment.tendered, payment.appliedToBill, payment.tip⟩

def BillingPaymentCaptured.amounts (captured : BillingPaymentCaptured) : TenderAmounts :=
  ⟨captured.tendered, captured.appliedToBill, captured.tipAmount⟩

variable {payment : Payment}

theorem intoPayment_nonNegative {request : PaymentRequest}
    (h : request.intoPayment = some payment) :
    payment.amounts.NonNegative ↔ request.NonNegative := by
  simp only [PaymentRequest.intoPayment, Option.bind_eq_bind, Option.bind_eq_some_iff,
    Option.pure_def, Option.some.injEq] at h
  obtain ⟨method, _, rfl⟩ := h
  refine and_congr_right fun _ => and_congr_right fun _ => ?_
  show 0 ≤ (request.tip.getD (zero _)).minor ↔ _
  cases request.tip with
  | none => simp [minor_zero]
  | some tip => simp

variable {payments : List Payment} {acceptedTender : Option (List PaymentMethod)}
  {captured : BillingPaymentCaptured} {requests : List PaymentRequest} {currency : CurrencyCode}
  {paymentId : PaymentId} {billId : BillId}

/-- The handler changes no amount. -/
theorem settlePayments_nonNegative
    (h : settlePayments acceptedTender requests = .ok payments) :
    (∀ payment ∈ payments, payment.amounts.NonNegative) ↔
      ∀ request ∈ requests, request.NonNegative := by
  simp only [settlePayments, bind_eq_ok, okOr_eq_ok, pure_eq_ok] at h
  obtain ⟨_, hpayments, _, _, rfl⟩ := h
  clear * - hpayments
  rename_i payments
  induction requests generalizing payments with
  | nil =>
    simp only [mapM_nil, Option.pure_def, Option.some.injEq] at hpayments
    subst hpayments
    simp
  | cons request rest ih =>
    simp only [mapM_cons, Option.pure_def, Option.bind_eq_bind, Option.bind_eq_some_iff,
      Option.some.injEq] at hpayments
    obtain ⟨payment, hpayment, tail, htail, rfl⟩ := hpayments
    rw [forall_mem_cons, forall_mem_cons, intoPayment_nonNegative hpayment, ih tail htail]

/-! ## What is captured -/

/-- The payment an event records. -/
def Payload.captured? : Payload → Option BillingPaymentCaptured
  | .billingPaymentCaptured captured => some captured
  | _ => none

theorem captured?_of_isOverride {payload : Payload} (h : payload.isOverride = true) :
    payload.captured? = none := by
  cases payload <;> first | rfl | exact absurd h Bool.false_ne_true

/-- The payments recorded between two states of the edge. -/
def Edge.capturedBy (edge edge' : Edge) : List BillingPaymentCaptured :=
  (edge'.log.drop edge.log.length).filterMap (·.payload.captured?)

/-- A settle that takes no cash out: nothing it records is below zero, what is handed over covers
    what is applied and the tips, and no shift expects less than before. -/
structure Edge.TakesNoCashOut (edge edge' : Edge) : Prop where
  captured : ∀ payment ∈ edge.capturedBy edge',
    0 ≤ payment.tendered.minor ∧ 0 ≤ payment.appliedToBill.minor ∧ 0 ≤ payment.tipAmount.minor ∧
      0 ≤ payment.changeGiven.minor
  covers :
    totalMinor ((edge.capturedBy edge').map (·.appliedToBill)) +
        totalMinor ((edge.capturedBy edge').map (·.tipAmount)) ≤
      totalMinor ((edge.capturedBy edge').map (·.tendered))
  shifts : ∀ shiftId record, edge.projection.shift shiftId = some record →
    ∃ record', edge'.projection.shift shiftId = some record' ∧
      ∀ before after, record.expected = .ok before → record'.expected = .ok after →
        before.minor ≤ after.minor

namespace Env

variable {env : Env} {ids : Nat → Nat} {P : Projection} {actor : Actor} {plan : Plan}
  {scope : TillScope} {billId : BillId} {payments : List Payment} {hasBuyer : Bool}
  {approval : Option Approval}

theorem capturePayment_amounts
    (h : capturePayment currency billId paymentId payment = .ok captured) :
    captured.amounts = payment.amounts ∧ 0 ≤ captured.changeGiven.minor := by
  simp only [capturePayment, bind_eq_ok, pure_eq_ok] at h
  obtain ⟨change, _, rfl⟩ := h
  refine ⟨rfl, ?_⟩
  split
  · rw [minor_zero]
  · next hnegative =>
    simpa [isNegative] using hnegative

/-- The events of a settle capture its payments and nothing else. -/
theorem captured_settleBill
    (h : env.settleBill ids P actor scope billId payments hasBuyer approval = .ok plan) :
    (plan.events.filterMap (·.payload.captured?)).map BillingPaymentCaptured.amounts =
        payments.map amounts ∧
      ∀ captured ∈ plan.events.filterMap (·.payload.captured?),
        0 ≤ captured.changeGiven.minor := by
  obtain ⟨_, ctx, drawer, _, _, _, captured, taken, settled, payloads, _, _, hcaptured, _, _,
    rfl, rfl⟩ := settleBill_ok h
  have hpaid : ((captured.mapIdx fun i payment => prepareOn ctx (ids (2 * i + 1))
      (.billingPaymentCaptured payment) drawer.shift).filterMap (·.payload.captured?)) =
        captured := by
    rw [mapIdx_eq_zipIdx_map, filterMap_map]
    show (captured.zipIdx.filterMap (some ∘ Prod.fst)) = captured
    rw [filterMap_eq_map, zipIdx_map_fst]
  have hrest : (prepareAll ctx (idsFrom ids taken) drawer.shift (.billingBillSettled settled ::
      overridePayloads [(.overrideDrawerAssignment, drawer.overrider)])).filterMap
        (·.payload.captured?) = [] := by
    refine filterMap_eq_nil_iff.2 fun event hevent => ?_
    rcases mem_cons.1 (mem_prepareAll hevent).1 with hsettled | hoverride
    · rw [hsettled]
      rfl
    · exact captured?_of_isOverride (isOverride_of_mem_overridePayloads hoverride)
  rw [filterMap_append, hpaid, hrest, append_nil]
  refine ⟨map_capturePayments _ _ (fun _ _ _ hevent => (capturePayment_amounts hevent).1) hcaptured,
    fun event hevent => ?_⟩
  obtain ⟨entry, _, hentry⟩ := exists_of_mem_mapM hcaptured hevent
  exact (capturePayment_amounts hentry).2

end Env

/-! ## What a settle does to the drawers -/

theorem cashApplied_nonNegative
    (h : ∀ payment ∈ payments, payment.amounts.NonNegative) :
    0 ≤ Projection.cashApplied payments := by
  induction payments with
  | nil => exact le_refl _
  | cons payment rest ih =>
    rw [cashApplied_cons]
    have hrest := ih fun other hother => h other (mem_cons_of_mem _ hother)
    have happlied : 0 ≤ payment.appliedToBill.minor := (h payment mem_cons_self).2.1
    split <;> omega

/-- A shift the cash of a settle goes to expects that much more. -/
theorem Projection.ChangesDrawer.expects {P P' : Projection} {shift : Option ShiftId} {amount : Int}
    (h : P.ChangesDrawer P' shift (Drawer.Takes amount)) (hamount : 0 ≤ amount) {shiftId : ShiftId}
    {record : ShiftRecord} (hrecord : P.shift shiftId = some record) :
    ∃ record', P'.shift shiftId = some record' ∧
      ∀ before after, record.expected = .ok before → record'.expected = .ok after →
        before.minor ≤ after.minor := by
  have hdrawer : P.drawer shiftId = some record.drawer :=
    drawer_eq_some.2 ⟨record, hrecord, rfl⟩
  obtain ⟨d', hd', htotal⟩ : ∃ d', P'.drawer shiftId = some d' ∧
      record.drawer.figures.total ≤ d'.figures.total := by
    by_cases heq : shift = some shiftId
    · obtain ⟨d', hd', htakes⟩ := h.changed shiftId record.drawer heq hdrawer
      refine ⟨d', hd', ?_⟩
      rw [htakes.figures_eq]
      simp only [Figures.total]
      omega
    · exact ⟨record.drawer, (h.others shiftId heq).trans hdrawer, le_refl _⟩
  obtain ⟨record', hrecord', rfl⟩ := drawer_eq_some.1 hd'
  refine ⟨record', hrecord', fun before after hbefore hafter => ?_⟩
  rw [ShiftRecord.minor_of_expected hbefore, ShiftRecord.minor_of_expected hafter]
  exact htotal

/-- A settle takes no cash out of a drawer exactly where no payment of the request has an amount
    below zero. -/
theorem settle_takes_no_cash_out_iff {ids : IdSource} {edge edge' : Edge} {env : Env}
    {actor : Actor} {scope : TillScope} {hasBuyer : Bool} {approval : Option Approval}
    (hrequests : settlePayments acceptedTender requests = .ok payments)
    (hsettle : edge.step ids (env, .settleBill actor scope billId payments hasBuyer approval) =
      .ok edge') :
    edge.TakesNoCashOut edge' ↔ ∀ request ∈ requests, request.NonNegative := by
  obtain ⟨plan, projection, hplan, happly, _, hedge'⟩ := (step_eq_ok ids).1 hsettle
  obtain ⟨hamounts, hchange⟩ := captured_settleBill hplan
  have hevents : edge.capturedBy edge' = plan.events.filterMap (·.payload.captured?) := by
    rw [capturedBy, hedge', drop_left]
  rw [← hevents] at hamounts hchange
  rw [← settlePayments_nonNegative hrequests]
  constructor
  · intro htakes payment hpayment
    obtain ⟨captured, hmem, heq⟩ := mem_map.1 (hamounts ▸ mem_map_of_mem hpayment)
    obtain ⟨htendered, happlied, htip, _⟩ := htakes.captured captured hmem
    exact heq ▸ ⟨htendered, happlied, htip⟩
  · intro hpayments
    obtain ⟨start, ctx, drawer, proved, receiptNumber, reductionTotal, _, taken, settled,
      payloads, _,
      hproved, _, _, _, _, rfl⟩ := settleBill_ok hplan
    obtain ⟨_, _, _, _, _, _, hcash, settlement, hsettlement⟩ := proveSettle_ok hproved
    -- the sums of what is captured are those of the payments
    have hsums : ∀ read : TenderAmounts → Money,
        (edge.capturedBy edge').map (fun captured => read captured.amounts) =
          payments.map fun payment => read payment.amounts := by
      intro read
      have hread := congrArg (List.map read) hamounts
      rwa [map_map, map_map] at hread
    refine ⟨fun captured hmem => ?_, ?_, fun shiftId record hrecord => ?_⟩
    · obtain ⟨payment, hpayment, heq⟩ := mem_map.1 (hamounts ▸ mem_map_of_mem hmem)
      obtain ⟨htendered, happlied, htip⟩ := hpayments payment hpayment
      rw [heq] at htendered happlied htip
      exact ⟨htendered, happlied, htip, hchange captured hmem⟩
    · have happlied : (edge.capturedBy edge').map (·.appliedToBill) =
          payments.map (·.appliedToBill) := hsums (·.applied)
      have htips : (edge.capturedBy edge').map (·.tipAmount) = payments.map (·.tip) := hsums (·.tip)
      have htendered : (edge.capturedBy edge').map (·.tendered) = payments.map (·.tendered) :=
        hsums (·.tendered)
      rw [happlied, htips, htendered]
      obtain ⟨-, hchange, hnonneg⟩ := settle_ok hsettlement
      omega
    · have htaken : 0 ≤ proved.cashTaken.minor := by
        rw [cashTendered_ok hcash]
        exact cashApplied_nonNegative hpayments
      rw [hedge']
      exact (foldSettled_drawers happly).1.expects htaken hrecord

/-! ## A tender behind another -/

namespace Trial

/-- The drawer opens with a hundred, a guest orders and asks for the bill. -/
def tradingAndBilled : List Command :=
  [.openShift actor ⟨none, none⟩ (.few 100) .none none none none,
    .seatTable actor table,
    .addLine actor table (line (.few 5)) false,
    .openBill actor table]

/-- A card pays ten of six, and four are applied back in cash. -/
def cashBehindCard : List PaymentRequest :=
  [⟨.fromKnown .cash, .few 0, dong (-4) (by decide), none⟩,
    ⟨.fromKnown .card, .few 10, .few 10, none⟩]

/-- Ten in cash, with the change given back. -/
def tenInCash : List PaymentRequest :=
  [⟨.fromKnown .cash, .few 10, .few 6, none⟩]

/-- The settle of the bill by what a request asks. -/
def settleBy (requests : List PaymentRequest) : Command :=
  .settleBill actor ⟨none, none⟩ ⟨7⟩ (requests.filterMap PaymentRequest.intoPayment) false none

end Trial

/-- The settle is taken, its cash is below zero, and the drawer expects less than before. -/
theorem settle_takes_cash_out :
    ∃ edge edge', Run ids (fun _ _ => True) .initial
        (inputs tradingAndBilled) edge ∧
      settlePayments none cashBehindCard =
        .ok (cashBehindCard.filterMap PaymentRequest.intoPayment) ∧
      edge.step ids (env, settleBy cashBehindCard) = .ok edge' ∧
      (edge.projection.shift ⟨0⟩).map (·.expected) = some (.ok (dong 100 (by decide))) ∧
      (edge'.projection.shift ⟨0⟩).map (·.expected) = some (.ok (dong 96 (by decide))) ∧
      ¬ edge.TakesNoCashOut edge' := by
  obtain ⟨edge, edge', hrun, hstep, hexpected⟩ : ∃ edge edge',
      Run ids (fun _ _ => True) .initial (inputs tradingAndBilled) edge ∧
      edge.step ids (env, settleBy cashBehindCard) = .ok edge' ∧
      decide ((edge.projection.shift ⟨0⟩).map (·.expected) =
          some (.ok (dong 100 (by decide))) ∧
        (edge'.projection.shift ⟨0⟩).map (·.expected) =
          some (.ok (dong 96 (by decide)))) = true :=
    exists_step (by decide +kernel)
  obtain ⟨hbefore, hafter⟩ := of_decide_eq_true hexpected
  refine ⟨edge, edge', hrun, by decide +kernel, hstep, hbefore, hafter, fun htakes => ?_⟩
  obtain ⟨record, hrecord, hhundred⟩ := Option.map_eq_some_iff.1 hbefore
  obtain ⟨record', hrecord', hless⟩ := htakes.shifts ⟨0⟩ record hrecord
  rw [hrecord'] at hafter
  exact absurd (hless _ _ hhundred (Option.some.inj hafter)) (by decide)

theorem settle_takes_no_cash_out_tenInCash :
    ∃ edge edge', Run ids (fun _ _ => True) .initial
        (inputs tradingAndBilled) edge ∧
      edge.step ids (env, settleBy tenInCash) = .ok edge' ∧
      (edge.TakesNoCashOut edge' ↔ ∀ request ∈ tenInCash, request.NonNegative) := by
  obtain ⟨edge, edge', hrun, hstep, _⟩ : ∃ edge edge',
      Run ids (fun _ _ => True) .initial (inputs tradingAndBilled) edge ∧
      edge.step ids (env, settleBy tenInCash) = .ok edge' ∧ true = true :=
    exists_step (p := fun _ _ => true) (by decide +kernel)
  have hrequests : settlePayments none tenInCash =
      .ok (tenInCash.filterMap PaymentRequest.intoPayment) := by decide +kernel
  exact ⟨edge, edge', hrun, hstep, settle_takes_no_cash_out_iff hrequests hstep⟩

/-! ## The change recorded -/

/-- What one tender leaves over, in minor units. -/
def Payment.leftOver (payment : Payment) : Int :=
  payment.tendered.minor - payment.appliedToBill.minor - payment.tip.minor

theorem sum_leftOver (payments : List Payment) :
    (payments.map leftOver).sum = totalMinor (payments.map (·.tendered)) -
      totalMinor (payments.map (·.appliedToBill)) - totalMinor (payments.map (·.tip)) := by
  induction payments with
  | nil => rfl
  | cons payment payments ih =>
    simp only [map_cons, sum_cons, totalMinor_cons, ih, leftOver]
    omega

theorem sum_raised (figures : List Int) :
    figures.sum ≤ (figures.map (max 0)).sum ∧
      ((figures.map (max 0)).sum = figures.sum ↔ ∀ figure ∈ figures, 0 ≤ figure) := by
  induction figures with
  | nil => simp
  | cons figure figures ih =>
    simp only [map_cons, sum_cons, forall_mem_cons, ← ih.2]
    omega

namespace Env

variable {ids : Nat → Nat} {currency : CurrencyCode} {billId : BillId}

/-- A captured payment records what it leaves over, and nothing where that is below zero. -/
theorem capturePayment_change
    (h : capturePayment currency billId paymentId payment = .ok captured) :
    captured.changeGiven.minor = max 0 payment.leftOver := by
  simp only [capturePayment, Payment.change, bind_eq_ok, pure_eq_ok, liftMoney_eq_ok,
    checkedSub_eq_ok] at h
  obtain ⟨change, ⟨beyond, ⟨-, -, hbeyond⟩, -, -, hchange⟩, rfl⟩ := h
  have hleft : change.minor = payment.leftOver := by rw [hchange, hbeyond, leftOver]
  split
  · next hneg =>
      rw [isNegative, decide_eq_true_eq, hleft] at hneg
      rw [minor_zero, max_eq_left hneg.le]
  · next hneg =>
      rw [isNegative, decide_eq_true_eq, hleft, not_lt] at hneg
      rw [hleft, max_eq_right hneg]

/-- A payment that covers its share and its tip is captured. -/
theorem capturePayment_succeeds (paymentId : PaymentId)
    (happlied : payment.tendered.currencyCode = payment.appliedToBill.currencyCode)
    (htip : payment.tendered.currencyCode = payment.tip.currencyCode)
    (hnonneg : payment.amounts.NonNegative) (hcovers : 0 ≤ payment.leftOver) :
    ∃ captured, capturePayment currency billId paymentId payment = .ok captured := by
  have hhigh : payment.tendered.minor ≤ 9223372036854775807 := payment.tendered.amountMinor.le_hi
  obtain ⟨-, happlied', htip'⟩ := hnonneg
  simp only [amounts] at happlied' htip'
  unfold leftOver at hcovers
  let beyond : Money := ⟨payment.tendered.currencyCode,
    ⟨payment.tendered.minor - payment.appliedToBill.minor, by omega, by omega⟩⟩
  let change : Money := ⟨payment.tendered.currencyCode,
    ⟨payment.tendered.minor - payment.appliedToBill.minor - payment.tip.minor, by omega, by omega⟩⟩
  have hchange : payment.change = .ok change := by
    simp only [Payment.change, bind_eq_ok, liftMoney_eq_ok, checkedSub_eq_ok]
    exact ⟨beyond, ⟨happlied, rfl, rfl⟩, htip, rfl, rfl⟩
  exact ⟨_, by simp only [capturePayment, hchange]; rfl⟩

end Env

/-- The change recorded on the captured payments of an accepted settlement comes to the settlement's
    change exactly where every tender covers its own share and its tip. -/
theorem recorded_change_adds_up_iff {ids : Nat → Nat} {totalDue : Money} {settlement : Settlement}
    (hsettled : settle totalDue payments = .ok settlement)
    (hnonneg : ∀ payment ∈ payments, payment.amounts.NonNegative) :
    (∃ captured, capturePayments ids currency billId payments = .ok captured ∧
        totalMinor (captured.map (·.changeGiven)) = settlement.changeGiven.minor ∧
        settlement.changeGiven.minor = totalMinor (payments.map (·.tendered)) -
          totalMinor (payments.map (·.appliedToBill)) - totalMinor (payments.map (·.tip))) ↔
      ∀ payment ∈ payments,
        payment.appliedToBill.minor + payment.tip.minor ≤ payment.tendered.minor := by
  obtain ⟨hcurrency, hchange, -⟩ := settle_ok hsettled
  have hcovers : (∀ payment ∈ payments,
      payment.appliedToBill.minor + payment.tip.minor ≤ payment.tendered.minor) ↔
      ∀ figure ∈ payments.map leftOver, 0 ≤ figure := by
    simp only [forall_mem_map, leftOver]
    exact forall₂_congr fun payment _ => by omega
  have hrecorded : ∀ captured, capturePayments ids currency billId payments = .ok captured →
      totalMinor (captured.map (·.changeGiven)) = ((payments.map leftOver).map (max 0)).sum := by
    intro captured hcaptured
    rw [totalMinor, map_map, map_map]
    exact congrArg List.sum (map_capturePayments _ _
      (fun _ _ _ hevent => capturePayment_change hevent) hcaptured)
  rw [hcovers, ← (sum_raised _).2, sum_leftOver, ← hchange]
  constructor
  · rintro ⟨captured, hcaptured, hsum, -⟩
    rw [← hrecorded captured hcaptured, hsum]
  · intro hsum
    rw [hchange, ← sum_leftOver, (sum_raised _).2, forall_mem_map] at hsum
    obtain ⟨captured, hcaptured⟩ : ∃ captured, capturePayments ids currency billId payments =
        .ok captured := by
      refine exists_mapM fun entry hentry => ?_
      have hmem : entry.1 ∈ payments := fst_mem_of_mem_zipIdx hentry
      obtain ⟨happlied, htendered, htip⟩ := hcurrency _ hmem
      exact capturePayment_succeeds _ (htendered.trans happlied.symm) (htendered.trans htip.symm)
        (hnonneg _ hmem) (hsum _ hmem)
    refine ⟨captured, hcaptured, ?_, rfl⟩
    rw [hrecorded captured hcaptured, hchange, ← sum_leftOver, (sum_raised _).2, forall_mem_map]
    exact hsum

namespace Trial

/-- One tender ten short of its half, and one that makes up for it. -/
def shortTender : List Payment :=
  [⟨.cash, dong 40 (by decide), dong 50 (by decide), dong 0 (by decide)⟩,
    ⟨.card, dong 70 (by decide), dong 50 (by decide), dong 0 (by decide)⟩]

/-- Two tenders that each cover their half, one with a tip. -/
def coveringTenders : List Payment :=
  [⟨.cash, dong 60 (by decide), dong 50 (by decide), dong 0 (by decide)⟩,
    ⟨.card, dong 55 (by decide), dong 50 (by decide), dong 5 (by decide)⟩]

end Trial

/-- The change is ten and twenty are recorded. -/
theorem shortTender_records_more_change :
    (∀ payment ∈ shortTender, payment.amounts.NonNegative) ∧
      succeedsWith (settle (dong 100 (by decide)) shortTender) (fun settlement =>
        decide (settlement.changeGiven.minor = 10)) = true ∧
      succeedsWith (capturePayments id .vnd ⟨7⟩ shortTender) (fun captured =>
        decide (totalMinor (captured.map (·.changeGiven)) = 20)) = true :=
  ⟨by unfold amounts TenderAmounts.NonNegative; decide, by decide +kernel, by decide +kernel⟩

theorem recorded_change_adds_up_coveringTenders :
    ∃ settlement, settle (dong 100 (by decide)) coveringTenders = .ok settlement ∧
      ((∃ captured, capturePayments id .vnd ⟨7⟩ coveringTenders = .ok captured ∧
          totalMinor (captured.map (·.changeGiven)) = settlement.changeGiven.minor ∧
          settlement.changeGiven.minor = totalMinor (coveringTenders.map (·.tendered)) -
            totalMinor (coveringTenders.map (·.appliedToBill)) -
            totalMinor (coveringTenders.map (·.tip))) ↔
        ∀ payment ∈ coveringTenders,
          payment.appliedToBill.minor + payment.tip.minor ≤ payment.tendered.minor) := by
  have hsucceeds : succeedsWith (settle (dong 100 (by decide)) coveringTenders)
      (fun _ => true) = true := by decide +kernel
  obtain ⟨settlement, hsettled, -⟩ := exists_of_succeedsWith hsucceeds
  exact ⟨settlement, hsettled, recorded_change_adds_up_iff hsettled
    (by unfold amounts TenderAmounts.NonNegative; decide)⟩

end PosFramework
