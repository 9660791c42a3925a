import PosFramework.Edge.Drawers

set_option autoImplicit false

/-! # What the log says of the drawers

The figures of a shift's drawer are in the log as well: the float its opening names, the cash
captured on it, the movements stamped with it and, for every void stamped with it, the cash captured
for the voided bill. So is where the shift stands: its opening, its count and its close. -/

namespace PosFramework

open Fallible Payload List

/-- What happens to a shift, as the log marks it. -/
inductive ShiftMark
  | opened (shiftId : ShiftId) (till : Option DeviceId)
  | counted (shiftId : ShiftId)
  | closed (shiftId : ShiftId) (expected : Money)

/-! ## Events -/

namespace Payload

/-- The float of a shift's opening. -/
def floatOf (shiftId : ShiftId) : Payload → Int
  | .cashShiftOpened opened =>
    if opened.openedShiftId = shiftId then opened.openingFloat.minor else 0
  | _ => 0

/-- The cash a payment applies. -/
def cashApplied : Payload → Int
  | .billingPaymentCaptured captured =>
    if captured.method.known = .cash then captured.appliedToBill.minor else 0
  | _ => 0

/-- The cash a payment applies to one bill. -/
def cashFor (billId : BillId) : Payload → Int
  | .billingPaymentCaptured captured =>
    if captured.billId = billId ∧ captured.method.known = .cash then captured.appliedToBill.minor
    else 0
  | _ => 0

def paidIn : Payload → Int
  | .cashDrawerPaidIn amount _ _ => amount.minor
  | _ => 0

def paidOut : Payload → Int
  | .cashDrawerPaidOut amount _ _ => amount.minor
  | _ => 0

def dropped : Payload → Int
  | .cashDrawerDropped amount _ _ _ => amount.minor
  | _ => 0

/-- The bill a void is of. -/
def voids : Payload → Option BillId
  | .billingBillVoided billId _ => some billId
  | _ => none

/-- Where an event says a shift stands, and what its drawer should hold when it is closed. -/
def mark? : Payload → Option ShiftMark
  | .cashShiftOpened opened => some (.opened opened.openedShiftId opened.terminalDeviceId)
  | .cashShiftCounted shiftId _ _ _ => some (.counted shiftId)
  | .cashShiftClosed closed => some (.closed closed.closedShiftId closed.expectedAmount)
  | _ => none

/-- The payloads a drawer's figures are made of. -/
def counts : Payload → Bool
  | .cashShiftOpened _ | .billingPaymentCaptured _ | .cashDrawerPaidIn _ _ _
  | .cashDrawerPaidOut _ _ _ | .cashDrawerDropped _ _ _ _ | .billingBillVoided _ _ => true
  | _ => false

end Payload

/-- The cash a log captured for a bill. -/
def cashTaken (log : List Event) (billId : BillId) : Int :=
  (log.map fun event => event.payload.cashFor billId).sum

/-- The sum of what the events stamped with a shift say. -/
def onShift (amount : Payload → Int) (shiftId : ShiftId) (log : List Event) : Int :=
  (log.map fun event => if event.shiftId = some shiftId then amount event.payload else 0).sum

/-- The cash a void gives back: what the log captured for its bill, which is nothing for a bill that
    was not paid. -/
def givenBack (log : List Event) (payload : Payload) : Int :=
  (payload.voids.map (cashTaken log)).getD 0

/-- What events say of a shift's drawer, where a void gives back what `back` says. -/
def figuresWith (back : Payload → Int) (shiftId : ShiftId) (events : List Event) : Figures where
  openingFloat := (events.map fun event => event.payload.floatOf shiftId).sum
  cash := onShift cashApplied shiftId events
  paidIn := onShift paidIn shiftId events
  paidOut := onShift paidOut shiftId events
  dropped := onShift dropped shiftId events
  voided := onShift back shiftId events

/-- The figures of a shift's drawer, by the log. -/
def figuresBy (log : List Event) (shiftId : ShiftId) : Figures :=
  figuresWith (givenBack log) shiftId log

section Sums

variable {log events : List Event} {shiftId : ShiftId} {billId : BillId}
  {amount back : Payload → Int}

theorem onShift_append :
    onShift amount shiftId (log ++ events) =
      onShift amount shiftId log + onShift amount shiftId events := by
  simp [onShift]

theorem cashTaken_append :
    cashTaken (log ++ events) billId = cashTaken log billId + cashTaken events billId := by
  simp [cashTaken]

theorem onShift_eq_zero (h : ∀ event ∈ events, amount event.payload = 0) :
    onShift amount shiftId events = 0 := by
  refine sum_eq_zero fun x hx => ?_
  obtain ⟨event, hevent, rfl⟩ := mem_map.1 hx
  rw [h event hevent, ite_self]

theorem cashTaken_eq_zero (h : ∀ event ∈ events, event.payload.cashFor billId = 0) :
    cashTaken events billId = 0 := by
  refine sum_eq_zero fun x hx => ?_
  obtain ⟨event, hevent, rfl⟩ := mem_map.1 hx
  exact h event hevent

/-- The same amounts on the same events. -/
theorem onShift_congr {amount' : Payload → Int}
    (h : ∀ event ∈ log, amount' event.payload = amount event.payload) :
    onShift amount' shiftId log = onShift amount shiftId log := by
  refine congrArg List.sum (map_congr_left fun event hevent => ?_)
  rw [h event hevent]

theorem figuresWith_append :
    figuresWith back shiftId (log ++ events) =
      (figuresWith back shiftId log).add (figuresWith back shiftId events) :=
  Figures.ext (by simp [figuresWith, Figures.add]) onShift_append onShift_append onShift_append
    onShift_append onShift_append

/-- Events that capture nothing for the bills a log voided leave what its voids gave back. -/
theorem figuresBy_append
    (h : ∀ event ∈ log, ∀ billId, event.payload.voids = some billId → cashTaken events billId = 0) :
    figuresBy (log ++ events) shiftId =
      (figuresBy log shiftId).add (figuresWith (givenBack (log ++ events)) shiftId events) := by
  have hback : onShift (givenBack (log ++ events)) shiftId log =
      onShift (givenBack log) shiftId log := by
    refine onShift_congr fun event hevent => ?_
    unfold givenBack
    cases hvoids : event.payload.voids with
    | none => rfl
    | some billId =>
      show cashTaken (log ++ events) billId = cashTaken log billId
      rw [cashTaken_append, h event hevent billId hvoids, Int.add_zero]
  rw [figuresBy, figuresWith_append]
  refine congrArg (Figures.add · _) (Figures.ext rfl rfl rfl rfl rfl hback)

/-! ### Events that count for nothing -/

variable {payload : Payload} {ctx : DecisionCtx} {ids : Nat → Nat} {shift : Option ShiftId}
  {captured : List BillingPaymentCaptured} {payments : List Payment}

theorem Payload.of_not_counts (h : payload.counts = false) :
    (∀ shiftId, payload.floatOf shiftId = 0) ∧ payload.cashApplied = 0 ∧
      (∀ billId, payload.cashFor billId = 0) ∧ payload.paidIn = 0 ∧ payload.paidOut = 0 ∧
      payload.dropped = 0 ∧ payload.voids = none := by
  cases payload <;>
    first
      | exact ⟨fun _ => rfl, rfl, fun _ => rfl, rfl, rfl, rfl, rfl⟩
      | exact absurd h Bool.noConfusion

theorem cashTaken_of_not_counts (h : ∀ event ∈ events, event.payload.counts = false)
    (billId : BillId) : cashTaken events billId = 0 :=
  cashTaken_eq_zero fun event hevent => (of_not_counts (h event hevent)).2.2.1 billId

theorem figuresWith_of_not_counts (h : ∀ event ∈ events, event.payload.counts = false) :
    figuresWith (givenBack log) shiftId events = .zero := by
  have hzero : ∀ amount : Payload → Int, (∀ payload, payload.counts = false → amount payload = 0) →
      onShift amount shiftId events = 0 :=
    fun amount hamount => onShift_eq_zero fun event hevent => hamount _ (h event hevent)
  refine Figures.ext ?_ (hzero _ fun _ hp => (of_not_counts hp).2.1)
    (hzero _ fun _ hp => (of_not_counts hp).2.2.2.1)
    (hzero _ fun _ hp => (of_not_counts hp).2.2.2.2.1)
    (hzero _ fun _ hp => (of_not_counts hp).2.2.2.2.2.1) (hzero _ fun payload hp => ?_)
  · refine sum_eq_zero fun x hx => ?_
    obtain ⟨event, hevent, rfl⟩ := mem_map.1 hx
    exact (of_not_counts (h event hevent)).1 shiftId
  · rw [givenBack, (of_not_counts hp).2.2.2.2.2.2]
    rfl

/-! ### What a command's events say -/

theorem prepareAll_cons {payloads : List Payload} :
    prepareAll ctx ids shift (payload :: payloads) =
      prepareOn ctx (ids 0) payload shift :: prepareAll ctx (idsFrom ids 1) shift payloads := by
  unfold prepareAll
  rw [mapIdx_cons]
  simp only [idsFrom, Nat.add_comm 1]

/-- One payload of a kind that counts on one figure. -/
theorem figuresWith_prepareOn {id : Nat} :
    figuresWith back shiftId [prepareOn ctx id payload shift] =
      ⟨payload.floatOf shiftId, if shift = some shiftId then payload.cashApplied else 0,
        if shift = some shiftId then payload.paidIn else 0,
        if shift = some shiftId then payload.paidOut else 0,
        if shift = some shiftId then payload.dropped else 0,
        if shift = some shiftId then back payload else 0⟩ :=
  Figures.ext (Int.add_zero _) (Int.add_zero _) (Int.add_zero _) (Int.add_zero _) (Int.add_zero _)
    (Int.add_zero _)

/-- The tenders of a settle: their cash, on the shift they are stamped with and for their bill. -/
theorem figuresWith_captured
    (h : captured.map (fun event => (event.method.known, event.appliedToBill)) =
      payments.map fun payment => (payment.method, payment.appliedToBill)) :
    figuresWith (givenBack log) shiftId (captured.mapIdx fun i payment =>
        prepareOn ctx (ids i) (.billingPaymentCaptured payment) shift) =
      { Figures.zero with
        cash := if shift = some shiftId then Projection.cashApplied payments else 0 } := by
  induction captured generalizing payments ids with
  | nil =>
    obtain rfl := map_eq_nil_iff.1 h.symm
    simp [figuresWith, onShift, Projection.cashApplied, Figures.zero]
  | cons event rest ih =>
    obtain ⟨payment, tail, rfl, heq, htail⟩ := map_eq_cons_iff.1 h.symm
    obtain ⟨hmethod, happlied⟩ := Prod.mk.inj heq
    rw [mapIdx_cons, ← singleton_append, figuresWith_append, figuresWith_prepareOn,
      ih htail.symm, Projection.cashApplied_cons]
    split
    · simp only [Figures.add, Figures.zero, floatOf, cashApplied, paidIn, paidOut, dropped,
        givenBack, voids, ← hmethod, ← happlied, Option.map_none, Option.getD_none, Int.add_zero]
    · simp only [Figures.add, Figures.zero, floatOf, Int.add_zero]

theorem cashTaken_captured
    {other : BillId}
    (h : captured.map (fun event => (event.billId, event.method.known, event.appliedToBill)) =
      payments.map fun payment => (other, payment.method, payment.appliedToBill)) :
    cashTaken (captured.mapIdx fun i payment =>
        prepareOn ctx (ids i) (.billingPaymentCaptured payment) shift) billId =
      if billId = other then Projection.cashApplied payments else 0 := by
  induction captured generalizing payments ids with
  | nil =>
    obtain rfl := map_eq_nil_iff.1 h.symm
    simp [cashTaken, Projection.cashApplied]
  | cons event rest ih =>
    obtain ⟨payment, tail, rfl, heq, htail⟩ := map_eq_cons_iff.1 h.symm
    simp only [Prod.mk.injEq] at heq
    obtain ⟨hbill, hmethod, happlied⟩ := heq
    rw [mapIdx_cons, ← singleton_append, cashTaken_append, ih htail.symm,
      Projection.cashApplied_cons]
    simp only [cashTaken, map_cons, map_nil, sum_cons, sum_nil, prepareOn,
      cashFor, ← hbill, ← hmethod, ← happlied]
    by_cases heq : billId = other
    · simp only [heq, true_and, if_true, Int.add_zero]
    · simp only [Ne.symm heq, heq, false_and, if_false, Int.add_zero]

end Sums

end PosFramework
