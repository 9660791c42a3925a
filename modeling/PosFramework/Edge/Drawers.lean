import PosFramework.Core.Billing.Sums
import PosFramework.Edge.Takings

set_option autoImplicit false

/-! # Drawers

What a shift's record says of the drawer it counts: whose it is, its state and the six figures its
expected amount is made of. For each operation on shifts and payments, what it does to the drawers
and to the cash a bill took. -/

namespace PosFramework

open Fallible Projection List Keyed Money Env

/-- An amount with so much more on it. -/
def Money.Grows (amount : Int) (before after : Money) : Prop :=
  after.currencyCode = before.currencyCode ∧ after.minor = before.minor + amount

variable {amount : Money}

theorem grows_of_addMoney {sum out : Money} (h : addMoney sum amount = .ok out) :
    sum.Grows amount.minor out :=
  (addMoney_eq_ok.1 h).2

theorem Money.Grows.eq_of_zero {amount : Int} {before after : Money} (h : before.Grows amount after)
    (hzero : amount = 0) : after = before :=
  eq_iff.2 ⟨h.1, by rw [h.2, hzero, Int.add_zero]⟩

/-- The six figures an expected amount is made of. -/
@[ext] structure Figures where
  openingFloat : Int
  cash : Int
  paidIn : Int
  paidOut : Int
  dropped : Int
  voided : Int

namespace Figures

def zero : Figures := ⟨0, 0, 0, 0, 0, 0⟩

/-- What a drawer of these figures should hold. -/
def total (figures : Figures) : Int :=
  figures.openingFloat + figures.cash + figures.paidIn - figures.paidOut - figures.dropped -
    figures.voided

def add (figures more : Figures) : Figures where
  openingFloat := figures.openingFloat + more.openingFloat
  cash := figures.cash + more.cash
  paidIn := figures.paidIn + more.paidIn
  paidOut := figures.paidOut + more.paidOut
  dropped := figures.dropped + more.dropped
  voided := figures.voided + more.voided

theorem add_zero (figures : Figures) : figures.add .zero = figures :=
  Figures.ext (Int.add_zero _) (Int.add_zero _) (Int.add_zero _) (Int.add_zero _) (Int.add_zero _)
    (Int.add_zero _)

/-- One more movement of cash. -/
def move (figures : Figures) (movement : CashMovement) (amount : Int) : Figures :=
  match movement with
  | .paidIn => { figures with paidIn := figures.paidIn + amount }
  | .paidOut => { figures with paidOut := figures.paidOut + amount }
  | .dropped => { figures with dropped := figures.dropped + amount }

end Figures

/-- What a shift record says of its drawer. -/
structure Drawer where
  till : Option DeviceId
  state : ShiftState
  openingFloat : Money
  cashCollected : Money
  paidIn : Money
  paidOut : Money
  dropped : Money
  voidedCash : Money

namespace Drawer

/-- A drawer's figures, in minor units. -/
def figures (drawer : Drawer) : Figures where
  openingFloat := drawer.openingFloat.minor
  cash := drawer.cashCollected.minor
  paidIn := drawer.paidIn.minor
  paidOut := drawer.paidOut.minor
  dropped := drawer.dropped.minor
  voided := drawer.voidedCash.minor

/-- Cash comes in with a settle. -/
def Takes (amount : Int) (drawer after : Drawer) : Prop :=
  ∃ cash, drawer.cashCollected.Grows amount cash ∧ after = { drawer with cashCollected := cash }

/-- Cash goes back with a void. -/
def GivesBack (amount : Int) (drawer after : Drawer) : Prop :=
  ∃ voided, drawer.voidedCash.Grows amount voided ∧ after = { drawer with voidedCash := voided }

/-- Cash moves in or out beside the trade. -/
def Moves (movement : CashMovement) (amount : Int) (drawer after : Drawer) : Prop :=
  match movement with
  | .paidIn =>
    ∃ paidIn, drawer.paidIn.Grows amount paidIn ∧ after = { drawer with paidIn := paidIn }
  | .paidOut =>
    ∃ paidOut, drawer.paidOut.Grows amount paidOut ∧ after = { drawer with paidOut := paidOut }
  | .dropped =>
    ∃ dropped, drawer.dropped.Grows amount dropped ∧ after = { drawer with dropped := dropped }

variable {amount : Int} {after : Drawer} {drawer : Drawer}

theorem Takes.eq_of_zero (h : drawer.Takes amount after) (hzero : amount = 0) : after = drawer := by
  obtain ⟨cash, hcash, rfl⟩ := h
  rw [hcash.eq_of_zero hzero]

theorem GivesBack.eq_of_zero (h : drawer.GivesBack amount after)
    (hzero : amount = 0) : after = drawer := by
  obtain ⟨voided, hvoided, rfl⟩ := h
  rw [hvoided.eq_of_zero hzero]

theorem Takes.figures_eq (h : drawer.Takes amount after) :
    after.figures = { drawer.figures with cash := drawer.figures.cash + amount } := by
  obtain ⟨cash, hcash, rfl⟩ := h
  exact Figures.ext rfl hcash.2 rfl rfl rfl rfl

theorem GivesBack.figures_eq (h : drawer.GivesBack amount after) :
    after.figures = { drawer.figures with voided := drawer.figures.voided + amount } := by
  obtain ⟨voided, hvoided, rfl⟩ := h
  exact Figures.ext rfl rfl rfl rfl rfl hvoided.2

theorem Moves.figures_eq {movement : CashMovement} (h : drawer.Moves movement amount after) :
    after.figures = drawer.figures.move movement amount := by
  cases movement with
  | paidIn =>
    obtain ⟨paidIn, hpaidIn, rfl⟩ := h
    exact Figures.ext rfl rfl hpaidIn.2 rfl rfl rfl
  | paidOut =>
    obtain ⟨paidOut, hpaidOut, rfl⟩ := h
    exact Figures.ext rfl rfl rfl hpaidOut.2 rfl rfl
  | dropped =>
    obtain ⟨dropped, hdropped, rfl⟩ := h
    exact Figures.ext rfl rfl rfl rfl hdropped.2 rfl

end Drawer

namespace ShiftRecord

def drawer (record : ShiftRecord) : Drawer where
  till := record.till
  state := record.state
  openingFloat := record.openingFloat
  cashCollected := record.cashCollected
  paidIn := record.paidIn
  paidOut := record.paidOut
  dropped := record.dropped
  voidedCash := record.voidedCash

theorem minor_of_expected {record : ShiftRecord}
    (h : record.expected = .ok amount) : amount.minor = record.drawer.figures.total := by
  simp only [expected, bind_eq_ok, addMoney_eq_ok, liftMoney_eq_ok, checkedSub_eq_ok] at h
  obtain ⟨withCash, hcash, withPaidIn, hpaidIn, lessPaidOut, hpaidOut, lessDropped, hdropped,
    hvoided⟩ := h
  simp only [Figures.total, Drawer.figures, drawer]
  omega

/-- What a shift expects is read off its drawer's figures. -/
theorem expected_congr {record record' : ShiftRecord}
    (hfloat : record'.openingFloat = record.openingFloat)
    (hcash : record'.cashCollected = record.cashCollected) (hin : record'.paidIn = record.paidIn)
    (hout : record'.paidOut = record.paidOut) (hdropped : record'.dropped = record.dropped)
    (hvoided : record'.voidedCash = record.voidedCash) : record'.expected = record.expected := by
  rw [expected, expected, hfloat, hcash, hin, hout, hdropped, hvoided]

end ShiftRecord

namespace Projection

/-- What a shift's record says of its drawer. -/
def drawer (P : Projection) (shiftId : ShiftId) : Option Drawer :=
  (P.shift shiftId).map ShiftRecord.drawer

/-- The figures of a shift's drawer; none of them where there is no record. -/
def figures (P : Projection) (shiftId : ShiftId) : Figures :=
  ((P.drawer shiftId).map Drawer.figures).getD .zero

/-- The cash a bill took. -/
def cashOf (P : Projection) (billId : BillId) : Int := (P.paid[billId]?.map (·.cash.minor)).getD 0

variable {P P' P'' : Projection}

/-! ## Operations that leave every drawer alone -/

/-- The drawers are as they were, and so is the shift each one trades on. -/
structure SameDrawers (P P' : Projection) : Prop where
  openShifts : P'.openShifts = P.openShifts
  drawer : ∀ shiftId, P'.drawer shiftId = P.drawer shiftId

theorem SameDrawers.trans (h : P.SameDrawers P') (h' : P'.SameDrawers P'') : P.SameDrawers P'' :=
  ⟨h'.openShifts.trans h.openShifts, fun shiftId => (h'.drawer shiftId).trans (h.drawer shiftId)⟩

theorem sameDrawers_of_takings (h : P'.takings = P.takings) : P.SameDrawers P' where
  openShifts := congrArg Takings.openShifts h
  drawer := fun shiftId => by
    rw [drawer, drawer, shift, shift, show P'.shifts = P.shifts from congrArg Takings.shifts h]

theorem cashOf_of_paid (h : P'.paid = P.paid) (billId : BillId) :
    P'.cashOf billId = P.cashOf billId := by
  rw [cashOf, cashOf, h]

/-! ## One drawer changes -/

/-- The drawer of one shift, where it has a record, changes as `R` says; the others stay. -/
structure ChangesDrawer (P P' : Projection) (shift : Option ShiftId) (R : Drawer → Drawer → Prop) :
    Prop where
  openShifts : P'.openShifts = P.openShifts
  others : ∀ shiftId, shift ≠ some shiftId → P'.drawer shiftId = P.drawer shiftId
  missing : ∀ shiftId, P.drawer shiftId = none → P'.drawer shiftId = none
  changed : ∀ shiftId d, shift = some shiftId → P.drawer shiftId = some d →
    ∃ d', P'.drawer shiftId = some d' ∧ R d d'

variable {shift : Option ShiftId} {R : Drawer → Drawer → Prop}
  {change : ShiftRecord → Except DomainError ShiftRecord} {shiftId other : ShiftId}
  {payments : List Payment} {billId : BillId} {record : ShiftRecord} {till : Option DeviceId}
  {settled : BillingBillSettled} {shiftIds : List ShiftId} {payment : Payment}

theorem ChangesDrawer.same (h : P.ChangesDrawer P' shift fun d d' => d' = d) :
    P.SameDrawers P' where
  openShifts := h.openShifts
  drawer := fun shiftId => by
    by_cases heq : shift = some shiftId
    · cases hbefore : P.drawer shiftId with
      | none => exact h.missing shiftId hbefore
      | some d =>
        obtain ⟨d', hafter, rfl⟩ := h.changed shiftId d heq hbefore
        exact hafter
    · exact h.others shiftId heq

theorem SameDrawers.changes (h : P.SameDrawers P') (h' : P'.ChangesDrawer P'' shift R) :
    P.ChangesDrawer P'' shift R where
  openShifts := h'.openShifts.trans h.openShifts
  others := fun shiftId hne => (h'.others shiftId hne).trans (h.drawer shiftId)
  missing := fun shiftId hnone => h'.missing shiftId ((h.drawer shiftId).trans hnone)
  changed := fun shiftId d heq hd => h'.changed shiftId d heq ((h.drawer shiftId).trans hd)

theorem ChangesDrawer.andSame (h : P.ChangesDrawer P' shift R) (h' : P'.SameDrawers P'') :
    P.ChangesDrawer P'' shift R where
  openShifts := h'.openShifts.trans h.openShifts
  others := fun shiftId hne => (h'.drawer shiftId).trans (h.others shiftId hne)
  missing := fun shiftId hnone => (h'.drawer shiftId).trans (h.missing shiftId hnone)
  changed := fun shiftId d heq hd => by
    obtain ⟨d', hd', hR⟩ := h.changed shiftId d heq hd
    exact ⟨d', (h'.drawer shiftId).trans hd', hR⟩

theorem paid_updateShift (h : P.updateShift shift change = .ok P') : P'.paid = P.paid := by
  unfold updateShift at h
  split at h
  · cases h
    rfl
  · split at h
    · cases h
      rfl
    · simp only [bind_eq_ok, pure_eq_ok] at h
      obtain ⟨_, _, rfl⟩ := h
      rfl

theorem changesDrawer_updateShift
    (hchange : ∀ record record', change record = .ok record' → R record.drawer record'.drawer)
    (h : P.updateShift shift change = .ok P') : P.ChangesDrawer P' shift R := by
  cases shift with
  | none =>
    cases h
    exact ⟨rfl, fun _ _ => rfl, fun _ hnone => hnone, fun _ _ heq => nomatch heq⟩
  | some shiftId =>
    rw [updateShift] at h
    cases hrecord : P.shift shiftId with
    | none =>
      rw [hrecord] at h
      cases h
      refine ⟨rfl, fun _ _ => rfl, fun _ hnone => hnone, fun other d heq hd => ?_⟩
      obtain rfl := Option.some.inj heq
      rw [drawer, hrecord] at hd
      contradiction
    | some record =>
      rw [hrecord] at h
      simp only [bind_eq_ok, pure_eq_ok] at h
      obtain ⟨changed, hchanged, rfl⟩ := h
      have hdrawer : ∀ other, drawer { P with shifts := P.shifts.insert shiftId changed } other =
          if shiftId = other then some changed.drawer else P.drawer other := by
        intro other
        rw [drawer, shift, get_insert]
        split <;> rfl
      refine ⟨rfl, fun other hne => ?_, fun other hnone => ?_, fun other d heq hd => ?_⟩
      · rw [hdrawer, if_neg fun heq => hne (congrArg some heq)]
      · rw [hdrawer, if_neg ?_, hnone]
        rintro rfl
        rw [drawer, hrecord] at hnone
        contradiction
      · obtain rfl := Option.some.inj heq
        rw [drawer, hrecord] at hd
        obtain rfl := Option.some.inj hd
        exact ⟨changed.drawer, by rw [hdrawer, if_pos rfl], hchange record changed hchanged⟩

theorem sameDrawers_updateShift
    (hchange : ∀ record record', change record = .ok record' → record'.drawer = record.drawer)
    (h : P.updateShift shift change = .ok P') : P.SameDrawers P' :=
  (changesDrawer_updateShift hchange h).same

/-- Where the shift that changes has a record, its figures change and the others' stay. -/
theorem ChangesDrawer.figures_eq (h : P.ChangesDrawer P' shift R) (change : Figures → Figures)
    (hR : ∀ d d', R d d' → d'.figures = change d.figures)
    (hrecord : ∀ shiftId, shift = some shiftId → ∃ d, P.drawer shiftId = some d)
    (shiftId : ShiftId) :
    P'.figures shiftId =
      if shift = some shiftId then change (P.figures shiftId) else P.figures shiftId := by
  by_cases heq : shift = some shiftId
  · obtain ⟨d, hd⟩ := hrecord shiftId heq
    obtain ⟨d', hd', hchange⟩ := h.changed shiftId d heq hd
    rw [if_pos heq, figures, figures, hd, hd']
    exact hR d d' hchange
  · rw [if_neg heq, figures, figures, h.others shiftId heq]

theorem SameDrawers.figures_eq (h : P.SameDrawers P') (shiftId : ShiftId) :
    P'.figures shiftId = P.figures shiftId := by
  rw [figures, figures, h.drawer shiftId]

theorem drawer_eq_some {d : Drawer} :
    P.drawer shiftId = some d ↔ ∃ record, P.shift shiftId = some record ∧ record.drawer = d :=
  Option.map_eq_some_iff

/-! ## Payments -/

/-- The cash among the tenders, as a number. -/
def cashApplied (payments : List Payment) : Int :=
  ((payments.filter fun payment => decide (payment.method = .cash)).map
    (·.appliedToBill.minor)).sum

theorem cashApplied_cons :
    cashApplied (payment :: payments) =
      (if payment.method = .cash then payment.appliedToBill.minor else 0) +
        cashApplied payments := by
  unfold cashApplied
  split
  · next hcash =>
    rw [filter_cons_of_pos (by simpa using hcash), map_cons, sum_cons]
  · next hcash =>
    rw [filter_cons_of_neg (by simp [hcash]), Int.zero_add]

theorem cashApplied_of_noCash (h : ∀ payment ∈ payments, payment.method ≠ .cash) :
    cashApplied payments = 0 := by
  rw [cashApplied, filter_eq_nil_iff.2 fun payment hmem => by simp [h payment hmem]]
  rfl

theorem cashTendered_ok {currency : CurrencyCode} {taken : Money}
    (h : cashTendered currency payments = .ok taken) : taken.minor = cashApplied payments := by
  have hsum : ((payments.filter fun payment => decide (payment.method = .cash)).map
      (·.appliedToBill)).foldlM addMoney (zero currency) = .ok taken := by
    rw [foldlM_map]
    exact h
  rw [(foldlM_addMoney_eq_ok hsum).2.1, minor_zero, Int.zero_add, totalMinor, map_map]
  rfl

theorem cashOf_recordPayment {method : PaymentMethod} {applied : Money}
    (h : P.recordPayment billId method applied = .ok P') (other : BillId) :
    P'.cashOf other =
      P.cashOf other + if other = billId ∧ method = .cash then applied.minor else 0 := by
  simp only [recordPayment, bind_eq_ok, pure_eq_ok] at h
  obtain ⟨paid, hpaid, rfl⟩ := h
  have hminor : paid.cash.minor = P.cashOf billId +
      if method = .cash then applied.minor else 0 := by
    have hbefore : (P.paid[billId]?.getD (.nothing applied.currencyCode)).cash.minor =
        P.cashOf billId := by
      unfold cashOf
      cases P.paid[billId]? <;> rfl
    rw [← hbefore]
    unfold payWith at hpaid
    split at hpaid
    · next hcash =>
      simp only [bind_eq_ok, pure_eq_ok] at hpaid
      obtain ⟨cash, hadd, rfl⟩ := hpaid
      rw [if_pos hcash]
      exact (grows_of_addMoney hadd).2
    · next hcash =>
      simp only [bind_eq_ok, pure_eq_ok] at hpaid
      obtain ⟨_, _, rfl⟩ := hpaid
      rw [if_neg hcash, Int.add_zero]
  show (((P.paid.insert billId paid)[other]?).map (·.cash.minor)).getD 0 = _
  rw [get_insert]
  by_cases heq : other = billId
  · subst heq
    rw [if_pos rfl, Option.map_some, Option.getD_some, hminor]
    simp only [true_and]
  · rw [if_neg (Ne.symm heq), if_neg fun hand => heq hand.1, Int.add_zero]
    rfl

theorem applyTender_drawers
    (h : applyTender billId shift P payment = .ok P') :
    P.SameDrawers P' ∧ ∀ other, P'.cashOf other =
      P.cashOf other + if other = billId then cashApplied [payment] else 0 := by
  simp only [applyTender, bind_eq_ok] at h
  obtain ⟨recorded, hrecorded, htender⟩ := h
  have hsame : recorded.SameDrawers P' := by
    refine sameDrawers_updateShift (fun record record' hchange => ?_) htender
    simp only [bind_eq_ok, pure_eq_ok] at hchange
    obtain ⟨_, _, rfl⟩ := hchange
    rfl
  refine ⟨SameDrawers.trans ?_ hsame, fun other => ?_⟩
  · simp only [recordPayment, bind_eq_ok, pure_eq_ok] at hrecorded
    obtain ⟨_, _, rfl⟩ := hrecorded
    exact ⟨rfl, fun _ => rfl⟩
  · rw [cashOf_of_paid (paid_updateShift htender), cashOf_recordPayment hrecorded, cashApplied_cons]
    by_cases heq : other = billId <;> simp [heq, cashApplied]

/-- The tenders of a settle reach no drawer, and their cash reaches the bill. -/
theorem tenders_drawers (h : payments.foldlM (applyTender billId shift) P = .ok P') :
    P.SameDrawers P' ∧ ∀ other, P'.cashOf other =
      P.cashOf other + if other = billId then cashApplied payments else 0 := by
  induction payments generalizing P with
  | nil =>
    obtain rfl := pure_eq_ok.1 h
    exact ⟨⟨rfl, fun _ => rfl⟩, fun other => by simp [cashApplied]⟩
  | cons payment rest ih =>
    rw [foldlM_cons, bind_eq_ok] at h
    obtain ⟨first, hfirst, hrest⟩ := h
    obtain ⟨hsame, hcash⟩ := applyTender_drawers hfirst
    obtain ⟨hsame', hcash'⟩ := ih hrest
    refine ⟨hsame.trans hsame', fun other => ?_⟩
    rw [hcash', hcash, cashApplied_cons, cashApplied_cons]
    split
    · simp only [cashApplied, filter_nil, map_nil, sum_nil]
      omega
    · simp only [Int.add_zero]

theorem foldSettle_drawers {businessDate : BusinessDate}
    {settleTime : Timestamp} (h : P.foldSettle settled shift businessDate settleTime = .ok P') :
    P.SameDrawers P' ∧ ∀ other, P'.cashOf other = P.cashOf other := by
  simp only [foldSettle, recordSettleShift, recordShiftSale, collectTaxComponents, bind_eq_ok] at h
  obtain ⟨counted, hcounted, sold, hsold, htaxed⟩ := h
  have hrecord : P.SameDrawers (P.settleBillRecord settled.billId) :=
    sameDrawers_of_takings takings_settleBillRecord
  have hpaid : (P.settleBillRecord settled.billId).SameDrawers
      { P.settleBillRecord settled.billId with
        paid := (P.settleBillRecord settled.billId).paid.modify settled.billId fun paid =>
          { paid with shiftId := shift } } := ⟨rfl, fun _ => rfl⟩
  have hcount : (P.settleBillRecord settled.billId).SameDrawers counted := by
    refine hpaid.trans (sameDrawers_updateShift (fun _ _ hchange => ?_) hcounted)
    cases hchange
    rfl
  have hsell : counted.SameDrawers sold := by
    refine sameDrawers_updateShift (fun _ _ hchange => ?_) hsold
    simp only [bind_eq_ok, pure_eq_ok] at hchange
    obtain ⟨_, _, _, _, rfl⟩ := hchange
    rfl
  have hreceipt : sold.SameDrawers
      (sold.recordSettled settled.billId (.of settled businessDate settleTime)) :=
    ⟨rfl, fun _ => rfl⟩
  have htax : sold.SameDrawers P' := by
    refine hreceipt.trans (sameDrawers_updateShift (fun _ _ hchange => ?_) htaxed)
    simp only [bind_eq_ok, pure_eq_ok] at hchange
    obtain ⟨_, _, rfl⟩ := hchange
    rfl
  refine ⟨hrecord.trans (hcount.trans (hsell.trans htax)), fun other => ?_⟩
  rw [cashOf_of_paid (paid_updateShift htaxed)]
  show sold.cashOf other = _
  rw [cashOf_of_paid (paid_updateShift hsold), cashOf_of_paid (paid_updateShift hcounted)]
  -- the shift a bill was paid on is no cash
  show ((((P.settleBillRecord settled.billId).paid.modify settled.billId _)[other]?).map
    (·.cash.minor)).getD 0 = _
  have htakings : (P.settleBillRecord settled.billId).paid = P.paid :=
    congrArg Takings.paid takings_settleBillRecord
  rw [get_modify, ← cashOf_of_paid htakings other]
  split
  · next heq =>
    rw [Option.map_map, heq]
    rfl
  · rfl

/-- A settle's cash goes to the shift it is stamped with and to its bill. -/
theorem foldSettled_drawers {ctx : DecisionCtx} {cashTaken : Money}
    (h : foldSettled P settled shift payments ctx cashTaken = .ok P') :
    P.ChangesDrawer P' shift (Drawer.Takes cashTaken.minor) ∧
      ∀ other, P'.cashOf other =
        P.cashOf other + if other = settled.billId then cashApplied payments else 0 := by
  simp only [foldSettled, bind_eq_ok] at h
  obtain ⟨tendered, htendered, folded, hfolded, hcash⟩ := h
  obtain ⟨hsame, hcashOf⟩ := tenders_drawers htendered
  obtain ⟨hsame', hcashOf'⟩ := foldSettle_drawers hfolded
  have htakes : folded.ChangesDrawer P' shift (Drawer.Takes cashTaken.minor) := by
    refine changesDrawer_updateShift (fun record record' hchange => ?_) hcash
    simp only [bind_eq_ok, pure_eq_ok] at hchange
    obtain ⟨cash, hadd, rfl⟩ := hchange
    exact ⟨cash, grows_of_addMoney hadd, rfl⟩
  refine ⟨hsame.changes (hsame'.changes htakes), fun other => ?_⟩
  rw [cashOf_of_paid (paid_updateShift hcash), hcashOf', hcashOf]

/-- A void's cash leaves the shift it is stamped with. -/
theorem voidSettledRecord_drawers (h : P.voidSettledRecord billId shift = .ok P') :
    P.ChangesDrawer P' shift (Drawer.GivesBack (P.cashOf billId)) ∧
      ∀ other, P'.cashOf other = P.cashOf other := by
  simp only [voidSettledRecord, bind_eq_ok, pure_eq_ok] at h
  obtain ⟨paidBack, hpaidBack, rfl⟩ := h
  have hgives : P.ChangesDrawer paidBack shift (Drawer.GivesBack (P.cashOf billId)) := by
    refine changesDrawer_updateShift (fun record record' hchange => ?_) hpaidBack
    simp only [bind_eq_ok, pure_eq_ok] at hchange
    obtain ⟨voided, hvoided, rfl⟩ := hchange
    refine ⟨voided, ?_, rfl⟩
    unfold cashOf
    cases hpaid : P.paid[billId]? with
    | none =>
      rw [hpaid] at hvoided
      cases hvoided
      exact ⟨rfl, (Int.add_zero _).symm⟩
    | some paid =>
      rw [hpaid] at hvoided
      exact grows_of_addMoney hvoided
  refine ⟨hgives.andSame (sameDrawers_of_takings takings_voidBillRecord), fun other => ?_⟩
  rw [cashOf_of_paid (congrArg Takings.paid takings_voidBillRecord),
    cashOf_of_paid (paid_updateShift hpaidBack)]

theorem recordMovement_drawers {movement : CashMovement}
    (h : P.recordMovement shiftId movement amount = .ok P') :
    P.ChangesDrawer P' (some shiftId) (Drawer.Moves movement amount.minor) ∧
      ∀ other, P'.cashOf other = P.cashOf other := by
  refine ⟨changesDrawer_updateShift (fun record record' hchange => ?_) h,
    cashOf_of_paid (paid_updateShift h)⟩
  cases movement <;> simp only [moveCash, bind_eq_ok, pure_eq_ok] at hchange <;>
    obtain ⟨figure, hadd, rfl⟩ := hchange <;> exact ⟨figure, grows_of_addMoney hadd, rfl⟩

/-! ## Shifts -/

theorem drawer_openShiftRecord :
    (P.openShiftRecord shiftId record).drawer other =
      if shiftId = other then some record.drawer else P.drawer other := by
  rw [drawer, shift, openShiftRecord, get_insert]
  split <;> rfl

theorem openShiftOf_openShiftRecord :
    (P.openShiftRecord shiftId record).openShiftOf till =
      if record.till = till then some shiftId else P.openShiftOf till :=
  get_insert ..

theorem drawer_recordShiftCount {counted : Money} {breakdown : CountBreakdown}
    {state : ShiftState} :
    (P.recordShiftCount shiftId counted breakdown state).drawer other =
      if shiftId = other then (P.drawer other).map fun d => { d with state := state }
      else P.drawer other := by
  rw [drawer, shift, recordShiftCount, get_modify]
  by_cases heq : shiftId = other
  · subst heq
    rw [if_pos rfl, if_pos rfl, drawer, Option.map_map, Option.map_map]
    rfl
  · rw [if_neg heq, if_neg heq]
    rfl

theorem drawer_closeShiftRecord :
    (P.closeShiftRecord shiftId).drawer other =
      if shiftId = other then (P.drawer other).map fun d => { d with state := .closed }
      else P.drawer other := by
  unfold closeShiftRecord
  cases hrecord : P.shift shiftId with
  | none =>
    by_cases heq : shiftId = other
    · subst heq
      rw [if_pos rfl, drawer, hrecord]
      rfl
    · rw [if_neg heq]
  | some record =>
    rw [drawer, shift]
    rw [get_insert]
    by_cases heq : shiftId = other
    · subst heq
      rw [if_pos rfl, if_pos rfl, drawer, hrecord]
      rfl
    · rw [if_neg heq, if_neg heq]
      rfl

/-- Whether a shift is one of a drawer that closes. -/
def closesOn (P : Projection) (till : Option DeviceId) (shiftIds : List ShiftId)
    (shiftId : ShiftId) :
    Bool :=
  decide (shiftId ∈ shiftIds) && (P.drawer shiftId).any fun d => decide (d.till = till)

theorem closesOn_singleton (hrecord : P.shift shiftId = some record) :
    P.closesOn till [shiftId] other = true ↔ other = shiftId ∧ record.till = till := by
  unfold closesOn
  by_cases heq : other = shiftId
  · simp [heq, drawer, hrecord, ShiftRecord.drawer]
  · simp [heq]

/-- A drawer whose shift closes trades on none; the others trade on. -/
theorem openShiftOf_closeShiftRecord :
    (P.closeShiftRecord shiftId).openShiftOf till = some other ↔
      P.openShiftOf till = some other ∧ P.closesOn till [shiftId] other ≠ true := by
  cases hrecord : P.shift shiftId with
  | none =>
    have hcloses : P.closesOn till [shiftId] other ≠ true := by
      by_cases heq : other = shiftId
      · simp [closesOn, heq, drawer, hrecord]
      · simp [closesOn, heq]
    unfold closeShiftRecord
    rw [hrecord]
    exact (and_iff_left hcloses).symm
  | some record =>
    rw [ne_eq, closesOn_singleton hrecord]
    unfold closeShiftRecord
    rw [hrecord]
    show (if P.openShiftOf record.till = some shiftId then P.openShifts.erase record.till
      else P.openShifts)[till]? = some other ↔ P.openShifts[till]? = some other ∧ _
    split
    · next hopen =>
      rw [get_erase]
      by_cases htill : record.till = till
      · have hother : P.openShifts[till]? = some shiftId := htill ▸ hopen
        rw [if_pos htill, hother]
        constructor
        · intro hnone
          contradiction
        · rintro ⟨heq, hne⟩
          exact absurd ⟨(Option.some.inj heq).symm, htill⟩ hne
      · rw [if_neg htill]
        exact (and_iff_left fun hand => htill hand.2).symm
    · next hopen =>
      refine (and_iff_left_of_imp ?_).symm
      rintro hother ⟨rfl, rfl⟩
      exact hopen hother

theorem paid_closeShiftRecord : (P.closeShiftRecord shiftId).paid = P.paid := by
  unfold closeShiftRecord
  split <;> rfl

theorem closesOn_closeShiftRecord :
    (P.closeShiftRecord shiftId).closesOn till shiftIds other = P.closesOn till shiftIds other := by
  rw [closesOn, closesOn, drawer_closeShiftRecord]
  split
  · cases P.drawer other <;> rfl
  · rfl

theorem closesOn_cons {first : ShiftId} {rest : List ShiftId} :
    P.closesOn till (first :: rest) other = true ↔
      P.closesOn till [first] other = true ∨ P.closesOn till rest other = true := by
  simp only [closesOn, mem_cons, Bool.and_eq_true, decide_eq_true_eq, not_mem_nil, or_false]
  exact or_and_right

/-- Shifts that close, one after another. -/
theorem closeShiftRecords :
    (∀ other, (shiftIds.foldl closeShiftRecord P).drawer other =
      if other ∈ shiftIds then (P.drawer other).map fun d => { d with state := .closed }
      else P.drawer other) ∧
    (∀ till other, (shiftIds.foldl closeShiftRecord P).openShiftOf till = some other ↔
      P.openShiftOf till = some other ∧ P.closesOn till shiftIds other ≠ true) ∧
    (shiftIds.foldl closeShiftRecord P).paid = P.paid := by
  induction shiftIds generalizing P with
  | nil => exact ⟨fun _ => rfl, fun _ _ => (and_iff_left Bool.false_ne_true).symm, rfl⟩
  | cons first rest ih =>
    obtain ⟨hdrawer, hopen, hpaid⟩ := @ih (P.closeShiftRecord first)
    rw [foldl_cons]
    refine ⟨fun other => ?_, fun till other => ?_, hpaid.trans paid_closeShiftRecord⟩
    · rw [hdrawer, drawer_closeShiftRecord]
      by_cases hfirst : first = other <;> by_cases hrest : other ∈ rest <;>
        simp [hfirst, hrest, eq_comm, Option.map_map, Function.comp_def]
    · rw [hopen, openShiftOf_closeShiftRecord, closesOn_closeShiftRecord, and_assoc]
      exact and_congr_right fun _ => (not_or.symm.trans (not_congr closesOn_cons.symm))

/-! ## The drawer a command acts on -/

variable {env : Env} {scope : TillScope}

theorem exists_of_drawerShift (h : P.drawerShift env scope = some shiftId) :
    ∃ till, P.openShiftOf till = some shiftId := by
  unfold drawerShift at h
  split at h
  · split at h
    · exact ⟨_, h⟩
    · contradiction
  · exact ⟨none, h⟩

/-- The shift a device's takings go to is the one its drawer trades on. -/
theorem drawerShift_of_cashDrawer {drawer : Option DeviceId}
    (h : P.cashDrawer env scope = .ok drawer) : P.drawerShift env scope = P.openShiftOf drawer := by
  unfold cashDrawer at h
  unfold drawerShift
  by_cases hmodel : P.drawerModel env = .perTerminal
  · rw [if_neg (not_not.2 hmodel)] at h
    rw [if_pos hmodel]
    cases hown : scope.own with
    | none =>
      rw [hown] at h
      contradiction
    | some till =>
      rw [hown] at h
      dsimp only at h
      split at h
      · cases h
        rfl
      · contradiction
  · rw [if_pos hmodel] at h
    rw [if_neg hmodel]
    cases h
    rfl

end Projection

namespace Env

variable {env : Env} {P : Projection} {start ctx : DecisionCtx} {scope : TillScope}
  {approval : Option Approval} {drawer : SettleDrawer}

/-- A shift that cash goes to, or comes from, is not one that was counted. -/
def TakesCash (P : Projection) (shift : Option ShiftId) : Prop :=
  ∀ shiftId d, shift = some shiftId → P.drawer shiftId = some d → d.state ≠ .counted

theorem cashDrawerFor_ok (h : env.cashDrawerFor P start scope approval = .ok (drawer, ctx)) :
    drawer.shift = P.drawerShift env scope ∧ TakesCash P drawer.shift := by
  simp only [cashDrawerFor, bind_eq_ok, pure_eq_ok, Prod.mk.injEq] at h
  obtain ⟨till, htill, _, _, ⟨overrider, _⟩, hoverrider, rfl, _⟩ := h
  refine ⟨rfl, fun shiftId d hshift hd => ?_⟩
  obtain ⟨record, hrecord, rfl⟩ := drawer_eq_some.1 hd
  have hopen : P.openShiftOf till = some shiftId :=
    (drawerShift_of_cashDrawer htill).symm.trans hshift
  simp only [openShiftRecordOf, hopen, hrecord, Option.bind_eq_bind, Option.bind_some,
    Option.pure_def, Option.map_some, cashOverrider, openShiftTakesCash, bind_eq_ok,
    refuseIf_eq_ok] at hoverrider
  exact hoverrider.choose_spec.1

theorem settleDrawer_ok {payments : List Payment}
    (h : env.settleDrawer P start scope payments approval = .ok (drawer, ctx)) :
    drawer.shift = P.drawerShift env scope ∧
      (Projection.cashApplied payments ≠ 0 → TakesCash P drawer.shift) := by
  unfold settleDrawer at h
  split at h
  · obtain ⟨hshift, htakes⟩ := cashDrawerFor_ok h
    exact ⟨hshift, fun _ => htakes⟩
  next hnone =>
    simp only [bind_eq_ok, pure_eq_ok, Prod.mk.injEq] at h
    obtain ⟨_, _, rfl, _⟩ := h
    refine ⟨rfl, fun hcash => absurd (cashApplied_of_noCash fun payment hmem hmethod => ?_) hcash⟩
    exact hnone (any_eq_true.2 ⟨payment, hmem, decide_eq_true hmethod⟩)

theorem voidDrawer_ok {cash : Money}
    (h : env.voidDrawer P start scope cash approval = .ok (drawer, ctx)) :
    drawer.shift = P.drawerShift env scope ∧ (cash.minor ≠ 0 → TakesCash P drawer.shift) := by
  unfold voidDrawer at h
  split at h
  next hzero =>
    obtain ⟨rfl, _⟩ := h
    exact ⟨rfl, fun hcash => absurd (isZero_iff.1 hzero) hcash⟩
  · obtain ⟨hshift, htakes⟩ := cashDrawerFor_ok h
    exact ⟨hshift, fun _ => htakes⟩

end Env

end PosFramework
