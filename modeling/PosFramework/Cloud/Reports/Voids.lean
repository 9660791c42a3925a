import PosFramework.Cloud.Reports.TakeBack

set_option autoImplicit false

/-! # A bill voided after payment

The rollup keeps every settled bill under its day, and a void takes the bill it finds back out of
that day. A log in which a bill is settled once and voided later is set against the same log without
the bill's settles and voids: the two are folded side by side, and at every moment the bills that
stand in the one are those that stand in the other, with the bill beside them between its settle and
its void. -/

namespace PosFramework

open Std (ExtTreeMap)
open RecordedEvent KeptBills List Option Entries Keyed Prod

/-! ## The bills that are kept -/

namespace KeptBills

variable {kept another : KeptBills} {billId : BillId}

/-- The bill kept under a day and an id. -/
def bill? (kept : KeptBills) (date : BusinessDate) (billId : BillId) : Option KeptBill :=
  kept.days[date]?.bind (·[billId]?)

/-- The days a bill is kept under, in order, with what is kept. -/
def keptOn (kept : KeptBills) (billId : BillId) : List (BusinessDate × KeptBill) :=
  kept.days.toList.filterMap fun entry => entry.2[billId]?.map fun bill => (entry.1, bill)

variable {bill : KeptBill}

theorem mem_keptOn {date : BusinessDate} :
    (date, bill) ∈ kept.keptOn billId ↔ kept.bill? date billId = some bill := by
  rw [keptOn, mem_filterMap, bill?, bind_eq_some_iff]
  constructor
  · rintro ⟨⟨day, bills⟩, hentry, hbill⟩
    obtain ⟨found, hfound, hpair⟩ := map_eq_some_iff.1 hbill
    obtain ⟨rfl, rfl⟩ := Prod.mk.inj hpair
    exact ⟨bills, ExtTreeMap.mem_toList_iff_getElem?_eq_some.1 hentry, hfound⟩
  · rintro ⟨bills, hbills, hbill⟩
    refine ⟨(date, bills), ExtTreeMap.mem_toList_iff_getElem?_eq_some.2 hbills, ?_⟩
    rw [hbill]
    rfl

theorem keptOn_pairwise : (kept.keptOn billId).Pairwise fun one two => one.1 < two.1 := by
  refine List.Pairwise.filterMap _ ?_ ExtTreeMap.ordered_keys_toList
  intro one two hlt pair hpair pair' hpair'
  obtain ⟨bill, -, rfl⟩ := map_eq_some_iff.1 hpair
  obtain ⟨bill', -, rfl⟩ := map_eq_some_iff.1 hpair'
  exact compare_lt_iff_lt.1 hlt

theorem find_eq (today : BusinessDate) :
    kept.find today billId =
      ((kept.bill? today billId).map fun bill => (today, bill)).or
        (kept.keptOn billId).getLast? := by
  rw [find, ← head?_filterMap, filterMap_reverse, head?_reverse]
  rfl

/-- Where a bill is found is told by the days it is kept under. -/
theorem find_congr (h : ∀ date, kept.bill? date billId = another.bill? date billId)
    (today : BusinessDate) : kept.find today billId = another.find today billId := by
  have hsame : kept.keptOn billId = another.keptOn billId := by
    have hirrefl : Std.Irrefl fun one two : BusinessDate × KeptBill => one.1 < two.1 :=
      ⟨fun one => lt_irrefl one.1⟩
    have hantisymm : Std.Antisymm fun one two : BusinessDate × KeptBill => one.1 < two.1 :=
      ⟨fun one two hlt hgt => absurd hgt hlt.asymm⟩
    refine Pairwise.eq_of_mem_iff keptOn_pairwise keptOn_pairwise ?_
    rintro ⟨date, bill⟩
    rw [mem_keptOn, mem_keptOn, h date]
  rw [find_eq, find_eq, h today, hsame]

theorem bill?_of_find {today date : BusinessDate} (h : kept.find today billId = some (date, bill)) :
    kept.bill? date billId = some bill := by
  rw [find_eq, or_eq_some_iff] at h
  rcases h with htoday | ⟨-, hlast⟩
  · obtain ⟨found, hfound, hpair⟩ := map_eq_some_iff.1 htoday
    obtain ⟨rfl, rfl⟩ := Prod.mk.inj hpair
    exact hfound
  · exact mem_keptOn.1 (mem_of_getLast? hlast)

theorem find_of_none (h : ∀ date, kept.bill? date billId = none) (today : BusinessDate) :
    kept.find today billId = none := by
  cases hfind : kept.find today billId with
  | none => rfl
  | some =>
    have hkept := bill?_of_find hfind
    rw [h] at hkept
    cases hkept

/-- A bill kept under one day is found there, whatever the day of the void. -/
theorem find_of_only {settledOn : BusinessDate}
    (h : ∀ date, kept.bill? date billId = if date = settledOn then some bill else none)
    (today : BusinessDate) : kept.find today billId = some (settledOn, bill) := by
  have hmem : (settledOn, bill) ∈ kept.keptOn billId :=
    mem_keptOn.2 ((h settledOn).trans (if_pos rfl))
  cases hfind : kept.find today billId with
  | none =>
    rw [find_eq, or_eq_none_iff, getLast?_eq_none_iff] at hfind
    rw [hfind.2] at hmem
    cases hmem
  | some =>
    have hkept := bill?_of_find hfind
    rw [h] at hkept
    split at hkept
    case isTrue hdate => rw [← hdate, some.inj hkept]
    case isFalse => cases hkept

end KeptBills

/-! ## What an event does to the bills -/

namespace RecordedEvent

def settles (billId : BillId) (event : RecordedEvent) : Bool :=
  match event.data with
  | .known (.billingBillSettled bill) => bill.billId = billId
  | _ => false

def voids (billId : BillId) (event : RecordedEvent) : Bool :=
  match event.data with
  | .known (.billingBillVoided voided _) => voided = billId
  | _ => false

/-- The event settles or voids the bill. -/
def concerns (billId : BillId) (event : RecordedEvent) : Bool :=
  event.settles billId || event.voids billId

/-- The event neither settles nor voids a bill. -/
def NoBill (event : RecordedEvent) : Prop :=
  (∀ bill, event.data ≠ .known (.billingBillSettled bill)) ∧
    ∀ billId reason, event.data ≠ .known (.billingBillVoided billId reason)

theorem bill_cases (event : RecordedEvent) :
    (∃ bill, event.data = .known (.billingBillSettled bill)) ∨
      (∃ billId reason, event.data = .known (.billingBillVoided billId reason)) ∨ event.NoBill := by
  by_cases hsettled : ∃ bill, event.data = .known (.billingBillSettled bill)
  · exact .inl hsettled
  · simp only [not_exists] at hsettled
    exact .inr (or_iff_not_imp_left.2 fun hvoided => ⟨hsettled, by simpa using hvoided⟩)

end RecordedEvent

/-- A day with what no bill adds to it left out. -/
def DailyRevenue.billed (day : DailyRevenue) : DailyRevenue :=
  { day with currencyCode := none, byItem := ∅, byTender := ∅ }

/-- What bills have added to a trading day. -/
def billedAt (revenue : ExtTreeMap BusinessDate DailyRevenue) (date : BusinessDate) :
    DailyRevenue :=
  (revenue[date]?.getD (emptyRevenue date)).billed

section Billed

variable (revenue : ExtTreeMap BusinessDate DailyRevenue) (date another : BusinessDate)

variable (change : DailyRevenue → DailyRevenue)

theorem billedAt_upsert (hchange : ∀ day, (change day).billed = (change day.billed).billed) :
    billedAt (upsert revenue date (emptyRevenue date) change) another =
      if date = another then (change (billedAt revenue date)).billed
        else billedAt revenue another := by
  rw [billedAt, get_upsert]
  split
  · rw [getD_some, hchange, billedAt]
  · rw [billedAt]

theorem billedAt_upsert_same (hsame : ∀ day, (change day).billed = day.billed) :
    billedAt (upsert revenue date (emptyRevenue date) change) another =
      billedAt revenue another := by
  rw [billedAt, get_upsert]
  split
  · next hdate =>
    rw [getD_some, hsame, hdate, billedAt]
  · rw [billedAt]

theorem billedAt_modify_same (hsame : ∀ day, (change day).billed = day.billed) :
    billedAt (revenue.modify date change) another = billedAt revenue another := by
  rw [billedAt, get_modify, billedAt]
  by_cases hdate : date = another
  · obtain rfl := hdate
    rw [if_pos rfl]
    cases revenue[date]? with
    | none => rfl
    | some day => exact hsame day
  · rw [if_neg hdate]

end Billed

section Events

variable (sums : Sums) (rollups : Rollups) (event : RecordedEvent)

theorem billedAt_fold_settled {bill : BillingBillSettled}
    (hdata : event.data = .known (.billingBillSettled bill)) (date : BusinessDate) :
    billedAt (rollups.fold sums event).revenue date =
      if event.businessDate = date then
        ((billedAt rollups.revenue event.businessDate).settle sums bill).billed
      else billedAt rollups.revenue date := by
  simp only [Rollups.fold, foldVoids, foldLineUpdates, foldTenders, foldRevenue, hdata]
  exact billedAt_upsert _ _ _ _ fun day => rfl

theorem billedAt_fold_voided {billId : BillId} {reason : ReasonCodeId}
    (hdata : event.data = .known (.billingBillVoided billId reason)) (date : BusinessDate) :
    billedAt (rollups.fold sums event).revenue date =
      (rollups.voids.find event.businessDate billId).elim
      (billedAt rollups.revenue date) fun found =>
        if found.1 = date then ((billedAt rollups.revenue found.1).takeBack sums found.2).billed
        else billedAt rollups.revenue date := by
  simp only [Rollups.fold, foldVoids, foldLineUpdates, foldTenders, foldRevenue, hdata, foldVoid]
  cases rollups.voids.find event.businessDate billId with
  | none => rfl
  | some => exact billedAt_upsert _ _ _ _ fun day => rfl

theorem billedAt_fold_neither (hnone : event.NoBill) (date : BusinessDate) :
    billedAt (rollups.fold sums event).revenue date = billedAt rollups.revenue date := by
  simp only [Rollups.fold]
  cases hdata : event.data with
  | known payload =>
    cases payload with
    | billingBillSettled bill => exact absurd hdata (hnone.1 bill)
    | billingBillVoided billId reason => exact absurd hdata (hnone.2 billId reason)
    | billingPaymentCaptured =>
      have hpayment : billedAt (foldTenders sums rollups.revenue event) date =
          billedAt rollups.revenue date := by
        simp only [foldTenders, hdata]
        split
        · exact billedAt_upsert_same _ _ _ _ fun day => rfl
        · rfl
      simp only [foldVoids, foldLineUpdates, foldRevenue, hdata]
      split <;> exact hpayment
    | salesOrderLineAdded line =>
      simp only [foldVoids, foldLineUpdates, foldTenders, foldRevenue, hdata]
      exact billedAt_upsert_same _ _ _ _ fun day => rfl
    | salesOrderLineUpdated =>
      simp only [foldVoids, foldLineUpdates, foldTenders, foldRevenue, hdata]
      split
      · exact billedAt_modify_same _ _ _ _ fun day => rfl
      · rfl
    | _ => simp only [foldVoids, foldLineUpdates, foldTenders, foldRevenue, hdata]
  | _ => simp only [foldVoids, foldLineUpdates, foldTenders, foldRevenue, hdata]

theorem bill?_fold_settled {bill : BillingBillSettled}
    (hdata : event.data = .known (.billingBillSettled bill)) (date : BusinessDate)
    (billId : BillId) :
    (rollups.fold sums event).voids.bill? date billId =
      if event.businessDate = date ∧ bill.billId = billId then
        some (keptBill sums bill (rollups.voids.pendingCash[bill.billId]?.getD 0))
      else rollups.voids.bill? date billId := by
  have hdays : (rollups.fold sums event).voids.days = upsert rollups.voids.days event.businessDate ∅
      fun bills => bills.insert bill.billId
        (keptBill sums bill (rollups.voids.pendingCash[bill.billId]?.getD 0)) := by
    simp only [Rollups.fold, foldVoids, hdata]
  rw [bill?, hdays, get_upsert]
  split
  · next hdate =>
    rw [bind_some, get_insert]
    split
    · next hbill =>
      rw [if_pos ⟨hdate, hbill⟩]
    · next hbill =>
      rw [if_neg fun h => hbill h.2, bill?, hdate]
      cases rollups.voids.days[date]? with
      | none => simp
      | some => rfl
  · next hdate =>
    rw [if_neg fun h => hdate h.1, bill?]

theorem bill?_fold_voided {voided : BillId} {reason : ReasonCodeId}
    (hdata : event.data = .known (.billingBillVoided voided reason)) (date : BusinessDate)
    (billId : BillId) :
    (rollups.fold sums event).voids.bill? date billId =
      (rollups.voids.find event.businessDate voided).elim
      (rollups.voids.bill? date billId) fun found =>
        if found.1 = date ∧ voided = billId then none else rollups.voids.bill? date billId := by
  have hkept : (rollups.fold sums event).voids.days =
      (rollups.voids.find event.businessDate voided).elim rollups.voids.days fun found =>
        rollups.voids.days.modify found.1 (·.erase voided) := by
    simp only [Rollups.fold, foldVoids, hdata, foldVoid]
    cases rollups.voids.find event.businessDate voided <;> rfl
  rw [bill?, hkept]
  cases rollups.voids.find event.businessDate voided with
  | none => rfl
  | some found =>
    rw [elim_some, elim_some, get_modify, bill?]
    split
    · next hdate =>
      rw [hdate]
      cases rollups.voids.days[date]? with
      | none => simp
      | some =>
        rw [map_some, bind_some, bind_some, get_erase]
        split
        · next hbill =>
          rw [if_pos ⟨rfl, hbill⟩]
        · next hbill =>
          rw [if_neg fun h => hbill h.2]
    · next hdate =>
      rw [if_neg fun h => hdate h.1]

theorem bill?_fold_neither (hnone : event.NoBill) (date : BusinessDate) (billId : BillId) :
    (rollups.fold sums event).voids.bill? date billId = rollups.voids.bill? date billId := by
  have hdays : (rollups.fold sums event).voids.days = rollups.voids.days := by
    simp only [Rollups.fold, foldVoids]
    split
    case h_1 => split <;> rfl
    case h_2 bill hdata => exact absurd hdata (hnone.1 bill)
    case h_5 billId reason hdata => exact absurd hdata (hnone.2 billId reason)
    all_goals rfl
  rw [bill?, hdays, bill?]

/-- The cash applied to a bill whose settle is to come, after an event. -/
def pendingAfter (billId : BillId) (pending : Option Int) : Option Int :=
  match event.data with
  | .known (.billingPaymentCaptured payment) =>
    if payment.method.known = .cash ∧ payment.billId = billId then
      some (sums.amount (pending.getD 0 + payment.appliedToBill.minor))
    else pending
  | .known (.billingBillSettled bill) => if bill.billId = billId then none else pending
  | _ => pending

theorem pendingCash_fold (billId : BillId) :
    (rollups.fold sums event).voids.pendingCash[billId]? =
      pendingAfter sums event billId rollups.voids.pendingCash[billId]? := by
  cases hdata : event.data with
  | known payload =>
    cases payload with
    | billingPaymentCaptured payment =>
      simp only [Rollups.fold, foldVoids, pendingAfter, hdata]
      by_cases hcash : payment.method.known = .cash
      · simp only [hcash, if_true, true_and, get_upsert]
        split
        · next hbill =>
          rw [hbill]
        · rfl
      · simp only [hcash, if_false, false_and]
    | billingBillSettled bill =>
      simp only [Rollups.fold, foldVoids, pendingAfter, hdata, get_erase]
    | billingBillVoided =>
      simp only [Rollups.fold, foldVoids, pendingAfter, hdata, foldVoid]
      split <;> rfl
    | _ => simp only [Rollups.fold, foldVoids, pendingAfter, hdata]
  | _ => simp only [Rollups.fold, foldVoids, pendingAfter, hdata]

end Events

/-! ## The bills that stand -/

/-- A bill that was settled and not voided since. -/
structure StandingBill where
  businessDate : BusinessDate
  billId : BillId
  bill : KeptBill
deriving DecidableEq

/-- The bills that stand on one day. -/
def onDay (date : BusinessDate) (standing : List StandingBill) : List KeptBill :=
  (standing.filter fun entry => entry.businessDate = date).map (·.bill)

theorem onDay_cons (date : BusinessDate) (entry : StandingBill) (standing : List StandingBill) :
    onDay date (entry :: standing) =
      if entry.businessDate = date then entry.bill :: onDay date standing
      else onDay date standing := by
  split
  · next hdate =>
    rw [onDay, filter_cons_of_pos (by simpa using hdate), map_cons, onDay]
  · next hdate =>
    rw [onDay, filter_cons_of_neg (by simpa using hdate), onDay]

theorem onDay_perm (date : BusinessDate) {standing another : List StandingBill}
    (h : standing.Perm another) :
    (onDay date standing).Perm (onDay date another) := (h.filter _).map _

/-- The rollup has the bills that stand: they make up its days, and what it keeps is among them. -/
structure Stands (rollups : Rollups) (standing : List StandingBill) : Prop where
  days : ∀ date, DayStands (billedAt rollups.revenue date) (onDay date standing)
  kept : ∀ date billId bill, rollups.voids.bill? date billId = some bill →
    ⟨date, billId, bill⟩ ∈ standing

/-- The bills that stand after an event. -/
def standingAfter (rollups : Rollups) (event : RecordedEvent) (standing : List StandingBill) :
    List StandingBill :=
  match event.data with
  | .known (.billingBillSettled bill) =>
    ⟨event.businessDate, bill.billId,
      keptBill .exact bill (rollups.voids.pendingCash[bill.billId]?.getD 0)⟩ :: standing
  | .known (.billingBillVoided billId _) =>
    (rollups.voids.find event.businessDate billId).elim standing fun found =>
      standing.erase ⟨found.1, billId, found.2⟩
  | _ => standing

theorem DayStands.billed {day : DailyRevenue} {bills : List KeptBill} (h : DayStands day bills) :
    DayStands day.billed bills :=
  ⟨h.bills, h.gross, h.reductions, h.serviceCharge, h.tax, h.net, h.fees, h.components⟩

namespace Stands

variable {rollups : Rollups} {event : RecordedEvent} {standing : List StandingBill}

theorem empty : Stands .empty [] where
  days := by
    intro date
    have hnone : billedAt Rollups.empty.revenue date = (emptyRevenue date).billed := by
      simp [billedAt, Rollups.empty]
    rw [hnone]
    exact (DayStands.empty date).billed
  kept := by
    intro date billId bill h
    simp [bill?, Rollups.empty] at h

theorem settled (h : Stands rollups standing) {bill : BillingBillSettled}
    (hdata : event.data = .known (.billingBillSettled bill)) :
    Stands (rollups.fold .exact event) (standingAfter rollups event standing) := by
  simp only [standingAfter, hdata]
  constructor
  · intro date
    rw [billedAt_fold_settled .exact rollups event hdata, onDay_cons]
    split
    · next hdate =>
      rw [hdate]
      exact ((h.days date).settle bill _).billed
    · exact h.days date
  · intro date billId kept hkept
    rw [bill?_fold_settled .exact rollups event hdata] at hkept
    split at hkept
    case isTrue hsame =>
      obtain ⟨rfl, rfl⟩ := hsame
      rw [some.inj hkept]
      exact mem_cons_self
    case isFalse => exact mem_cons_of_mem _ (h.kept _ _ _ hkept)

theorem voided (h : Stands rollups standing) {billId : BillId} {reason : ReasonCodeId}
    (hdata : event.data = .known (.billingBillVoided billId reason)) :
    Stands (rollups.fold .exact event) (standingAfter rollups event standing) := by
  have hdays := billedAt_fold_voided .exact rollups event hdata
  have hbills := bill?_fold_voided .exact rollups event hdata
  simp only [standingAfter, hdata]
  cases hfind : rollups.voids.find event.businessDate billId with
  | none =>
    simp only [hfind, elim_none] at hdays hbills
    constructor
    · intro date
      rw [hdays]
      exact h.days date
    · intro date another bill hkept
      rw [hbills] at hkept
      exact h.kept date another bill hkept
  | some found =>
    obtain ⟨settledOn, bill⟩ := found
    simp only [hfind, elim_some] at hdays hbills
    have hmem := h.kept _ _ _ (bill?_of_find hfind)
    constructor
    · intro date
      have hday := (h.days date).perm (onDay_perm date (perm_cons_erase hmem))
      rw [onDay_cons] at hday
      rw [hdays]
      by_cases hdate : settledOn = date
      · obtain rfl := hdate
        rw [if_pos rfl] at hday ⊢
        exact hday.takeBack.billed
      · rw [if_neg hdate] at hday ⊢
        exact hday
    · intro date another kept hkept
      rw [hbills] at hkept
      split at hkept
      case isTrue => cases hkept
      case isFalse hne =>
        refine (mem_erase_of_ne fun heq => hne ?_).2 (h.kept _ _ _ hkept)
        obtain ⟨hdate, hbill, -⟩ := StandingBill.mk.inj heq
        exact ⟨hdate.symm, hbill.symm⟩

theorem step (h : Stands rollups standing) (event : RecordedEvent) :
    Stands (rollups.fold .exact event) (standingAfter rollups event standing) := by
  rcases event.bill_cases with ⟨bill, hdata⟩ | ⟨billId, reason, hdata⟩ | hnone
  · exact h.settled hdata
  · exact h.voided hdata
  · have hsame : standingAfter rollups event standing = standing := by
      unfold standingAfter
      split
      case h_1 bill hdata => exact absurd hdata (hnone.1 bill)
      case h_2 billId reason hdata => exact absurd hdata (hnone.2 billId reason)
      case h_3 => rfl
    rw [hsame]
    constructor
    · intro date
      rw [billedAt_fold_neither .exact rollups event hnone]
      exact h.days date
    · intro date billId bill hkept
      rw [bill?_fold_neither .exact rollups event hnone] at hkept
      exact h.kept date billId bill hkept

end Stands

/-! ## Two logs side by side -/

/-- The bills voided after payment on a day, and what they came to. -/
def voidedAt (rollups : Rollups) (date : BusinessDate) : Int × Int :=
  let voided := (billedAt rollups.revenue date).voidedAfterPayment
  (voided.bills, voided.amount)

/-- What an event adds to them. -/
def voidedBy (rollups : Rollups) (event : RecordedEvent) (date : BusinessDate) : Int × Int :=
  match event.data with
  | .known (.billingBillVoided billId _) =>
    (rollups.voids.find event.businessDate billId).elim 0 fun found =>
      if found.1 = date then (1, found.2.totalDue) else 0
  | _ => 0

theorem voidedAt_fold (rollups : Rollups) (event : RecordedEvent) (date : BusinessDate) :
    voidedAt (rollups.fold .exact event) date = voidedAt rollups date +
      voidedBy rollups event date := by
  rcases event.bill_cases with ⟨bill, hdata⟩ | ⟨billId, reason, hdata⟩ | hnone
  · simp only [voidedAt, voidedBy, hdata,
      billedAt_fold_settled .exact rollups event hdata, add_zero]
    split
    case isTrue hdate => rw [← hdate]; rfl
    case isFalse => rfl
  · simp only [voidedAt, voidedBy, hdata, billedAt_fold_voided .exact rollups event hdata]
    cases rollups.voids.find event.businessDate billId with
    | none => simp only [elim_none, add_zero]
    | some =>
      simp only [elim_some]
      split
      case isTrue hdate => rw [← hdate]; rfl
      case isFalse => simp only [add_zero]
  · have hzero : voidedBy rollups event date = 0 := by
      unfold voidedBy
      split
      case h_1 billId reason hdata => exact absurd hdata (hnone.2 billId reason)
      case h_2 => rfl
    rw [hzero, add_zero, voidedAt, billedAt_fold_neither .exact rollups event hnone, voidedAt]

/-- Two rollups, the second without what one bill did. `own` is the bill while it stands, `undone`
    what its void has counted. -/
structure Beside (billId : BillId) (own : Option (BusinessDate × KeptBill))
    (undone : Option (BusinessDate × Int)) (rollups without : Rollups) : Prop where
  standing : ∃ standing another, Stands rollups standing ∧ Stands without another ∧
    standing.Perm ((own.map fun found => ⟨found.1, billId, found.2⟩).toList ++ another)
  bills : ∀ date other, other ≠ billId →
    rollups.voids.bill? date other = without.voids.bill? date other
  ownBill : ∀ date, rollups.voids.bill? date billId =
    own.bind fun found => if date = found.1 then some found.2 else none
  pending : ∀ other, other ≠ billId →
    rollups.voids.pendingCash[other]? = without.voids.pendingCash[other]?
  voided : ∀ date, voidedAt rollups date = voidedAt without date +
    undone.elim 0 fun found => if found.1 = date then (1, found.2) else 0

namespace Beside

variable {billId : BillId} {own : Option (BusinessDate × KeptBill)}
    {undone : Option (BusinessDate × Int)}
  {rollups without : Rollups} {event : RecordedEvent}

theorem empty (billId : BillId) : Beside billId none none .empty .empty where
  standing := ⟨[], [], .empty, .empty, .refl _⟩
  bills := fun _ _ _ => rfl
  ownBill := fun date => by simp [KeptBills.bill?, Rollups.empty]
  pending := fun _ _ => rfl
  voided := fun date => (add_zero _).symm

/-- A void of another bill finds the same in both. -/
theorem find_eq (h : Beside billId own undone rollups without) {other : BillId}
    (hother : other ≠ billId)
    (today : BusinessDate) : rollups.voids.find today other = without.voids.find today other :=
  find_congr (fun date => h.bills date other hother) today

/-- What an event that does not concern the bill does to the bills that stand, it does in both. -/
theorem standingAfter (h : Beside billId own undone rollups without)
    (hother : event.concerns billId = false) {standing another : List StandingBill}
    (hperm : standing.Perm ((own.map fun found => ⟨found.1, billId, found.2⟩).toList ++ another)) :
    (standingAfter rollups event standing).Perm
      ((own.map fun found => ⟨found.1, billId, found.2⟩).toList ++
        standingAfter without event another) := by
  unfold PosFramework.standingAfter
  split
  case h_1 bill hdata =>
    have hne : bill.billId ≠ billId := by
      simpa [concerns, settles, voids, hdata] using hother
    rw [h.pending bill.billId hne]
    exact (hperm.cons _).trans perm_middle.symm
  case h_2 voided reason hdata =>
    have hne : voided ≠ billId := by
      simpa [concerns, settles, voids, hdata] using hother
    rw [h.find_eq hne]
    cases without.voids.find event.businessDate voided with
    | none => exact hperm
    | some found =>
      have herase := hperm.erase ⟨found.1, voided, found.2⟩
      refine herase.trans (.of_eq (erase_append_right _ ?_))
      rw [mem_toList]
      intro hmem
      obtain ⟨mine, -, hmine⟩ := map_eq_some_iff.1 hmem
      exact hne (congrArg StandingBill.billId hmine).symm
  case h_3 => exact hperm

theorem voidedBy_eq (h : Beside billId own undone rollups without)
    (hother : event.concerns billId = false)
    (date : BusinessDate) : voidedBy rollups event date = voidedBy without event date := by
  unfold voidedBy
  split
  case h_1 voided reason hdata =>
    have hne : voided ≠ billId := by
      simpa [concerns, settles, voids, hdata] using hother
    rw [h.find_eq hne]
  case h_2 => rfl

/-- The kept bills after an event that does not concern the bill. -/
theorem bills_after (h : Beside billId own undone rollups without)
    (hother : event.concerns billId = false) :
    (∀ date other, other ≠ billId → (rollups.fold .exact event).voids.bill? date other =
      (without.fold .exact event).voids.bill? date other) ∧
    ∀ date, (rollups.fold .exact event).voids.bill? date billId =
      rollups.voids.bill? date billId := by
  rcases event.bill_cases with ⟨bill, hdata⟩ | ⟨voided, reason, hdata⟩ | hnone
  · have hne : bill.billId ≠ billId := by
      simpa [concerns, settles, voids, hdata] using hother
    simp only [bill?_fold_settled .exact _ event hdata, h.pending bill.billId hne]
    refine ⟨fun date other hne' => ?_, fun date => ?_⟩
    · rw [h.bills date other hne']
    · rw [if_neg fun hboth => hne hboth.2]
  · have hne : voided ≠ billId := by
      simpa [concerns, settles, voids, hdata] using hother
    simp only [bill?_fold_voided .exact _ event hdata, h.find_eq hne]
    refine ⟨fun date other hne' => ?_, fun date => ?_⟩
    · rw [h.bills date other hne']
    · cases without.voids.find event.businessDate voided with
      | none => rfl
      | some => rw [elim_some, if_neg fun hboth => hne hboth.2]
  · simp only [bill?_fold_neither .exact _ event hnone]
    exact ⟨h.bills, fun _ => trivial⟩

/-- An event that does not concern the bill is folded in both. -/
theorem other (h : Beside billId own undone rollups without)
    (hother : event.concerns billId = false) :
    Beside billId own undone (rollups.fold .exact event) (without.fold .exact event) where
  standing := by
    obtain ⟨standing, another, hstands, hanother, hperm⟩ := h.standing
    exact ⟨_, _, hstands.step event, hanother.step event, h.standingAfter hother hperm⟩
  bills := (h.bills_after hother).1
  ownBill := fun date => ((h.bills_after hother).2 date).trans (h.ownBill date)
  pending := fun another hne => by
    rw [pendingCash_fold, pendingCash_fold, h.pending another hne]
  voided := fun date => by
    rw [voidedAt_fold, voidedAt_fold, h.voided date, h.voidedBy_eq hother]
    exact add_right_comm _ _ _

/-- The bill is settled: it stands beside the others. -/
theorem settled (h : Beside billId none undone rollups without) {bill : BillingBillSettled}
    (hdata : event.data = .known (.billingBillSettled bill)) (hbill : bill.billId = billId) :
    Beside billId (some (event.businessDate,
        keptBill .exact bill (rollups.voids.pendingCash[bill.billId]?.getD 0))) undone
      (rollups.fold .exact event) without where
  standing := by
    obtain ⟨standing, another, hstands, hanother, hperm⟩ := h.standing
    refine ⟨_, _, hstands.step event, hanother, ?_⟩
    simp only [PosFramework.standingAfter, hdata]
    rw [hbill]
    exact hperm.cons _
  bills := fun date other hne => by
    have hnot : ¬(event.businessDate = date ∧ bill.billId = other) :=
      fun hboth => hne (hboth.2.symm.trans hbill)
    rw [bill?_fold_settled .exact rollups event hdata, if_neg hnot]
    exact h.bills date other hne
  ownBill := fun date => by
    rw [bill?_fold_settled .exact rollups event hdata, h.ownBill date]
    simp only [hbill, and_true, bind_none, bind_some, eq_comm]
  pending := fun other hne => by
    rw [pendingCash_fold, h.pending other hne]
    simp only [pendingAfter, hdata, hbill, if_neg (Ne.symm hne)]
  voided := fun date => by
    rw [voidedAt_fold, h.voided date]
    simp only [voidedBy, hdata, add_zero]

/-- A void of the bill while it does not stand changes nothing. -/
theorem voidedNothing (h : Beside billId none undone rollups without) {reason : ReasonCodeId}
    (hdata : event.data = .known (.billingBillVoided billId reason)) :
    Beside billId none undone (rollups.fold .exact event) without := by
  have hfind : rollups.voids.find event.businessDate billId = none :=
    find_of_none (fun date => h.ownBill date) _
  have hbills : ∀ date other, (rollups.fold .exact event).voids.bill? date other =
      rollups.voids.bill? date other := by
    intro date other
    rw [bill?_fold_voided .exact rollups event hdata, hfind, elim_none]
  exact
    { standing := by
        obtain ⟨standing, another, hstands, hanother, hperm⟩ := h.standing
        refine ⟨_, _, hstands.step event, hanother, ?_⟩
        simp only [PosFramework.standingAfter, hdata, hfind, elim_none]
        exact hperm
      bills := fun date other hne => (hbills date other).trans (h.bills date other hne)
      ownBill := fun date => (hbills date billId).trans (h.ownBill date)
      pending := fun other hne => by
        rw [pendingCash_fold, h.pending other hne]
        simp only [pendingAfter, hdata]
      voided := fun date => by
        rw [voidedAt_fold, h.voided date]
        simp only [voidedBy, hdata, hfind, elim_none, add_zero] }

/-- The void of the bill takes it back and counts it. -/
theorem taken {settledOn : BusinessDate} {bill : KeptBill}
    (h : Beside billId (some (settledOn, bill)) none rollups without) {reason : ReasonCodeId}
    (hdata : event.data = .known (.billingBillVoided billId reason)) :
    Beside billId none (some (settledOn, bill.totalDue)) (rollups.fold .exact event) without := by
  have hfind : rollups.voids.find event.businessDate billId = some (settledOn, bill) :=
    find_of_only (fun date => h.ownBill date) _
  have hbills : ∀ date other, (rollups.fold .exact event).voids.bill? date other =
      if settledOn = date ∧ billId = other then none else rollups.voids.bill? date other := by
    intro date other
    rw [bill?_fold_voided .exact rollups event hdata, hfind, elim_some]
  exact
    { standing := by
        obtain ⟨standing, another, hstands, hanother, hperm⟩ := h.standing
        refine ⟨_, _, hstands.step event, hanother, ?_⟩
        simp only [PosFramework.standingAfter, hdata, hfind, elim_some]
        have herase := hperm.erase ⟨settledOn, billId, bill⟩
        rwa [map_some, toList_some, singleton_append, erase_cons_head] at herase
      bills := fun date other hne => by
        rw [hbills, if_neg fun hboth => hne hboth.2.symm]
        exact h.bills date other hne
      ownBill := fun date => by
        rw [hbills, h.ownBill date]
        by_cases hdate : settledOn = date
        · rw [if_pos ⟨hdate, rfl⟩, bind_none]
        · rw [if_neg fun hboth => hdate hboth.1, bind_some, if_neg (Ne.symm hdate), bind_none]
      pending := fun other hne => by
        rw [pendingCash_fold, h.pending other hne]
        simp only [pendingAfter, hdata]
      voided := fun date => by
        rw [voidedAt_fold, h.voided date]
        simp only [voidedBy, hdata, hfind, elim_some, elim_none, add_zero] }

end Beside

/-- A log without what concerns one bill. -/
def withoutBill (billId : BillId) (log : List RecordedEvent) : List RecordedEvent :=
  log.filter fun event => !event.concerns billId

/-- The two logs folded on. -/
def foldsBeside (billId : BillId) (own : Option (BusinessDate × KeptBill))
    (undone : Option (BusinessDate × Int)) (log : List RecordedEvent)
    (rollups without : Rollups) : Prop :=
  Beside billId own undone (log.foldl (Rollups.fold .exact) rollups)
    ((withoutBill billId log).foldl (Rollups.fold .exact) without)

section Runs

variable {billId : BillId} {undone : Option (BusinessDate × Int)} {rollups without : Rollups}
  {log : List RecordedEvent} {event : RecordedEvent} {own : Option (BusinessDate × KeptBill)}

theorem foldsBeside_cons_other
    (hother : event.concerns billId = false) :
    foldsBeside billId own undone (event :: log) rollups without =
      foldsBeside billId own undone log (rollups.fold .exact event)
        (without.fold .exact event) := by
  rw [foldsBeside, withoutBill, filter_cons_of_pos (by simpa using hother)]
  rfl

theorem foldsBeside_cons_own
    (hown : event.concerns billId = true) :
    foldsBeside billId own undone (event :: log) rollups without =
      foldsBeside billId own undone log (rollups.fold .exact event) without := by
  rw [foldsBeside, withoutBill, filter_cons_of_neg (by simpa using hown)]
  rfl

theorem data_of_voids (h : event.voids billId = true) :
    ∃ reason, event.data = .known (.billingBillVoided billId reason) := by
  unfold voids at h
  split at h
  case h_1 voided reason hdata =>
    obtain rfl := of_decide_eq_true h
    exact ⟨reason, hdata⟩
  case h_2 => cases h

theorem voids_of_concerns (hsettles : event.settles billId = false)
    (h : event.concerns billId = true) : event.voids billId = true := by
  rwa [RecordedEvent.concerns, hsettles, Bool.false_or] at h

/-- While the bill does not stand and is not settled, the two stay as they are to each other. -/
theorem Beside.run (h : Beside billId none undone rollups without)
    (hlog : ∀ event ∈ log, event.settles billId = false) :
    foldsBeside billId none undone log rollups without := by
  induction log generalizing rollups without with
  | nil => exact h
  | cons event rest ih =>
    have hrest : ∀ later ∈ rest, later.settles billId = false :=
      fun later hlater => hlog later (mem_cons_of_mem _ hlater)
    cases hconcerns : event.concerns billId with
    | false =>
      rw [foldsBeside_cons_other hconcerns]
      exact ih (h.other hconcerns) hrest
    | true =>
      obtain ⟨reason, hdata⟩ := data_of_voids
        (voids_of_concerns (hlog event mem_cons_self) hconcerns)
      rw [foldsBeside_cons_own hconcerns]
      exact ih (h.voidedNothing hdata) hrest

/-- A bill that stands is taken back by the first void that comes. -/
theorem Beside.run_taken {settledOn : BusinessDate} {bill : KeptBill}
    (h : Beside billId (some (settledOn, bill)) none rollups without)
    (hlog : ∀ event ∈ log, event.settles billId = false)
    (hvoided : ∃ event ∈ log, event.voids billId = true) :
    foldsBeside billId none (some (settledOn, bill.totalDue)) log rollups without := by
  induction log generalizing rollups without with
  | nil =>
    obtain ⟨event, hmem, -⟩ := hvoided
    cases hmem
  | cons event rest ih =>
    have hrest : ∀ later ∈ rest, later.settles billId = false :=
      fun later hlater => hlog later (mem_cons_of_mem _ hlater)
    cases hconcerns : event.concerns billId with
    | false =>
      rw [foldsBeside_cons_other hconcerns]
      refine ih (h.other hconcerns) hrest ?_
      obtain ⟨voided, hmem, hvoids⟩ := hvoided
      rcases mem_cons.1 hmem with rfl | hmem
      · rw [concerns, hvoids, Bool.or_true] at hconcerns
        cases hconcerns
      · exact ⟨voided, hmem, hvoids⟩
    | true =>
      obtain ⟨reason, hdata⟩ := data_of_voids
        (voids_of_concerns (hlog event mem_cons_self) hconcerns)
      rw [foldsBeside_cons_own hconcerns]
      exact (h.taken hdata).run hrest

end Runs

/-- A figure of a trading day; what a day does not have is zero. -/
def revenueAt (rollups : Rollups) (date : BusinessDate) : DailyRevenue :=
  rollups.revenue[date]?.getD (emptyRevenue date)

/-- A bill that is settled once and voided later leaves every day as if it had never been, but for
    the count of bills voided after payment of the day it was settled on. -/
theorem void_takes_back_settle (before rest : List RecordedEvent) (settled : RecordedEvent)
    (bill : BillingBillSettled) (hdata : settled.data = .known (.billingBillSettled bill))
    (honce : ∀ event ∈ before ++ rest, event.settles bill.billId = false)
    (hvoided : ∃ event ∈ rest, event.voids bill.billId = true)
    (hsums : NoneSaturates (before ++ settled :: rest))
    (hsums' : NoneSaturates (withoutBill bill.billId (before ++ settled :: rest))) :
    let folded := rollupOf .saturating (before ++ settled :: rest)
    let without := rollupOf .saturating (withoutBill bill.billId (before ++ settled :: rest))
    (∀ date figure, (revenueAt folded date).figure figure =
      (revenueAt without date).figure figure) ∧
      ∀ date,
        (revenueAt folded date).voidedAfterPayment.bills =
          (revenueAt without date).voidedAfterPayment.bills +
            (if settled.businessDate = date then 1 else 0) ∧
        (revenueAt folded date).voidedAfterPayment.amount =
          (revenueAt without date).voidedAfterPayment.amount +
            (if settled.businessDate = date then bill.totalDue.minor else 0) := by
  rw [hsums _ (prefix_refl _), hsums' _ (prefix_refl _)]
  have hbefore := (Beside.empty bill.billId).run fun event hevent =>
    honce event (mem_append_left _ hevent)
  have hsettles : settled.concerns bill.billId = true := by
    simp [concerns, settles, hdata]
  have hafter := (hbefore.settled hdata rfl).run_taken
    (fun event hevent => honce event (mem_append_right _ hevent)) hvoided
  have hbeside : foldsBeside bill.billId none (some (settled.businessDate, bill.totalDue.minor))
      (before ++ settled :: rest) .empty .empty := by
    have hwithout : withoutBill bill.billId (before ++ settled :: rest) =
        withoutBill bill.billId before ++ withoutBill bill.billId rest := by
      rw [withoutBill, filter_append, filter_cons_of_neg (by simpa using hsettles), withoutBill,
        withoutBill]
    rw [foldsBeside, hwithout, foldl_append, foldl_cons, foldl_append]
    exact hafter
  constructor
  · intro date figure
    obtain ⟨standing, another, hstands, hanother, hperm⟩ := hbeside.standing
    have heq := ((hstands.days date).perm (onDay_perm date hperm)).figure_eq
      (hanother.days date) figure
    cases figure <;> exact heq
  · intro date
    have hcount := hbeside.voided date
    by_cases hdate : settled.businessDate = date
    · rw [elim_some, if_pos hdate] at hcount
      rw [if_pos hdate, if_pos hdate]
      exact ⟨congrArg fst hcount, congrArg snd hcount⟩
    · rw [elim_some, if_neg hdate] at hcount
      rw [if_neg hdate, if_neg hdate]
      exact ⟨congrArg fst hcount, congrArg snd hcount⟩

/-- A bill of 120: goods for 100, a service fee of 10 and a tax of 10 on one component. -/
def serviceBill (n : Nat) : BillingBillSettled where
  billId := ⟨n⟩
  receiptNumber := n
  subtotal := .few 100
  reductionTotal := .few 0
  serviceCharge := .few 10
  taxTotal := .few 10
  roundingAdjustment := .few 0
  totalDue := .few 120
  buyerSubjectId := none
  feeLines := [⟨⟨1⟩, ⟨"service"⟩, ⟨"Service"⟩, .few 10,
    .few 1, []⟩]
  taxLines := [⟨⟨1⟩, .few 110, 1000, .few 10,
    [⟨⟨"VAT", by decide +kernel⟩, 1000, .few 10⟩]⟩]

def billEvent (n : Nat) (date : Int) (payload : Payload) : RecordedEvent :=
  ⟨⟨n⟩, ⟨0⟩, ⟨date⟩, none, .known payload⟩

/-- Two bills are settled and the first is voided the day after. -/
theorem void_takes_back_settle_nextDay :
    let before := [billEvent 1 0 (.billingBillSettled (serviceBill 2))]
    let settled := billEvent 2 0 (.billingBillSettled (serviceBill 1))
    let rest := [billEvent 3 1 (.billingBillVoided ⟨1⟩ ⟨9⟩)]
    let folded := rollupOf .saturating (before ++ settled :: rest)
    let without := rollupOf .saturating (withoutBill ⟨1⟩ (before ++ settled :: rest))
    (revenueAt folded ⟨0⟩).figure (.feeBills "service") = 1 ∧
      (∀ date figure, (revenueAt folded date).figure figure =
        (revenueAt without date).figure figure) ∧
      ∀ date,
        (revenueAt folded date).voidedAfterPayment.bills =
          (revenueAt without date).voidedAfterPayment.bills +
            (if (⟨0⟩ : BusinessDate) = date then 1 else 0) ∧
        (revenueAt folded date).voidedAfterPayment.amount =
          (revenueAt without date).voidedAfterPayment.amount +
            (if (⟨0⟩ : BusinessDate) = date then 120 else 0) := by
  intro before settled rest
  exact ⟨by decide +kernel,
    void_takes_back_settle before rest settled (serviceBill 1) rfl (by decide +kernel)
      (by decide +kernel)
      (by decide +kernel) (by decide +kernel)⟩

end PosFramework
