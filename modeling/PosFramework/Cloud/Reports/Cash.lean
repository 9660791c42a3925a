import PosFramework.Cloud.Reports.Rollup

set_option autoImplicit false

/-! # The figures of a cash day

Five folds write to a cash day. Taken together they do one thing: an event adds its figures, if it
has any, to the store's and to one drawer's on its own trading day. What the figures are depends on
what earlier events left behind: the float of the shift that closes, the shift whose drawer is taken
over, the cash of the bill that is voided.

So the drawers of a day add up to the store, and where every close's variance is its count less what
it expected, so is that of the day and of each of its drawers. -/

namespace PosFramework

open Std (ExtTreeMap)
open DailyCash Rollups Entries CashFigure Function Option Keyed Prod List

/-! ## Sheets -/

/-- The figures of a day: the store's and each drawer's. -/
@[ext] structure CashSheet where
  totals : CashTotals
  byDrawer : ExtTreeMap CashDrawer CashTotals

def DailyCash.sheet (day : DailyCash) : CashSheet := ⟨day.totals, day.byDrawer⟩

/-- A trading day's sheet, which is blank where nothing was folded for the day. -/
def sheetAt (cash : ExtTreeMap BusinessDate DailyCash) (date : BusinessDate) : CashSheet :=
  (cash[date]?.getD (emptyCash date)).sheet

namespace CashSheet

/-- Add figures to the store's and to a drawer's. -/
def post (sheet : CashSheet) (drawer : CashDrawer) (figures : CashTotals) : CashSheet where
  totals := sheet.totals + figures
  byDrawer := upsert sheet.byDrawer drawer 0 (· + figures)

/-- A drawer's figures; those of a drawer the day does not have are zero. -/
def drawer (sheet : CashSheet) (drawer : CashDrawer) : CashTotals := sheet.byDrawer[drawer]?.getD 0

variable {sheet : CashSheet} {till : CashDrawer} {figures : CashTotals}

theorem post_post (more : CashTotals) :
    (sheet.post till figures).post till more = sheet.post till (figures + more) := by
  refine CashSheet.ext (add_assoc _ _ _) (map_ext fun another => ?_)
  simp only [post, get_upsert]
  split
  · simp only [if_true, getD_some, add_assoc]
  · rfl

theorem post_zero {totals : CashTotals} (h : sheet.byDrawer[till]? = some totals) :
    sheet.post till 0 = sheet := by
  refine CashSheet.ext (add_zero _) ?_
  simp only [post, upsert, h, getD_some, add_zero]
  exact insert_self h

theorem drawer_post (another : CashDrawer) :
    (sheet.post till figures).drawer another =
      sheet.drawer another + if till = another then figures else 0 := by
  rw [drawer, post, get_upsert]
  split
  · next hsame =>
    rw [getD_some, drawer, hsame]
  · rw [add_zero, drawer]

/-- The over or short is what was counted less what was expected. -/
def Explained (totals : CashTotals) : Prop :=
  totals .variance = totals .counted - totals .expected

theorem Explained.add {totals : CashTotals} (h : Explained totals) (h' : Explained figures) :
    Explained (totals + figures) := by
  simp only [Explained, Pi.add_apply] at h h' ⊢
  omega

/-- The drawers add up to the store, and every over or short is explained. -/
structure Balanced (sheet : CashSheet) : Prop where
  adds : ∀ figure, sheet.totals figure = total (· figure) sheet.byDrawer
  store : Explained sheet.totals
  drawers : ∀ (till : CashDrawer) (totals : CashTotals), sheet.byDrawer[till]? = some totals →
    Explained totals

theorem Balanced.blank : Balanced ⟨0, ∅⟩ where
  adds := fun _ => rfl
  store := rfl
  drawers := fun till totals h => by simp at h

theorem Balanced.post (h : sheet.Balanced) (till : CashDrawer) (hfigures : Explained figures) :
    (sheet.post till figures).Balanced where
  adds := by
    intro figure
    have hdrawers := total_upsert (fun totals : CashTotals => totals figure) sheet.byDrawer till
      0 (· + figures) rfl fun totals => Pi.add_apply totals figures figure
    exact (congrArg (· + figures figure) (h.adds figure)).trans hdrawers.symm
  store := h.store.add hfigures
  drawers := by
    intro another totals htotals
    rw [CashSheet.post, get_upsert] at htotals
    split at htotals
    · cases hbefore : sheet.byDrawer[till]? with
      | none =>
        rw [hbefore] at htotals
        obtain rfl := some.inj htotals
        exact (show Explained 0 from rfl).add hfigures
      | some =>
        rw [hbefore] at htotals
        obtain rfl := some.inj htotals
        exact (h.drawers _ _ hbefore).add hfigures
    · exact h.drawers _ _ htotals

end CashSheet

/-! ## The folds on sheets -/

section Sheets

variable (cash : ExtTreeMap BusinessDate DailyCash) (date : BusinessDate)

theorem sheetAt_insert (day : DailyCash) :
    sheetAt (cash.insert date day) = update (sheetAt cash) date day.sheet := by
  funext another
  rw [update_apply, sheetAt, get_insert]
  split <;> simp_all [sheetAt, eq_comm]

theorem sheetAt_upsert (change : DailyCash → DailyCash) :
    sheetAt (upsert cash date (emptyCash date) change) =
      update (sheetAt cash) date (change (cash[date]?.getD (emptyCash date))).sheet :=
  sheetAt_insert ..

theorem sheetAt_modify_same (change : DailyCash → DailyCash)
    (hsame : ∀ day, (change day).sheet = day.sheet) :
    sheetAt (cash.modify date change) = sheetAt cash := by
  funext another
  rw [sheetAt, sheetAt, get_modify]
  split
  · cases hday : cash[another]? <;> simp_all
  · rfl

end Sheets

theorem CashTotals.add_exact (totals figures : CashTotals) :
    totals.add .exact figures = totals + figures := by
  funext figure
  cases figure <;> rfl

theorem DailyCash.sheet_record (day : DailyCash) (drawer : CashDrawer) (figures : CashTotals) :
    (day.record .exact drawer figures).sheet = day.sheet.post drawer figures := by
  simp only [sheet, record, CashSheet.post, CashTotals.add_exact]

variable {drawer : CashDrawer}

/-- The drawer is there when the float of a close is set beside it. -/
theorem DailyCash.sheet_closeFloat (day : DailyCash) {totals : CashTotals}
    (h : day.byDrawer[drawer]? = some totals) (float : Int) :
    (day.closeFloat .exact drawer float).sheet =
      day.sheet.post drawer (closedFloat.only float) := by
  simp only [sheet, closeFloat, CashSheet.post, CashTotals.add_exact, upsert,
    modify_eq_insert h, h, getD_some]

/-! ## What an event adds -/

/-- What an opening adds: its float, which is no new cash where it took over a shift that counted
    `outgoing`. -/
def openingFigures (float : Int) (outgoing : Option Int) : CashTotals :=
  openingFloat.only float + shiftsOpened.only 1 +
    outgoing.elim 0 fun outgoing => takeOver .exact float outgoing

/-- What a close adds: its figures, the float of its shift, and what it takes back of a drawer it
    took over. -/
def closeFigures (closed : CashShiftClosed) (float : Option Int) (carried : Option (Int × Int)) :
    CashTotals :=
  shiftsClosed.only 1 + expected.only closed.expectedAmount.minor +
    counted.only closed.countedAmount.minor +
    variance.only closed.variance.minor + closedFloat.only (float.getD 0) +
    carried.elim 0 fun carried => settleCarried .exact carried.1 carried.2

/-- The figures an event adds to its trading day, and the drawer it adds them to as well. -/
def cashEffect (rollups : Rollups) (event : RecordedEvent) : Option (CashDrawer × CashTotals) :=
  match event.data with
  | .known (.cashShiftOpened opened) =>
    some (.of opened.terminalDeviceId,
      openingFigures opened.openingFloat.minor (rollups.handovers.outgoing opened))
  | .known (.cashShiftClosed closed) =>
    some (.of closed.terminalDeviceId,
      closeFigures closed rollups.floats.shifts[closed.closedShiftId]?
      rollups.handovers.carried[closed.closedShiftId]?)
  | .known (.cashDrawerPaidIn amount _ till) => some (.of till, paidIn.only amount.minor)
  | .known (.cashDrawerPaidOut amount _ till) => some (.of till, paidOut.only amount.minor)
  | .known (.cashDrawerDropped amount till _ _) => some (.of till, dropped.only amount.minor)
  | .known (.billingBillVoided billId _) =>
    match rollups.voids.find event.businessDate billId with
    | some (_, bill) =>
      if bill.cash = 0 then none
      else some
        ((event.shiftId.bind fun shiftId => rollups.voids.shiftDrawers[shiftId]?).getD .store,
        voidedCash.only bill.cash)
    | none => none
  | _ => none

/-- The figures that come from movements of the drawer and not from its shifts. -/
def CashFigure.Plain (figure : CashFigure) : Prop :=
  figure = .paidIn ∨ figure = .paidOut ∨ figure = .dropped ∨ figure = .voidedCash

variable {figures : CashTotals}

/-- What adds to a drawer: an opening, a close, or a movement that adds one figure. -/
theorem cashEffect_cases {rollups : Rollups} {event : RecordedEvent}
    (h : cashEffect rollups event = some (drawer, figures)) :
    (∃ opened, event.data = .known (.cashShiftOpened opened) ∧
      CashDrawer.of opened.terminalDeviceId = drawer ∧
      openingFigures opened.openingFloat.minor (rollups.handovers.outgoing opened) = figures) ∨
    (∃ closed, event.data = .known (.cashShiftClosed closed) ∧
      CashDrawer.of closed.terminalDeviceId = drawer ∧
      closeFigures closed rollups.floats.shifts[closed.closedShiftId]?
        rollups.handovers.carried[closed.closedShiftId]? = figures) ∨
    ∃ figure : CashFigure, figure.Plain ∧ ∃ n, figure.only n = figures := by
  unfold cashEffect at h
  split at h
  case h_1 opened hdata =>
    obtain ⟨hdrawer, hfigures⟩ := mk.inj (some.inj h)
    exact .inl ⟨opened, hdata, hdrawer, hfigures⟩
  case h_2 closed hdata =>
    obtain ⟨hdrawer, hfigures⟩ := mk.inj (some.inj h)
    exact .inr (.inl ⟨closed, hdata, hdrawer, hfigures⟩)
  case h_3 => exact .inr (.inr ⟨.paidIn, .inl rfl, _, (mk.inj (some.inj h)).2⟩)
  case h_4 => exact .inr (.inr ⟨.paidOut, .inr (.inl rfl), _, (mk.inj (some.inj h)).2⟩)
  case h_5 =>
    exact .inr (.inr ⟨.dropped, .inr (.inr (.inl rfl)), _, (mk.inj (some.inj h)).2⟩)
  case h_6 =>
    split at h
    · split at h
      · cases h
      · exact .inr (.inr ⟨.voidedCash, .inr (.inr (.inr rfl)), _, (mk.inj (some.inj h)).2⟩)
    · cases h
  case h_7 => cases h

/-- The sheet of a day once an event has added its figures. -/
def CashSheet.take (sheet : CashSheet) (effect : Option (CashDrawer × CashTotals)) : CashSheet :=
  effect.elim sheet fun (drawer, figures) => sheet.post drawer figures

theorem CashSheet.post_take (sheet : CashSheet) (drawer : CashDrawer)
    (figures : CashTotals) {α : Type} (more : Option α) (add : α → CashTotals) :
    (sheet.post drawer figures).take (more.map fun a => (drawer, add a)) =
      sheet.post drawer (figures + more.elim 0 add) := by
  cases more with
  | none => exact congrArg (sheet.post drawer) (add_zero figures).symm
  | some a => exact CashSheet.post_post _

section Events

variable (rollups : Rollups) (event : RecordedEvent)

/-- What an opening adds beside its float. -/
theorem sheet_foldOpened (kept : KeptHandovers) (day : DailyCash) (opened : CashShiftOpened) :
    (foldOpened .exact kept day opened).2.sheet =
      day.sheet.take ((kept.outgoing opened).map fun outgoing =>
        (CashDrawer.of opened.terminalDeviceId,
          takeOver .exact opened.openingFloat.minor outgoing)) := by
  rw [foldOpened]
  cases kept.outgoing opened with
  | none => rfl
  | some => exact sheet_record ..

/-- What a close adds beside its own figures. -/
theorem sheet_foldClosed (kept : KeptHandovers) (day : DailyCash) (closed : CashShiftClosed) :
    (foldClosed .exact kept day closed).2.sheet =
      day.sheet.take (kept.carried[closed.closedShiftId]?.map fun carried =>
        (CashDrawer.of closed.terminalDeviceId, settleCarried .exact carried.1 carried.2)) := by
  rw [foldClosed]
  cases kept.carried[closed.closedShiftId]? with
  | none => rfl
  | some => exact sheet_record ..

theorem sheetAt_foldCash {currency : CurrencyCode}
    (h : cashFigures event.data = some (currency, drawer, figures))
    (cash : ExtTreeMap BusinessDate DailyCash) :
    sheetAt (foldCash .exact cash event) = update (sheetAt cash) event.businessDate
      ((sheetAt cash event.businessDate).post drawer figures) := by
  rw [foldCash, h, sheetAt_upsert, sheet_record, sheetAt]
  rfl

variable {closed : CashShiftClosed}

/-- The float of a close goes beside the figures of the close, which are there already. -/
theorem sheetAt_foldClosedFloats
    (hdata : event.data = .known (.cashShiftClosed closed)) (kept : KeptFloats)
    (cash : ExtTreeMap BusinessDate DailyCash) {totals : CashTotals}
    (hdrawer : (sheetAt cash event.businessDate).byDrawer[CashDrawer.of closed.terminalDeviceId]? =
      some totals) :
    sheetAt (foldClosedFloats .exact kept cash event).2 =
      update (sheetAt cash) event.businessDate
        ((sheetAt cash event.businessDate).post (.of closed.terminalDeviceId)
          (closedFloat.only (kept.shifts[closed.closedShiftId]?.getD 0))) := by
  simp only [foldClosedFloats, hdata]
  cases hfloat : kept.shifts[closed.closedShiftId]? with
  | none =>
    rw [getD_none, only, Pi.single_zero, CashSheet.post_zero hdrawer,
      update_eq_self]
  | some float =>
    rw [sheetAt] at hdrawer ⊢
    cases hday : cash[event.businessDate]? with
    | none => simp [hday, emptyCash, DailyCash.sheet] at hdrawer
    | some day =>
      rw [hday] at hdrawer
      dsimp only
      rw [modify_eq_insert hday, sheetAt_insert, day.sheet_closeFloat hdrawer float]
      rfl

theorem sheetAt_moveShift (cash : ExtTreeMap BusinessDate DailyCash)
    (change : ShiftCash → ShiftCash) :
    sheetAt (moveShift cash event change) = sheetAt cash := by
  rw [moveShift]
  cases event.shiftId with
  | none => rfl
  | some => exact sheetAt_modify_same _ _ _ fun day => rfl

/-- The sheets once an event has added its figures to the one of its trading day. -/
def sheetsAfter : BusinessDate → CashSheet :=
  update (sheetAt rollups.cash) event.businessDate
    ((sheetAt rollups.cash event.businessDate).take (cashEffect rollups event))

theorem sheetAt_fold_opened {opened : CashShiftOpened}
    (hdata : event.data = .known (.cashShiftOpened opened)) :
    sheetAt (rollups.fold .exact event).cash = sheetsAfter rollups event := by
  have hcash := sheetAt_foldCash event (congrArg cashFigures hdata) rollups.cash
  have hday := congrFun hcash event.businessDate
  rw [update_self, sheetAt] at hday
  simp only [fold, foldVoids, foldDrops, foldClosedFloats, foldHandovers, hdata, sheetAt_insert]
  rw [sheet_foldOpened, hday, CashSheet.post_take, hcash, update_idem]
  simp only [sheetsAfter, cashEffect, hdata, CashSheet.take, elim_some, openingFigures]

theorem sheetAt_fold_closed
    (hdata : event.data = .known (.cashShiftClosed closed)) :
    sheetAt (rollups.fold .exact event).cash = sheetsAfter rollups event := by
  have hcash := sheetAt_foldCash event (congrArg cashFigures hdata) rollups.cash
  obtain ⟨totals, hdrawer⟩ : ∃ totals, (sheetAt (foldCash .exact rollups.cash event)
      event.businessDate).byDrawer[CashDrawer.of closed.terminalDeviceId]? = some totals := by
    rw [hcash, update_self]
    exact ⟨_, (get_upsert ..).trans (if_pos rfl)⟩

  have hfloats := sheetAt_foldClosedFloats event hdata rollups.floats _ hdrawer
  rw [hcash, update_self, update_idem, CashSheet.post_post] at hfloats
  have hday := congrFun hfloats event.businessDate
  rw [update_self, sheetAt] at hday
  simp only [fold, foldVoids, foldDrops, hdata, foldHandovers, sheetAt_insert]
  rw [sheet_foldClosed, hday, CashSheet.post_take, hfloats, update_idem]
  simp only [sheetsAfter, cashEffect, hdata, CashSheet.take, elim_some, closeFigures]

theorem sheetAt_fold_voided {billId : BillId} {reason : ReasonCodeId}
    (hdata : event.data = .known (.billingBillVoided billId reason)) :
    sheetAt (rollups.fold .exact event).cash = sheetsAfter rollups event := by
  simp only [fold, foldVoids, foldHandovers, foldDrops, foldClosedFloats, foldCash,
    cashFigures, hdata, sheetsAfter, cashEffect, foldVoid]
  cases hfind : rollups.voids.find event.businessDate billId with
  | none => simp only [CashSheet.take, elim_none, update_eq_self]
  | some found =>
    by_cases hzero : found.2.cash = 0
    · simp only [hzero, if_true, CashSheet.take, elim_none, update_eq_self]
    · simp only [hzero, if_false, CashSheet.take, elim_some, sheetAt_upsert,
        sheet_record]
      rfl

/-- An event adds its figures to the sheet of its own trading day and to no other. -/
theorem sheetAt_fold : sheetAt (rollups.fold .exact event).cash = sheetsAfter rollups event := by
  cases hdata : event.data with
  | known payload =>
    cases payload with
    | cashShiftOpened => exact sheetAt_fold_opened rollups event hdata
    | cashShiftClosed => exact sheetAt_fold_closed rollups event hdata
    | billingBillVoided => exact sheetAt_fold_voided rollups event hdata
    | cashDrawerPaidIn | cashDrawerPaidOut =>
      have hfigures := sheetAt_foldCash event (congrArg cashFigures hdata) rollups.cash
      simp only [fold, foldVoids, foldHandovers, foldDrops, foldClosedFloats, hdata,
        sheetAt_moveShift, hfigures, sheetsAfter, cashEffect, CashSheet.take, elim_some]
    | cashDrawerDropped =>
      simp only [fold, foldVoids, foldHandovers, foldDrops, foldClosedFloats, foldCash,
        cashFigures, hdata, sheetAt_moveShift, sheetAt_upsert, sheet_record, sheetsAfter,
        cashEffect, CashSheet.take, elim_some]
      rfl
    | _ =>
      simp only [fold, foldVoids, foldHandovers, foldDrops, foldClosedFloats, foldCash,
        cashFigures, hdata, sheetsAfter, cashEffect, CashSheet.take, elim_none,
        update_eq_self]
      try split <;> rfl
  | _ =>
    simp only [fold, foldVoids, foldHandovers, foldDrops, foldClosedFloats, foldCash,
      cashFigures, hdata, sheetsAfter, cashEffect, CashSheet.take, elim_none,
      update_eq_self]

/-- The variance of a close is what it counted less what it expected. -/
def ExplainsVariance (event : RecordedEvent) : Prop :=
  ∀ closed, event.data = .known (.cashShiftClosed closed) →
    closed.variance.minor = closed.countedAmount.minor - closed.expectedAmount.minor

variable {rollups event}

theorem explained_openingFigures (float : Int) (outgoing : Option Int) :
    CashSheet.Explained (openingFigures float outgoing) := by
  cases outgoing with
  | none => simp [CashSheet.Explained, openingFigures, only]
  | some => simp [CashSheet.Explained, openingFigures, only, takeOver]

/-- The float leaves what is expected and the outgoing count leaves what is counted. -/
theorem explained_closeFigures
    (hvariance : closed.variance.minor = closed.countedAmount.minor - closed.expectedAmount.minor)
    (float : Option Int) (carried : Option (Int × Int)) :
    CashSheet.Explained (closeFigures closed float carried) := by
  cases carried with
  | none => simp [CashSheet.Explained, closeFigures, only, hvariance]
  | some carried =>
    have hcarried : CashSheet.Explained (settleCarried .exact carried.1 carried.2) := by
      simp [CashSheet.Explained, settleCarried, only, Sums.exact]
      ring
    refine CashSheet.Explained.add ?_ hcarried
    simp [CashSheet.Explained, only, hvariance]

theorem explained_cashEffect (hvariance : ExplainsVariance event)
    (heffect : cashEffect rollups event = some (drawer, figures)) :
    CashSheet.Explained figures := by
  obtain ⟨opened, -, -, rfl⟩ | ⟨closed, hdata, -, rfl⟩ | ⟨figure, hplain, n, rfl⟩ :=
    cashEffect_cases heffect
  · exact explained_openingFigures _ _
  · exact explained_closeFigures (hvariance closed hdata) _ _
  · rcases hplain with rfl | rfl | rfl | rfl <;> rfl

end Events

/-! ## What a log leaves -/

theorem rollupOf_concat (sums : Sums) (log : List RecordedEvent) (event : RecordedEvent) :
    rollupOf sums (log ++ [event]) = (rollupOf sums log).fold sums event :=
  foldl_concat ..

/-- Every day of a log whose closes explain their variance is balanced. -/
theorem balanced_rollupOf (log : List RecordedEvent)
    (hvariance : ∀ event ∈ log, ExplainsVariance event)
    (date : BusinessDate) : (sheetAt (rollupOf .exact log).cash date).Balanced := by
  induction log using reverseRecOn with
  | nil =>
    have hblank : sheetAt (rollupOf .exact []).cash date = ⟨0, ∅⟩ := by
      simp [sheetAt, rollupOf, empty, emptyCash, sheet]
    exact .blank
  | append_singleton log event ih =>
    have hbefore := ih fun earlier hearlier => hvariance earlier (mem_append_left _ hearlier)
    have hevent := hvariance event (mem_append_right _ mem_cons_self)
    rw [rollupOf_concat, sheetAt_fold, sheetsAfter, update_apply]
    split
    · next hdate =>
      rw [← hdate]
      cases heffect : cashEffect (rollupOf .exact log) event with
      | none => exact hbefore
      | some effect => exact hbefore.post effect.1 (explained_cashEffect hevent heffect)
    · exact hbefore

end PosFramework
