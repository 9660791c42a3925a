import PosFramework.Edge.WellFormed.Bills

set_option autoImplicit false

/-! # A store's history keeps its ledger

Every command, by its case, does to the ledger what `Ledger.Step` says; so a store that started
empty has a sound ledger after any history. No line is charged twice. -/

namespace PosFramework

open Fallible Projection Env Trial Edge

section Commands

variable {P P' : Projection} {bound bound' : Nat} {ids : Nat → Nat} {command : Command} {env : Env}
  {plan : Plan}

theorem accounted_moveCash {actor : Actor} {scope : TillScope} {shiftId : ShiftId}
    {movement : CashMovement} {amount : Money} {reason : Option ReasonCodeId}
    {breakdown : CountBreakdown} {approval : Option Approval} (hP : P.WellFormed bound)
    (hle : bound ≤ bound') (hquiet : command.leavesLedger = true)
    (hplan : env.moveCash ids P actor scope shiftId movement amount reason breakdown approval =
      .ok plan) (happly : plan.apply P = .ok P') : Accounted command bound' P P' := by
  obtain ⟨_, _, _, _, _, _, _, _, _, _, rfl⟩ := moveCash_ok hplan
  have hmove : P.updateShift (some shiftId) (moveCash movement amount) = .ok P' := happly
  have htakings := takingsOnly_updateShift hmove
  exact accounted_of_books_eq hP hle hquiet htakings.books_eq
    (htakings.floor_eq ▸ hP.floor.mono hle)

theorem closeShiftRecord_frame (P : Projection) (shiftId : ShiftId) :
    (P.closeShiftRecord shiftId).books = P.books ∧
    (P.closeShiftRecord shiftId).floor = P.floor := by
  unfold closeShiftRecord
  split <;> exact ⟨rfl, rfl⟩

theorem closeShiftRecords_frame (P : Projection) (named : List (ShiftId × ShiftRecord)) :
    let Q := named.foldl (fun P entry => P.closeShiftRecord entry.1) P
    Q.books = P.books ∧ Q.floor = P.floor := by
  induction named generalizing P with
  | nil => exact ⟨rfl, rfl⟩
  | cons first rest ih =>
    obtain ⟨hbooks, hfloor⟩ := closeShiftRecord_frame P first.1
    obtain ⟨hbooks', hfloor'⟩ := ih (P.closeShiftRecord first.1)
    exact ⟨hbooks'.trans hbooks, hfloor'.trans hfloor⟩

/-- Every command that is taken is accounted for. -/
theorem plan_accounted (hP : P.WellFormed bound) (hids : TakesIds ids bound plan.minted bound')
    (hplan : command.plan env ids P = .ok plan) (happly : plan.apply P = .ok P') :
    Accounted command bound' P P' := by
  have hfloor := hP.floor.mono hids.le
  cases command with
  | seatTable actor tableId =>
    obtain ⟨ctx, _, rfl⟩ := seatTable_ok hplan
    cases happly
    have horder : ids 0 < bound' := hids.gone 0 (Nat.succ_pos _)
    exact accounted_of_books_eq hP hids.le rfl rfl
      (floor_below_openOrderOrigin
        (floor_below_openOrder (P := P.setTable tableId .occupied) tableId hfloor horder)
        horder)
  | cleanTable =>
    obtain ⟨ctx, _, rfl⟩ := cleanTable_ok hplan
    cases happly
    exact accounted_of_books_eq hP hids.le rfl rfl hfloor
  | releaseTable actor tableId =>
    obtain ⟨ctx, payloads, _, _, _, rfl⟩ := releaseTable_ok hplan
    cases happly
    cases hcase : P.orderForTable tableId with
    | none => exact accounted_of_books_eq hP hids.le rfl rfl hfloor
    | some =>
      exact accounted_of_books_eq hP hids.le rfl books_closeOrder
        (floor_below_closeOrder hfloor)
  | transferTable actor fromTableId toTableId =>
    obtain ⟨ctx, orderId, horder, _, _, rfl⟩ := transferTable_ok hplan
    cases happly
    have hlt : orderId.ulid < bound' := hfloor.tables fromTableId orderId horder
    exact accounted_of_books_eq hP hids.le rfl books_moveOrder
      (floor_below_moveOrder
        (P := (P.setTable fromTableId .needsCleaning).setTable toTableId .occupied) hfloor hlt)
  | addLine actor tableId draft hasNote =>
    obtain ⟨ctx, orderId, names, horder, _, rfl⟩ := addLine_ok hplan
    exact accounted_appendLine hP hids rfl (hP.floor.tables tableId orderId horder) happly
  | addLineToOrder actor orderId choice hasNote =>
    obtain ⟨ctx, origin, draft, names, horigin, _, _, rfl⟩ := addLineToOrder_ok hplan
    exact accounted_appendLine hP hids rfl (hP.floor.orders orderId origin horigin) happly
  | voidLine =>
    obtain ⟨ctx, record, payloads, approver, hline, _, rfl⟩ := voidLine_ok hplan
    cases happly
    exact accounted_voidLine hP hids.le hline
  | setLineQuantity =>
    obtain ⟨ctx, record, lineTotal, hline, htotal, rfl⟩ := setLineQuantity_ok hplan
    cases happly
    exact accounted_setLineQuantity hP hids.le hline htotal
  | fireLine =>
    obtain ⟨ctx, record, fired, hline, _, hfired, rfl⟩ := fireLine_ok hplan
    cases happly
    obtain ⟨hnext, sale, hsale, hsold⟩ := sold_of_decideFire hline hfired
    exact (sameLedger_applyFired (hP.books.mono hids.le) hP.indexed hsale hsold hnext).accounted hP
      hids.le rfl
  | fireOrder =>
    exact accounted_fireUnsent hP hids.le rfl (fireOrder_ok hplan) happly
  | fireCourse =>
    exact accounted_fireUnsent hP hids.le rfl (fireCourse_ok hplan) happly
  | openInboundOrder =>
    exact accounted_openInboundOrder hP hids hplan happly
  | openCounterOrder =>
    obtain ⟨ctx, rfl⟩ := openCounterOrder_ok hplan
    cases happly
    have horder : ids 0 < bound' := hids.gone 0 (Nat.succ_pos _)
    exact accounted_of_books_eq hP hids.le rfl rfl
      (floor_below_openOrderOrigin hfloor horder)
  | confirmInboundOrder =>
    exact accounted_confirmInboundOrder hP hids.le hplan happly
  | rejectInboundOrder =>
    obtain ⟨ctx, _, rfl⟩ := rejectInboundOrder_ok hplan
    cases happly
    exact accounted_of_books_eq hP hids.le rfl
      (books_closeOrder.trans books_recordStaffDecision)
      (floor_below_closeOrder (floor_below_recordStaffDecision hfloor))
  | setItemSoldOut =>
    obtain ⟨ctx, payloads, _, rfl⟩ := setItemSoldOut_ok hplan
    cases happly
    split <;> exact accounted_of_books_eq hP hids.le rfl rfl hfloor
  | openBill =>
    obtain ⟨orderId, _, horder⟩ := openBill_ok hplan
    exact accounted_openBillForOrder hP hids rfl horder happly
  | openBillForOrder => exact accounted_openBillForOrder hP hids rfl hplan happly
  | discountBill =>
    obtain ⟨_, _, _, _, _, _, _, _, _, _, _, _, _, _, _, rfl⟩ := discountBill_ok hplan
    exact accounted_of_sameFaces hP hids.le rfl (sameFaces_addReduction happly)
  | waiveFee =>
    obtain ⟨_, _, _, _, rfl⟩ := waiveFee_ok hplan
    cases happly
    exact accounted_of_sameFaces hP hids.le rfl sameFaces_waiveFeeRecord
  | splitBill => exact accounted_splitBill hP hids hplan happly
  | mergeBills => exact accounted_mergeBills hP hids.le hplan happly
  | settleBill =>
    exact accounted_settleBill hP hids.le hplan happly
  | voidBill => exact accounted_voidBill hP hids.le hplan happly
  | voidSettledBill =>
    exact accounted_voidSettledBill hP hids.le hplan happly
  | reprintReceipt =>
    obtain ⟨_, _, _, rfl⟩ := reprintReceipt_ok hplan
    cases happly
    exact accounted_of_books_eq hP hids.le rfl rfl hfloor
  | openShift =>
    obtain ⟨_, _, _, _, _, _, _, _, _, _, _, _, rfl⟩ := openShift_ok hplan
    cases happly
    exact accounted_of_books_eq hP hids.le rfl rfl hfloor
  | countShift =>
    obtain ⟨_, _, _, _, _, _, _, rfl⟩ := countShift_ok hplan
    cases happly
    exact accounted_of_books_eq hP hids.le rfl rfl hfloor
  | closeShift actor scope shiftId approval reason =>
    obtain ⟨_, _, _, _, _, _, _, _, rfl⟩ := closeShift_ok hplan
    cases happly
    obtain ⟨hbooks, hfloor'⟩ := closeShiftRecord_frame P shiftId
    exact accounted_of_books_eq hP hids.le rfl hbooks (hfloor' ▸ hfloor)
  | closeShifts =>
    obtain ⟨_, named, _, _, _, _, _, _, _, _, _, rfl⟩ := closeShifts_ok hplan
    cases happly
    obtain ⟨hbooks, hfloor'⟩ := closeShiftRecords_frame P named
    exact accounted_of_books_eq hP hids.le rfl hbooks (hfloor' ▸ hfloor)
  | recordCashMovement =>
    exact accounted_moveCash hP hids.le rfl hplan happly
  | recordSafeDrop =>
    exact accounted_moveCash hP hids.le rfl (recordSafeDrop_ok hplan) happly
  | openDrawerNoSale =>
    obtain ⟨_, _, _, _, _, _, rfl⟩ := openDrawerNoSale_ok hplan
    cases happly
    exact accounted_of_books_eq hP hids.le rfl rfl hfloor

end Commands

namespace Edge

variable {ids : IdSource} {allowed : Edge → Env × Command → Prop} {edge edge' : Edge}
  {input : Env × Command} {inputs : List (Env × Command)}

/-- A projection whose ids were all taken. -/
def WellFormed (ids : IdSource) (edge : Edge) : Prop :=
  edge.projection.WellFormed (ids.mint edge.minted)

theorem takesIds (ids : IdSource) (edge : Edge) (taken : Nat) :
    TakesIds (edge.freshIds ids) (ids.mint edge.minted) taken (ids.mint (edge.minted + taken)) where
  increasing := fun _ _ hlt => ids.increasing (Nat.add_lt_add_left hlt _)
  new := fun i => ids.increasing.monotone (Nat.le_add_right _ i)
  gone := fun _ hlt => ids.increasing (Nat.add_lt_add_left hlt _)
  le := ids.increasing.monotone (Nat.le_add_right _ _)

/-- A command that is taken moves the ledger one step. -/
theorem step_accounted (hedge : edge.WellFormed ids) (hstep : edge.step ids input = .ok edge') :
    Accounted input.2 (ids.mint edge'.minted) edge.projection edge'.projection := by
  obtain ⟨plan, projection, hplan, happly, _, rfl⟩ := (step_eq_ok ids).1 hstep
  exact plan_accounted hedge (takesIds ids edge plan.minted) hplan happly

theorem wellFormed_initial : WellFormed ids initial where
  floor := ⟨fun _ _ h => by simp [initial, empty, floor] at h,
    fun _ _ h => by simp [initial, empty, floor] at h⟩
  books := ⟨fun _ _ h => by simp [initial, empty, books] at h,
    fun _ _ h => by simp [initial, empty, books, bill] at h⟩
  indexed := by
    refine ⟨fun _ _ => ?_, fun _ => ?_, fun _ _ h => ?_⟩
    · simp [initial, empty, books, Books.lineIndex]
    · simp [initial, empty, books, Books.lineIndex]
    · simp [initial, empty, books, bill] at h
  sound := by
    have hempty : initial.projection.ledger = ⟨fun _ => none, fun _ => none⟩ := by
      simp [initial, empty, ledger, books, bill,
        Books.ledger]
    exact Ledger.sound_empty

/-- Every history of a store keeps its books in order and its ledger sound. -/
theorem wellFormed_of_run (hrun : Run ids allowed initial inputs edge) : edge.WellFormed ids :=
  Transition.Run.invariant
    (fun _ _ _ hedge _ hstep => (step_accounted hedge hstep).wellFormed hedge) hrun
    wellFormed_initial

end Edge

/-- No line is charged twice: whatever a store did, two bills that are open or paid cover no line in
    common, and each covers lines of its own order only. -/
theorem no_line_charged_twice {ids : IdSource} {inputs : List (Env × Command)} {edge : Edge}
    (hrun : Run ids (fun _ _ => True) .initial inputs edge) :
    (∀ (a b : BillId) (billA billB : BillRecord), a ≠ b →
      edge.projection.bill a = some billA → edge.projection.bill b = some billB →
      billA.charge.Active → billB.charge.Active →
      List.Disjoint (edge.projection.coveredLines billA) (edge.projection.coveredLines billB)) ∧
    (∀ (a : BillId) (bill : BillRecord), edge.projection.bill a = some bill → bill.charge.Active →
      ∀ line ∈ edge.projection.coveredLines bill, ∃ record,
        edge.projection.line line = some record ∧ record.orderId = bill.orderId) := by
  have hwf := wellFormed_of_run hrun
  refine ⟨fun a b billA billB hne hbillA hbillB hactiveA hactiveB line hlineA hlineB => ?_,
    fun a bill hbill hactive line hline => ?_⟩
  · rw [coveredLines_of_active hwf hbillA hactiveA] at hlineA
    rw [coveredLines_of_active hwf hbillB hactiveB] at hlineB
    exact Set.disjoint_left.1 (hwf.sound.apart hne)
      ((mem_held_of_bill hbillA hactiveA).2 hlineA)
      ((mem_held_of_bill hbillB hactiveB).2 hlineB)
  · rw [coveredLines_of_active hwf hbill hactive] at hline
    obtain ⟨sale, hsale, horder⟩ :=
      (hwf.sound.holds a _ (charge_of_bill hbill) hactive).on_order line hline
    obtain ⟨record, hrecord, rfl⟩ := Option.map_eq_some_iff.1 hsale
    exact ⟨record, hrecord, horder⟩

theorem no_line_charged_twice_splitAndPay :
    ∃ edge billA billB,
      Run ids (fun _ _ => True) .initial (inputs splitAndPay) edge ∧
      edge.projection.bill ⟨9⟩ = some billA ∧ billA.state = .settled ∧
      edge.projection.bill ⟨10⟩ = some billB ∧ billB.state = .open ∧
      List.Disjoint (edge.projection.coveredLines billA) (edge.projection.coveredLines billB) := by
  obtain ⟨edge, hrun, hbills⟩ : ∃ edge,
      Run ids (fun _ _ => True) .initial (inputs splitAndPay) edge ∧
      (edge.projection.billIn .settled ⟨9⟩ && edge.projection.billIn .open ⟨10⟩) = true :=
    run_of_after (by decide +kernel)
  simp only [billIn, Bool.and_eq_true, Option.any_eq_true, decide_eq_true_eq] at hbills
  obtain ⟨⟨billA, hbillA, hsettled⟩, ⟨billB, hbillB, hopen⟩⟩ := hbills
  exact ⟨edge, billA, billB, hrun, hbillA, hsettled, hbillB, hopen,
    (no_line_charged_twice hrun).1 ⟨9⟩ ⟨10⟩ billA billB (by decide) hbillA hbillB (.inr hsettled)
      (.inl hopen)⟩

end PosFramework
