import PosFramework.Core.Decision
import PosFramework.Proto.Money.Proofs

set_option autoImplicit false

/-! # What a decision that was taken says

The rows of the transition tables, and for each command the state it was taken in, the state it
moves to and what else it checked. -/

namespace PosFramework

open Fallible StateMachine List

/-! ## The transition tables -/

theorem tableMachine_next {state next : TableState} {trigger : TableTrigger} :
    tableMachine.next state trigger = some next ↔
      match trigger with
      | .seat => state = .free ∧ next = .occupied
      | .requestBill => state = .occupied ∧ next = .awaitingPayment
      | .settle => state = .awaitingPayment ∧ next = .needsCleaning
      | .clean => state = .needsCleaning ∧ next = .free
      | .transfer => state = .occupied ∧ next = .needsCleaning
      | .release => state = .occupied ∧ next = .free := by
  cases trigger <;> cases state <;> simp [tableMachine, eq_comm]

theorem orderLineMachine_next {state next : OrderLineState} {trigger : LineTrigger} :
    orderLineMachine.next state trigger = some next ↔
      match trigger with
      | .hold => state = .added ∧ next = .held
      | .resume => state = .held ∧ next = .added
      | .fire => (state = .added ∨ state = .held) ∧ next = .fired
      | .void => (state = .added ∨ state = .held ∨ state = .fired) ∧ next = .voided
      | .amend => (state = .added ∨ state = .held) ∧ next = state := by
  cases trigger <;> cases state <;> simp [orderLineMachine, eq_comm]

theorem billMachine_next {state next : BillState} {trigger : BillTrigger} :
    billMachine.next state trigger = some next ↔
      match trigger with
      | .settle => state = .open ∧ next = .settled
      | .void => state = .open ∧ next = .voided
      | .voidSettled => state = .settled ∧ next = .voided
      | .reduce => state = .open ∧ next = .open
      | .split => state = .open ∧ next = .split
      | .merge => state = .open ∧ next = .merged := by
  cases trigger <;> cases state <;> simp [billMachine, eq_comm]

theorem shiftMachine_next {state next : ShiftState} {trigger : ShiftTrigger} :
    shiftMachine.next state trigger = some next ↔
      match trigger with
      | .count => state = .open ∧ next = .counted
      | .close => state = .counted ∧ next = .closed := by
  cases trigger <;> cases state <;> simp [shiftMachine, eq_comm]

/-! ## Tables -/

variable {ctx : DecisionCtx} {decision : ShiftDecision} {current : ShiftState} {pinVerified : Bool}

theorem decideTable_ok {current : TableState} {command : TableCommand}
    {decision : TableDecision} (h : decideTable current command ctx = .ok decision) :
    tableMachine.next current command.trigger = some decision.nextState := by
  simp only [decideTable, bind_eq_ok, pure_eq_ok, step_eq_ok] at h
  obtain ⟨_, _, next, hnext, _, _, rfl⟩ := h
  exact hnext

/-! ## Lines -/

section Lines

variable {current : OrderLineState} {ctx : DecisionCtx} {book : RecipeBook}
  {decision : LineDecision}

theorem decideLine_fire_ok {baseItem : MenuItemId} {modifiers : List MenuItemId}
    {quantity : Quantity} {course : Option CourseId}
    (h : decideLine current (.fire baseItem modifiers quantity course) ctx book = .ok decision) :
    (current = .added ∨ current = .held) ∧ decision.nextState = .fired := by
  simp only [decideLine, bind_eq_ok, pure_eq_ok, step_eq_ok, orderLineMachine_next]
    at h
  obtain ⟨_, _, next, ⟨hcurrent, rfl⟩, _, _, _, _, rfl⟩ := h
  exact ⟨hcurrent, rfl⟩

theorem decideLine_void_ok
    (h : decideLine current (.void pinVerified) ctx book = .ok decision) :
    decision.nextState = .voided := by
  simp only [decideLine, bind_eq_ok, pure_eq_ok, step_eq_ok, orderLineMachine_next]
    at h
  obtain ⟨next, ⟨_, rfl⟩, _, _, rfl⟩ := h
  rfl

end Lines

/-! ## Bills -/

section Bills

variable {current : BillState} {ctx : DecisionCtx} {decision : BillDecision}
  {parts : List (List OrderLineId)} {covers : List OrderLineId}

theorem checkPartition_ok
    (h : checkPartition covers parts = .ok ()) :
    2 ≤ parts.length ∧ (∀ part ∈ parts, part ≠ []) ∧ parts.flatten.Perm covers := by
  simp only [checkPartition, bind_eq_ok, refuseIf_eq_ok] at h
  obtain ⟨_, hlength, _, hempty, _, _, hsorted⟩ := h
  refine ⟨Nat.le_of_not_lt hlength, fun part hpart hnil => hempty ?_, ?_⟩
  · exact any_eq_true.2 ⟨part, hpart, by rw [hnil]; rfl⟩
  · calc parts.flatten.Perm (parts.flatten.insertionSort (· ≤ ·)) :=
          (perm_insertionSort _ _).symm
      _ = covers.insertionSort (· ≤ ·) := not_not.1 hsorted
      Perm _ covers := perm_insertionSort _ _

/-- The check accepts exactly the partitions: two parts or more, none of them empty, that deal out
    the lines the bill covers. -/
theorem checkPartition_accepts_partitions (covers : List OrderLineId)
    (parts : List (List OrderLineId)) :
    checkPartition covers parts = .ok () ↔
      2 ≤ parts.length ∧ (∀ part ∈ parts, part ≠ []) ∧ parts.flatten.Perm covers := by
  refine ⟨checkPartition_ok, ?_⟩
  rintro ⟨hlength, hne, hdealt⟩
  have hsorted : parts.flatten.insertionSort (· ≤ ·) = covers.insertionSort (· ≤ ·) :=
    Perm.eq_of_pairwise' (pairwise_insertionSort ..) (pairwise_insertionSort ..)
      ((perm_insertionSort ..).trans (hdealt.trans (perm_insertionSort ..).symm))
  have hempty : [] ∉ parts := fun hmem => hne [] hmem rfl
  simp only [checkPartition, bind_eq_ok, refuseIf_eq_ok]
  exact ⟨(), by omega, (), by simpa using hempty, (), by simp [hsorted], fun h => h hsorted⟩

theorem decideBill_split_ok
    (h : decideBill current (.split covers parts) ctx = .ok decision) :
    current = .open ∧ decision.nextState = .split ∧ checkPartition covers parts = .ok () := by
  simp only [decideBill, bind_eq_ok, pure_eq_ok, step_eq_ok, billMachine_next] at h
  obtain ⟨next, ⟨hcurrent, rfl⟩, _, _, _, hparts, rfl⟩ := h
  exact ⟨hcurrent, rfl, hparts⟩

theorem decideBill_merge_ok (h : decideBill current .merge ctx = .ok decision) :
    current = .open ∧ decision.nextState = .merged := by
  simp only [decideBill, bind_eq_ok, pure_eq_ok, step_eq_ok, billMachine_next] at h
  obtain ⟨next, ⟨hcurrent, rfl⟩, _, _, rfl⟩ := h
  exact ⟨hcurrent, rfl⟩

/-- A reduction that was let through leaves the bill's lines something, or nothing, to pay. -/
theorem refuseReductionsPast_ok {applied amount reducible : Money}
    (h : refuseReductionsPast applied amount reducible = .ok ()) :
    applied.minor + amount.minor ≤ reducible.minor := by
  simp only [refuseReductionsPast, bind_eq_ok, refuseIf_eq_ok, liftMoney_eq_ok,
    Money.checkedAdd_eq_ok, Money.checkedSub_eq_ok] at h
  obtain ⟨total, ⟨_, _, htotal⟩, left, ⟨_, _, hleft⟩, hneg⟩ := h
  have hpos : ¬ left.minor < 0 := fun hlt => hneg (decide_eq_true hlt)
  omega

theorem decideBill_reduce_ok {kind : ReductionKind} {amount applied reducible : Money}
    {ceiling : Option Money}
    (h : decideBill current (.reduce kind amount applied reducible ceiling pinVerified) ctx =
      .ok decision) :
    current = .open ∧ applied.minor + amount.minor ≤ reducible.minor := by
  simp only [decideBill, bind_eq_ok, pure_eq_ok, step_eq_ok, billMachine_next] at h
  obtain ⟨next, ⟨hcurrent, rfl⟩, _, _, _, hpast, rfl⟩ := h
  exact ⟨hcurrent, refuseReductionsPast_ok hpast⟩

theorem decideBill_settle_ok {totalDue : Money} {payments : List Payment}
    (h : decideBill current (.settle totalDue payments) ctx = .ok decision) :
    current = .open ∧ ∃ settlement, settle totalDue payments = .ok settlement := by
  simp only [decideBill, decideSettle, bind_eq_ok, pure_eq_ok, step_eq_ok,
    billMachine_next] at h
  obtain ⟨next, ⟨hcurrent, _⟩, _, _, _, _, settlement, hsettlement, _⟩ := h
  exact ⟨hcurrent, settlement, hsettlement⟩

theorem decideBill_voidSettled_ok {void : SettledVoid}
    (h : decideBill current (.voidSettled void) ctx = .ok decision) : current = .settled := by
  simp only [decideBill, decideSettledVoid, bind_eq_ok, pure_eq_ok, step_eq_ok,
    billMachine_next] at h
  obtain ⟨next, ⟨hcurrent, _⟩, _⟩ := h
  exact hcurrent

end Bills

/-! ## Shifts -/

theorem decideShift_count_ok {countedMinor : I64}
    (h : decideShift current (.count countedMinor) ctx = .ok decision) :
    current = .open ∧ decision.nextState = .counted := by
  simp only [decideShift, bind_eq_ok, pure_eq_ok, step_eq_ok, shiftMachine_next] at h
  obtain ⟨_, _, next, ⟨hopen, rfl⟩, rfl⟩ := h
  exact ⟨hopen, rfl⟩

theorem decideShift_close_ok
    (h : decideShift current .close ctx = .ok decision) : current = .counted := by
  simp only [decideShift, bind_eq_ok, pure_eq_ok, step_eq_ok, shiftMachine_next] at h
  obtain ⟨_, _, _, ⟨hcounted, _⟩, _⟩ := h
  exact hcounted

end PosFramework
