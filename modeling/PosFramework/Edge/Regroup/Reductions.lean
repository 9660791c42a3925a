import PosFramework.Edge.WellFormed.Bills

set_option autoImplicit false

/-! # What is taken off a bill

A bill's discount and comp as amounts, and how the operations that take more off one bill, or that
change bills only, act on them. -/

namespace PosFramework

open Fallible BillRecord ReductionKind Keyed

/-! ## What has been taken off -/

/-- What has been taken off of one kind; nothing where nothing was recorded. -/
def takenOff (held : Option Money) : Int := (held.map Money.minor).getD 0

def BillRecord.discountMinor (bill : BillRecord) : Int := takenOff bill.discount

def BillRecord.compMinor (bill : BillRecord) : Int := takenOff bill.comp

variable {amount : Money}

theorem addToSlot_ok {slot : Option Money} {total : Money}
    (h : addToSlot slot amount = .ok total) : total.minor = takenOff slot + amount.minor := by
  cases slot with
  | none =>
    cases h
    exact (Int.zero_add _).symm
  | some => exact (addMoney_eq_ok.1 h).2.2

/-- How much of an amount of a kind is a discount. -/
def ReductionKind.onDiscount (kind : ReductionKind) (amount : Int) : Int :=
  if kind = .discount then amount else 0

/-- How much of an amount of a kind is a comp. -/
def ReductionKind.onComp (kind : ReductionKind) (amount : Int) : Int :=
  if kind = .comp then amount else 0

/-- More was taken off a bill, and nothing else of it changed. -/
structure BillRecord.Reduced (record record' : BillRecord) (discount comp : Int) : Prop where
  same : record' = { record with discount := record'.discount, comp := record'.comp }
  discount : record'.discountMinor = record.discountMinor + discount
  comp : record'.compMinor = record.compMinor + comp

namespace BillRecord

theorem Reduced.refl (record : BillRecord) : record.Reduced record 0 0 :=
  ⟨rfl, (Int.add_zero _).symm, (Int.add_zero _).symm⟩

theorem Reduced.trans {record record' record'' : BillRecord} {d d' c c' : Int}
    (h : record.Reduced record' d c) (h' : record'.Reduced record'' d' c') :
    record.Reduced record'' (d + d') (c + c') where
  same := by
    rw [h'.same, h.same]
  discount := by rw [h'.discount, h.discount, Int.add_assoc]
  comp := by rw [h'.comp, h.comp, Int.add_assoc]

theorem reduce_reduced {record reduced : BillRecord} {kind : ReductionKind}
    (h : record.reduce kind amount = .ok reduced) :
    record.Reduced reduced (kind.onDiscount amount.minor) (kind.onComp amount.minor) := by
  cases kind <;> simp only [reduce, bind_eq_ok, pure_eq_ok, Except.ok.injEq] at h
  case discount =>
    obtain ⟨total, htotal, rfl⟩ := h
    exact ⟨rfl, addToSlot_ok htotal, (Int.add_zero _).symm⟩
  case comp =>
    obtain ⟨total, htotal, rfl⟩ := h
    exact ⟨rfl, (Int.add_zero _).symm, addToSlot_ok htotal⟩
  all_goals
    subst h
    exact .refl _

end BillRecord

namespace Projection

variable {P P' : Projection}

/-- What has been discounted on a bill. -/
def discountOf (P : Projection) (billId : BillId) : Int :=
  ((P.bill billId).map discountMinor).getD 0

/-- What has been comped on a bill. -/
def compOf (P : Projection) (billId : BillId) : Int :=
  ((P.bill billId).map compMinor).getD 0

variable {billId other : BillId} {record : BillRecord} {change : BillRecord → BillRecord}
  {state : BillState} {P'' : Projection}

theorem discountOf_congr (h : P'.bill billId = P.bill billId) :
    P'.discountOf billId = P.discountOf billId := by
  rw [discountOf, discountOf, h]

theorem compOf_congr (h : P'.bill billId = P.bill billId) : P'.compOf billId = P.compOf billId := by
  rw [compOf, compOf, h]

theorem bill_insert :
    ({ P with bills := P.bills.insert billId record } : Projection).bill other =
      if billId = other then some record else P.bill other :=
  get_insert ..

/-- One bill of the projection had more taken off. -/
def ReducedAt (P P' : Projection) (billId : BillId) (record : BillRecord) (discount comp : Int) :
    Prop :=
  ∃ record', P' = { P with bills := P.bills.insert billId record' } ∧
    record.Reduced record' discount comp

theorem ReducedAt.trans {d d' c c' : Int} (h : P.ReducedAt P' billId record d c)
    (h' : ∀ record', P'.bill billId = some record' → P'.ReducedAt P'' billId record' d' c') :
    P.ReducedAt P'' billId record (d + d') (c + c') := by
  obtain ⟨record', rfl, hreduced⟩ := h
  obtain ⟨record'', rfl, hreduced'⟩ := h' record' (by rw [bill_insert, if_pos rfl])
  refine ⟨record'', ?_, hreduced.trans hreduced'⟩
  rw [insert_insert_self]

theorem ReducedAt.refl (hbill : P.bill billId = some record) : P.ReducedAt P billId record 0 0 :=
  ⟨record, by rw [insert_self hbill], .refl record⟩

theorem addReduction_reducedAt {kind : ReductionKind}
    (hbill : P.bill billId = some record) (h : P.addReduction billId kind amount = .ok P') :
    P.ReducedAt P' billId record (kind.onDiscount amount.minor) (kind.onComp amount.minor) := by
  simp only [addReduction, hbill, bind_eq_ok, pure_eq_ok] at h
  obtain ⟨reduced, hreduced, rfl⟩ := h
  exact ⟨reduced, rfl, reduce_reduced hreduced⟩

theorem addHeld_reducedAt {kind : ReductionKind} {held : Option Money}
    (hbill : P.bill billId = some record) (h : P.addHeld billId kind held = .ok P') :
    P.ReducedAt P' billId record (kind.onDiscount (takenOff held))
      (kind.onComp (takenOff held)) := by
  cases held with
  | none =>
    cases h
    rw [takenOff, Option.map_none, Option.getD_none, onDiscount,
      onComp, ite_self, ite_self]
    exact .refl hbill
  | some => exact addReduction_reducedAt hbill h

/-! ## Changes of bills only -/

/-- Bills, and which orders are on the boards, changed; nothing else did. -/
def BillsOnly (P P' : Projection) : Prop :=
  ∃ bills live, P' = { P with bills := bills, live := live }

theorem BillsOnly.refl (P : Projection) : P.BillsOnly P := ⟨P.bills, P.live, rfl⟩

theorem BillsOnly.trans (h : P.BillsOnly P') (h' : P'.BillsOnly P'') : P.BillsOnly P'' := by
  obtain ⟨_, _, rfl⟩ := h
  obtain ⟨bills, live, rfl⟩ := h'
  exact ⟨bills, live, rfl⟩

theorem BillsOnly.coveredLines_eq (h : P.BillsOnly P') (bill : BillRecord) :
    P'.coveredLines bill = P.coveredLines bill := by
  obtain ⟨_, _, rfl⟩ := h
  rfl

theorem billsOnly_updateBill :
    P.BillsOnly (P.updateBill billId change) := ⟨_, _, rfl⟩

theorem billsOnly_setBillState : P.BillsOnly (P.setBillState billId state) := by
  unfold setBillState
  cases P.bill billId with
  | none => exact .refl P
  | some => exact ⟨_, _, rfl⟩

theorem billsOnly_setMergedFees {fees : Option MergedFees} :
    P.BillsOnly (P.setMergedFees billId fees) := by
  cases fees with
  | none => exact .refl P
  | some fees => exact billsOnly_updateBill

theorem bill_updateBill :
    (P.updateBill billId change).bill other =
      if billId = other then (P.bill billId).map change else P.bill other :=
  get_modify ..

theorem bill_setBillState :
    (P.setBillState billId state).bill other =
      if billId = other then (P.bill billId).map fun bill => { bill with state }
      else P.bill other := by
  unfold setBillState
  cases hbill : P.bill billId with
  | none =>
    by_cases heq : billId = other
    · rw [if_pos heq, ← heq, hbill]
      rfl
    · rw [if_neg heq]
  | some =>
    exact bill_updateBill.trans (by rw [hbill])

end Projection

end PosFramework
