import PosFramework.Edge.Paid
import PosFramework.Edge.Postings
import PosFramework.Edge.Tenders

set_option autoImplicit false

/-! # Drawers along a history

Along every history of the store the figures of a shift's record are the log's. The cash a void
gives back is what the log captured for its bill, because a bill is paid once and is not open when
it is voided; and a shift that was counted keeps its figures, because whatever moves cash asks for a
drawer that is open. -/

namespace PosFramework

open Fallible Projection Figures Option Trial Bool Edge Function Transition

/-! ## Bills that close -/

namespace Ledger

variable {L L' : Ledger} {actor : Actor} {scope : TillScope} {billId : BillId}
  {reasonCodeId : ReasonCodeId} {approval : Option Approval}

theorem Step.settles {payments : List Payment} {hasBuyer : Bool}
    (h : L.Step (.settleBill actor scope billId payments hasBuyer approval) L') :
    ∃ charge, L'.charge billId = some charge ∧ charge.state = .settled := by
  cases h with
  | quiet hquiet => exact absurd hquiet false_ne_true
  | addLine hadds => exact absurd hadds false_ne_true
  | openBill hopens => exact absurd hopens false_ne_true
  | settleBill => exact ⟨_, update_self .., rfl⟩

theorem Step.voids (h : L.Step (.voidBill actor billId reasonCodeId approval) L') :
    ∃ charge, L'.charge billId = some charge ∧ charge.state = .voided := by
  cases h with
  | quiet hquiet => exact absurd hquiet false_ne_true
  | addLine hadds => exact absurd hadds false_ne_true
  | openBill hopens => exact absurd hopens false_ne_true
  | voidBill => exact ⟨_, update_self .., rfl⟩

theorem Step.voidsSettled
    (h : L.Step (.voidSettledBill actor scope billId reasonCodeId approval) L') :
    ∃ charge, L'.charge billId = some charge ∧ charge.state = .voided := by
  cases h with
  | quiet hquiet => exact absurd hquiet false_ne_true
  | addLine hadds => exact absurd hadds false_ne_true
  | openBill hopens => exact absurd hopens false_ne_true
  | voidSettledBill => exact ⟨_, update_self .., rfl⟩

/-- A bill in one of some states that a bill only leaves for another of them. -/
def In (L : Ledger) (states : List BillState) (billId : BillId) : Prop :=
  ∃ charge, L.charge billId = some charge ∧ charge.state ∈ states

theorem In.paid {command : Command} (h : L.In [.settled, .voided] billId)
    (hstep : L.Step command L') : L'.In [.settled, .voided] billId := by
  obtain ⟨charge, hcharge, hstate⟩ := h
  have hclosed : charge.state ≠ .open := by
    intro hopen
    rw [hopen] at hstate
    simp at hstate
  rcases hstep.closed_charge hcharge hclosed with hsame | ⟨_, hvoided⟩
  · exact ⟨charge, hsame, hstate⟩
  · exact ⟨_, hvoided, by simp⟩

theorem In.voided {command : Command} (h : L.In [.voided] billId) (hstep : L.Step command L') :
    L'.In [.voided] billId := by
  obtain ⟨charge, hcharge, hstate⟩ := h
  rw [List.mem_singleton] at hstate
  have hclosed : charge.state ≠ .open := by simp [hstate]
  rcases hstep.closed_charge hcharge hclosed with hsame | ⟨hsettled, _⟩
  · exact ⟨charge, hsame, by simp [hstate]⟩
  · rw [hstate] at hsettled
    contradiction

end Ledger

/-! ## Drawers in order -/

/-- A drawer trades on a shift that has a record, of that drawer, and that is not closed; and every
    record's id was taken before. -/
structure Projection.Tilled (P : Projection) (bound : Nat) : Prop where
  trading : ∀ till shiftId, P.openShiftOf till = some shiftId →
    ∃ d, P.drawer shiftId = some d ∧ d.till = till ∧ (d.state = .open ∨ d.state = .counted)
  taken : ∀ shiftId d, P.drawer shiftId = some d → shiftId.ulid < bound

namespace Projection

variable {P P' : Projection} {bound bound' : Nat} {ids : Nat → Nat} {posting : Posting}
  {shift : Option ShiftId} {drawer : Drawer}

theorem Tilled.congr (hP : P.Tilled bound) (hle : bound ≤ bound')
    (hopen : P'.openShifts = P.openShifts) (hdrawer : ∀ shiftId d', P'.drawer shiftId = some d' →
      ∃ d, P.drawer shiftId = some d ∧ d'.till = d.till ∧
        (d'.state = d.state ∨ d.state = .open ∧ d'.state = .counted))
    (hkept : ∀ shiftId d, P.drawer shiftId = some d → ∃ d', P'.drawer shiftId = some d') :
    P'.Tilled bound' where
  trading := fun till shiftId hshift => by
    have hbefore : P.openShiftOf till = some shiftId := by
      rw [openShiftOf, ← hopen]
      exact hshift
    obtain ⟨d, hd, htill, hstate⟩ := hP.trading till shiftId hbefore
    obtain ⟨d', hd'⟩ := hkept shiftId d hd
    obtain ⟨other, hother, htill', hstate'⟩ := hdrawer shiftId d' hd'
    obtain rfl := some.inj (hd.symm.trans hother)
    refine ⟨d', hd', htill'.trans htill, ?_⟩
    rcases hstate' with hsame | ⟨_, hcounted⟩
    · rwa [hsame]
    · exact .inr hcounted
  taken := fun shiftId d' hd' => by
    obtain ⟨d, hd, _⟩ := hdrawer shiftId d' hd'
    exact (hP.taken shiftId d hd).trans_le hle

theorem Tilled.same (hP : P.Tilled bound) (hle : bound ≤ bound') (hsame : P.SameDrawers P') :
    P'.Tilled bound' :=
  hP.congr hle hsame.openShifts
    (fun shiftId d' hd' => ⟨d', (hsame.drawer shiftId).symm.trans hd', rfl, .inl rfl⟩)
    fun shiftId d hd => ⟨d, (hsame.drawer shiftId).trans hd⟩

theorem Tilled.changes (hP : P.Tilled bound) (hle : bound ≤ bound')
    {R : Drawer → Drawer → Prop} (hchanges : P.ChangesDrawer P' shift R)
    (hR : ∀ d d', R d d' → d'.till = d.till ∧ d'.state = d.state) : P'.Tilled bound' := by
  have hkept : ∀ shiftId d, P.drawer shiftId = some d →
      ∃ d', P'.drawer shiftId = some d' ∧ d'.till = d.till ∧ d'.state = d.state := by
    intro shiftId d hd
    by_cases heq : shift = some shiftId
    · obtain ⟨d', hd', hchange⟩ := hchanges.changed shiftId d heq hd
      exact ⟨d', hd', hR d d' hchange⟩
    · exact ⟨d, (hchanges.others shiftId heq).trans hd, rfl, rfl⟩
  refine hP.congr hle hchanges.openShifts (fun shiftId d' hd' => ?_) fun shiftId d hd => ?_
  · cases hd : P.drawer shiftId with
    | none =>
      rw [hchanges.missing shiftId hd] at hd'
      contradiction
    | some d =>
      obtain ⟨other, hother, htill, hstate⟩ := hkept shiftId d hd
      obtain rfl := some.inj (hd'.symm.trans hother)
      exact ⟨d, rfl, htill, .inl hstate⟩
  · obtain ⟨d', hd', _⟩ := hkept shiftId d hd
    exact ⟨d', hd'⟩

theorem Tilled.opens (hP : P.Tilled bound) (hle : bound ≤ bound') {shiftId : ShiftId}
    (hnew : bound ≤ shiftId.ulid) (htaken : shiftId.ulid < bound')
    (hopen : drawer.state = .open) (hmoves : (Posting.opens shiftId drawer).Moves P P') :
    P'.Tilled bound' := by
  obtain ⟨hdrawer, hopens⟩ := hmoves
  refine ⟨fun till other hother => ?_, fun other d hd => ?_⟩
  · rw [hopens] at hother
    split at hother
    · next htill =>
      obtain rfl := some.inj hother
      exact ⟨drawer, by rw [hdrawer, if_pos rfl], htill, .inl hopen⟩
    · obtain ⟨d, hd, hd'⟩ := hP.trading till other hother
      refine ⟨d, ?_, hd'⟩
      rw [hdrawer, if_neg ?_, hd]
      rintro rfl
      exact absurd (hP.taken shiftId d hd) (Nat.not_lt.2 hnew)
  · rw [hdrawer] at hd
    by_cases heq : shiftId = other
    · exact heq ▸ htaken
    · rw [if_neg heq] at hd
      exact (hP.taken other d hd).trans_le hle

theorem Tilled.counts (hP : P.Tilled bound) (hle : bound ≤ bound') {shiftId : ShiftId}
    (hdrawer : P.drawer shiftId = some drawer) (hopen : drawer.state = .open)
    (hmoves : (Posting.counts shiftId).Moves P P') : P'.Tilled bound' := by
  obtain ⟨hopens, hdrawers⟩ := hmoves
  refine hP.congr hle hopens (fun other d' hd' => ?_) fun other d hd => ?_
  · rw [hdrawers] at hd'
    by_cases heq : shiftId = other
    · subst heq
      rw [if_pos rfl, hdrawer] at hd'
      obtain rfl := some.inj hd'
      exact ⟨drawer, hdrawer, rfl, .inr ⟨hopen, rfl⟩⟩
    · rw [if_neg heq] at hd'
      exact ⟨d', hd', rfl, .inl rfl⟩
  · rw [hdrawers, hd]
    split
    · exact ⟨_, rfl⟩
    · exact ⟨d, rfl⟩

theorem Tilled.closes (hP : P.Tilled bound) (hle : bound ≤ bound')
    {closings : List (ShiftId × Money)}
    (hmoves : (Posting.closes closings).Moves P P') : P'.Tilled bound' := by
  obtain ⟨hdrawers, hopens⟩ := hmoves
  refine ⟨fun till other hother => ?_, fun other d' hd' => ?_⟩
  · obtain ⟨hbefore, hcloses⟩ := (hopens till other).1 hother
    obtain ⟨d, hd, htill, hstate⟩ := hP.trading till other hbefore
    refine ⟨d, ?_, htill, hstate⟩
    rw [hdrawers, if_neg ?_, hd]
    intro hmem
    exact hcloses (by simp [closesOn, hmem, hd, htill])
  · rw [hdrawers] at hd'
    split at hd'
    · obtain ⟨d, hd, _⟩ := map_eq_some_iff.1 hd'
      exact (hP.taken other d hd).trans_le hle
    · exact (hP.taken other d' hd').trans_le hle

/-- Drawers stay in order, whatever is posted. -/
theorem Tilled.step (hP : P.Tilled bound) {taken : Nat} (hids : TakesIds ids bound taken bound')
    (hminted : posting.minted ≤ taken) (hdecided : posting.Decided ids P)
    (hmoves : posting.Moves P P') : P'.Tilled bound' := by
  cases posting with
  | nothing | drops => exact hP.same hids.le hmoves
  | opens =>
    obtain ⟨hid, _, hopen, _⟩ := hdecided
    exact hP.opens hids.le (hid ▸ hids.new 0) (hid ▸ hids.gone 0 hminted) hopen hmoves
  | counts =>
    obtain ⟨d, hd, hopen⟩ := hdecided
    exact hP.counts hids.le hd hopen hmoves
  | closes => exact hP.closes hids.le hmoves
  | moves shiftId movement amount =>
    refine hP.changes hids.le hmoves fun d d' hchange => ?_
    cases movement <;> obtain ⟨_, _, rfl⟩ := hchange <;> exact ⟨rfl, rfl⟩
  | takes =>
    refine hP.changes hids.le hmoves fun d d' hchange => ?_
    obtain ⟨_, _, rfl⟩ := hchange
    exact ⟨rfl, rfl⟩
  | givesBack =>
    refine hP.changes hids.le hmoves fun d d' hchange => ?_
    obtain ⟨_, _, rfl⟩ := hchange
    exact ⟨rfl, rfl⟩

/-! ## Figures -/

/-- The figures of a drawer that trades change by what is posted. -/
theorem Tilled.figures_step (hP : P.Tilled bound) (hnew : ∀ i, bound ≤ ids i)
    (hdecided : posting.Decided ids P) (hmoves : posting.Moves P P') {log : List Event}
    (hcash : ∀ billId, posting.voids = some billId → cashTaken log billId = P.cashOf billId)
    (hdrops : ∀ billId shift, posting = .drops billId shift → P.cashOf billId = 0)
    (shiftId : ShiftId) :
    P'.figures shiftId = (P.figures shiftId).add (posting.figures log shiftId) := by
  have hrecord : ∀ shift : Option ShiftId,
      (∀ other, shift = some other → ∃ till, P.openShiftOf till = some other) →
        ∀ other, shift = some other → ∃ d, P.drawer other = some d := by
    intro shift htrades other hother
    obtain ⟨till, htill⟩ := htrades other hother
    obtain ⟨d, hd, _⟩ := hP.trading till other htill
    exact ⟨d, hd⟩
  cases posting with
  | nothing => exact (hmoves.figures_eq shiftId).trans (add_zero _).symm
  | opens opened drawer =>
    obtain ⟨hid, _, _, hfigures⟩ := hdecided
    rw [figures, hmoves.1]
    by_cases heq : opened = shiftId
    · -- a new shift has no figures before it opens
      have hnone : P.drawer shiftId = none := by
        cases hd : P.drawer shiftId with
        | none => rfl
        | some d =>
          have hlt := hP.taken shiftId d hd
          rw [← heq, hid] at hlt
          exact absurd hlt (Nat.not_lt.2 (hnew 0))
      rw [if_pos heq, figures, hnone, map_some, getD_some, hfigures]
      simp [Posting.figures, add, zero, heq]
    · rw [if_neg heq, Posting.figures, if_neg heq]
      exact (add_zero _).symm
  | counts =>
    rw [figures, hmoves.2]
    refine Eq.trans ?_ (add_zero _).symm
    split
    · rw [figures]
      cases P.drawer shiftId <;> rfl
    · rfl
  | closes =>
    rw [figures, hmoves.1]
    refine Eq.trans ?_ (add_zero _).symm
    split
    · rw [figures]
      cases P.drawer shiftId <;> rfl
    · rfl
  | moves moved movement amount =>
    obtain ⟨d, hd, _⟩ := hdecided
    rw [hmoves.figures_eq (fun figures => figures.move movement amount)
      (fun _ _ hchange => hchange.figures_eq)
      (fun other hother => ⟨d, some.inj hother ▸ hd⟩)]
    by_cases heq : moved = shiftId
    · rw [if_pos (congrArg some heq), Posting.figures, if_pos heq]
      cases movement <;> simp [move, add, zero]
    · rw [if_neg fun hsome => heq (some.inj hsome), Posting.figures, if_neg heq]
      exact (add_zero _).symm
  | takes billId shift amount =>
    rw [hmoves.figures_eq (fun figures => { figures with cash := figures.cash + amount })
      (fun _ _ hchange => hchange.figures_eq) (hrecord shift hdecided.2.1)]
    by_cases heq : shift = some shiftId
    · simp [heq, Posting.figures, add, zero]
    · simp [heq, Posting.figures, add, zero]
  | givesBack billId shift =>
    rw [hmoves.figures_eq
      (fun figures => { figures with voided := figures.voided + P.cashOf billId })
      (fun _ _ hchange => hchange.figures_eq) (hrecord shift hdecided.2.1)]
    by_cases heq : shift = some shiftId
    · simp [heq, Posting.figures, add, zero, hcash billId rfl]
    · simp [heq, Posting.figures, add, zero]
  | drops billId shift =>
    rw [hmoves.figures_eq, Posting.figures, hcash billId rfl, hdrops billId shift rfl, ite_self]
    exact (add_zero _).symm

/-! ## Counted drawers -/

/-- Cash that is stamped with a shift finds it open. -/
theorem Tilled.open_of_takesCash (hP : P.Tilled bound)
    (htrades : ∀ shiftId, shift = some shiftId → ∃ till, P.openShiftOf till = some shiftId)
    (htakes : Env.TakesCash P shift) {shiftId : ShiftId} {d : Drawer}
    (hshift : shift = some shiftId) (hd : P.drawer shiftId = some d) : d.state = .open := by
  obtain ⟨till, htill⟩ := htrades shiftId hshift
  obtain ⟨other, hother, _, hstate⟩ := hP.trading till shiftId htill
  obtain rfl := some.inj (hd.symm.trans hother)
  exact hstate.resolve_right (htakes shiftId d hshift hd)

/-- Only its state changes of a drawer that is not open. -/
theorem Tilled.frozen (hP : P.Tilled bound) (hnew : ∀ i, bound ≤ ids i)
    (hdecided : posting.Decided ids P) (hmoves : posting.Moves P P') {shiftId : ShiftId}
    {d : Drawer} (hd : P.drawer shiftId = some d) (hstate : d.state ≠ .open) :
    ∃ state, state ≠ .open ∧ P'.drawer shiftId = some { d with state := state } := by
  -- a drawer that is changed by no amount, or is another one, is as it was
  have hchanges : ∀ {shift : Option ShiftId} {R : Drawer → Drawer → Prop},
      P.ChangesDrawer P' shift R → (shift = some shiftId → ∀ d', R d d' → d' = d) →
        P'.drawer shiftId = some d := by
    intro shift R hchange hR
    by_cases heq : shift = some shiftId
    · obtain ⟨d', hd', hrel⟩ := hchange.changed shiftId d heq hd
      rw [hd', hR heq d' hrel]
    · exact (hchange.others shiftId heq).trans hd
  cases posting with
  | nothing | drops => exact ⟨d.state, hstate, (hmoves.drawer shiftId).trans hd⟩
  | opens opened drawer =>
    have hne : opened ≠ shiftId := by
      rintro rfl
      exact absurd (hP.taken opened d hd) (Nat.not_lt.2 (hdecided.1 ▸ hnew 0))
    exact ⟨d.state, hstate, by rw [hmoves.1, if_neg hne, hd]⟩
  | counts counted =>
    obtain ⟨other, hother, hopen⟩ := hdecided
    have hne : counted ≠ shiftId := by
      rintro rfl
      obtain rfl := some.inj (hd.symm.trans hother)
      exact hstate hopen
    exact ⟨d.state, hstate, by rw [hmoves.2, if_neg hne, hd]⟩
  | closes =>
    rw [hmoves.1, hd]
    split
    · exact ⟨.closed, by simp, rfl⟩
    · exact ⟨d.state, hstate, rfl⟩
  | moves =>
    obtain ⟨other, hother, hopen, _⟩ := hdecided
    refine ⟨d.state, hstate, hchanges hmoves fun hmoved => ?_⟩
    obtain rfl := some.inj hmoved
    obtain rfl := some.inj (hd.symm.trans hother)
    exact absurd hopen hstate
  | takes =>
    obtain ⟨_, htrades, htakes⟩ := hdecided
    refine ⟨d.state, hstate, hchanges hmoves fun hshift d' hrel => ?_⟩
    refine hrel.eq_of_zero (by_contra fun hne => ?_)
    exact hstate (hP.open_of_takesCash htrades (htakes hne) hshift hd)
  | givesBack =>
    obtain ⟨_, htrades, htakes⟩ := hdecided
    refine ⟨d.state, hstate, hchanges hmoves fun hshift d' hrel => ?_⟩
    refine hrel.eq_of_zero (by_contra fun hne => ?_)
    exact hstate (hP.open_of_takesCash htrades (htakes hne) hshift hd)

end Projection

/-! ## Runs -/

/-- The projection's figures are the log's; cash was taken only for bills that were paid, and
    whatever was voided is. -/
structure Edge.Reckoned (ids : IdSource) (edge : Edge) : Prop where
  tilled : edge.projection.Tilled (ids.mint edge.minted)
  figures : ∀ shiftId, edge.projection.figures shiftId = figuresBy edge.log shiftId
  cash : ∀ billId, edge.projection.cashOf billId = cashTaken edge.log billId
  paid : ∀ billId, cashTaken edge.log billId ≠ 0 →
    edge.projection.ledger.In [.settled, .voided] billId
  voided : ∀ event ∈ edge.log, ∀ billId, event.payload.voids = some billId →
    edge.projection.ledger.In [.voided] billId

namespace Edge

variable {ids : IdSource} {input : Env × Command} {edge edge' : Edge}
    {inputs : List (Env × Command)}
  {bill : BillRecord} {billId : BillId} {P : Projection}

theorem reckoned_initial : initial.Reckoned ids where
  tilled := by
    refine ⟨fun till shiftId h => ?_, fun shiftId d h => ?_⟩
    · simp [initial, empty, openShiftOf] at h
    · simp [initial, empty, drawer, shift] at h
  figures := fun shiftId => by
    simp [initial, empty, figures, drawer, shift,
      figuresBy, figuresWith, onShift, zero]
  cash := fun billId => by simp [initial, empty, cashOf, cashTaken]
  paid := fun billId h => absurd rfl h
  voided := fun event h => nomatch h

theorem charge_state {charge : Charge}
    (hbill : P.bill billId = some bill) (hcharge : P.ledger.charge billId = some charge) :
    charge.state = bill.state := by
  rw [charge_ledger, hbill] at hcharge
  obtain rfl := some.inj hcharge
  rfl

/-- A bill that is open was neither paid nor voided. -/
theorem not_in_of_open {states : List BillState}
    (hbill : P.bill billId = some bill) (hopen : bill.state = .open) (hstates : .open ∉ states) :
    ¬ P.ledger.In states billId := by
  rintro ⟨charge, hcharge, hstate⟩
  rw [charge_state hbill hcharge, hopen] at hstate
  exact hstates hstate

/-- Where a command takes the bill it is about. -/
theorem posting_closes {command : Command} {posting : Posting} {L L' : Ledger}
    (hposts : command.PostsAs posting) (hstep : L.Step command L') :
    (∀ billId, posting.cashFor billId ≠ 0 → L'.In [.settled, .voided] billId) ∧
      ∀ billId, posting.voids = some billId → L'.In [.voided] billId := by
  cases command with
  | settleBill actor scope billId payments hasBuyer approval =>
    obtain ⟨shift, rfl⟩ := hposts
    obtain ⟨charge, hcharge, hstate⟩ := hstep.settles
    refine ⟨fun other hcash => ?_, fun other hvoids => nomatch hvoids⟩
    by_cases heq : other = billId
    · exact heq ▸ ⟨charge, hcharge, by simp [hstate]⟩
    · exact absurd (if_neg heq) hcash
  | voidBill =>
    obtain ⟨shift, rfl⟩ := hposts
    obtain ⟨charge, hcharge, hstate⟩ := hstep.voids
    refine ⟨fun other hcash => absurd rfl hcash, fun other hvoids => ?_⟩
    obtain rfl := some.inj hvoids
    exact ⟨charge, hcharge, by simp [hstate]⟩
  | voidSettledBill =>
    obtain ⟨shift, rfl⟩ := hposts
    obtain ⟨charge, hcharge, hstate⟩ := hstep.voidsSettled
    refine ⟨fun other hcash => absurd rfl hcash, fun other hvoids => ?_⟩
    obtain rfl := some.inj hvoids
    exact ⟨charge, hcharge, by simp [hstate]⟩
  | openShift =>
    obtain ⟨_, _, rfl⟩ := hposts
    exact ⟨fun _ hcash => absurd rfl hcash, fun _ hvoids => nomatch hvoids⟩
  | closeShift =>
    obtain ⟨_, rfl⟩ := hposts
    exact ⟨fun _ hcash => absurd rfl hcash, fun _ hvoids => nomatch hvoids⟩
  | closeShifts =>
    obtain ⟨_, rfl, _⟩ := hposts
    exact ⟨fun _ hcash => absurd rfl hcash, fun _ hvoids => nomatch hvoids⟩
  | _ =>
    obtain rfl := hposts
    exact ⟨fun _ hcash => absurd rfl hcash, fun _ hvoids => nomatch hvoids⟩

theorem step_reckoned (hedge : edge.WellFormed ids) (h : edge.Reckoned ids)
    (hstep : edge.step ids input = .ok edge') : edge'.Reckoned ids := by
  have hledger := (step_accounted hedge hstep).step
  obtain ⟨plan, projection, hplan, happly, _, rfl⟩ := (step_eq_ok ids).1 hstep
  obtain ⟨posting, hposts, hplanned⟩ := Command.plan_posts hplan
  have happlied := hplanned.applied _ _ happly
  have hids := takesIds ids edge plan.minted
  obtain ⟨hpays, hvoids⟩ := posting_closes hposts hledger
  -- a bill the log voided takes no cash now: it is not open
  have hquiet : ∀ event ∈ edge.log, ∀ billId, event.payload.voids = some billId →
      cashTaken plan.events billId = 0 := by
    intro event hevent billId hvoided
    rw [hplanned.logged.cash]
    by_contra hcash
    cases posting with
    | takes paid shift amount =>
      by_cases heq : billId = paid
      · obtain ⟨⟨bill, hbill, hopen⟩, _⟩ := hplanned.decided
        exact not_in_of_open hbill hopen (by simp) (heq ▸ h.voided event hevent billId hvoided)
      · exact hcash (if_neg heq)
    | _ => exact hcash rfl
  -- nothing is captured by a void
  have hcash : ∀ billId, posting.voids = some billId →
      cashTaken (edge.log ++ plan.events) billId = edge.projection.cashOf billId := by
    intro billId hvoided
    rw [cashTaken_append, hplanned.logged.cash, h.cash]
    cases posting with
    | takes => exact nomatch hvoided
    | _ => exact Int.add_zero _
  have hdrops : ∀ billId shift, posting = .drops billId shift →
      edge.projection.cashOf billId = 0 := by
    rintro billId shift rfl
    obtain ⟨bill, hbill, hopen⟩ := hplanned.decided
    rw [h.cash]
    by_contra hne
    exact not_in_of_open hbill hopen (by simp) (h.paid billId hne)
  refine ⟨h.tilled.step hids hplanned.minted hplanned.decided happlied.drawers, fun shiftId => ?_,
    fun billId => ?_, fun billId hne => ?_, fun event hevent billId hvoided => ?_⟩
  · rw [h.tilled.figures_step hids.new hplanned.decided happlied.drawers hcash hdrops, h.figures,
      figuresBy_append hquiet, hplanned.logged.figures]
  · rw [happlied.cash, h.cash, cashTaken_append, hplanned.logged.cash]
  · replace hne : cashTaken (edge.log ++ plan.events) billId ≠ 0 := hne
    rw [cashTaken_append, hplanned.logged.cash] at hne
    by_cases hnow : posting.cashFor billId = 0
    · rw [hnow, Int.add_zero] at hne
      exact (h.paid billId hne).paid hledger
    · exact hpays billId hnow
  · rcases List.mem_append.1 hevent with hbefore | hnow
    · exact (h.voided event hbefore billId hvoided).voided hledger
    · exact hvoids billId (hplanned.logged.voids event hnow billId hvoided)

theorem reckoned_of_run {allowed : Edge → Env × Command → Prop}
    (hrun : Run ids allowed initial inputs edge) : edge.WellFormed ids ∧ edge.Reckoned ids :=
  Run.invariant (I := fun edge : Edge => edge.WellFormed ids ∧ edge.Reckoned ids)
    (fun _ _ _ h _ hstep => ⟨(step_accounted h.1 hstep).wellFormed h.1,
      step_reckoned h.1 h.2 hstep⟩)
    hrun ⟨wellFormed_initial, reckoned_initial⟩

/-- A drawer that is not open keeps its figures. -/
theorem frozen_of_run {allowed : Edge → Env × Command → Prop} (hedge : edge.WellFormed ids)
    (h : edge.Reckoned ids) (hrun : Run ids allowed edge inputs edge') {shiftId : ShiftId}
    {d : Drawer} (hd : edge.projection.drawer shiftId = some d) (hstate : d.state ≠ .open) :
    ∃ state, state ≠ .open ∧ edge'.projection.drawer shiftId = some { d with state := state } := by
  have hinv : (edge'.WellFormed ids ∧ edge'.Reckoned ids) ∧ ∃ state, state ≠ .open ∧
      edge'.projection.drawer shiftId = some { d with state := state } := by
    refine Run.invariant (I := fun edge' : Edge =>
        (edge'.WellFormed ids ∧ edge'.Reckoned ids) ∧ ∃ state, state ≠ .open ∧
          edge'.projection.drawer shiftId = some { d with state := state }) ?_ hrun
      ⟨⟨hedge, h⟩, d.state, hstate, hd⟩
    rintro edge input edge' ⟨⟨hedge, h⟩, state, hstate, hd⟩ _ hstep
    refine ⟨⟨(step_accounted hedge hstep).wellFormed hedge, step_reckoned hedge h hstep⟩, ?_⟩
    obtain ⟨plan, projection, hplan, happly, _, rfl⟩ := (step_eq_ok ids).1 hstep
    obtain ⟨posting, _, hplanned⟩ := Command.plan_posts hplan
    obtain ⟨next, hnext, hd'⟩ := h.tilled.frozen
      (takesIds ids edge plan.minted).new hplanned.decided
      (hplanned.applied _ _ happly).drawers hd hstate
    exact ⟨next, hnext, hd'⟩
  exact hinv.2

end Edge

/-- What every shift expects is its opening float with the cash of the settles stamped with it and
    its paid-ins, less its paid-outs, its drops and the cash of the paid bills whose void is stamped
    with it; and once the shift is counted, nothing changes what it expects. -/
theorem drawer_conserved {ids : IdSource} {allowed : Edge → Env × Command → Prop}
    {inputs : List (Env × Command)} {edge : Edge} (hrun : Run ids allowed .initial inputs edge) :
    (∀ shiftId record expected, edge.projection.shift shiftId = some record →
      record.expected = .ok expected → expected.minor = (figuresBy edge.log shiftId).total) ∧
    ∀ shiftId record, edge.projection.shift shiftId = some record → record.state = .counted →
      ∀ later edge', Run ids allowed edge later edge' →
        ∃ record', edge'.projection.shift shiftId = some record' ∧
          record'.expected = record.expected := by
  obtain ⟨hedge, h⟩ := reckoned_of_run hrun
  constructor
  · intro shiftId record expected hrecord hexpected
    rw [ShiftRecord.minor_of_expected hexpected, ← h.figures, figures, drawer,
      hrecord]
    rfl
  · intro shiftId record hrecord hcounted later edge' hlater
    have hd : edge.projection.drawer shiftId = some record.drawer :=
      drawer_eq_some.2 ⟨record, hrecord, rfl⟩
    have hstate : record.drawer.state ≠ .open := by
      intro hopen
      exact absurd (hcounted.symm.trans hopen) (by simp)
    obtain ⟨state, _, hd'⟩ := frozen_of_run hedge h hlater hd hstate
    obtain ⟨record', hrecord', heq⟩ := drawer_eq_some.1 hd'
    refine ⟨record', hrecord', ?_⟩
    exact ShiftRecord.expected_congr (congrArg Drawer.openingFloat heq)
      (congrArg Drawer.cashCollected heq) (congrArg Drawer.paidIn heq) (congrArg Drawer.paidOut heq)
      (congrArg Drawer.dropped heq) (congrArg Drawer.voidedCash heq)

namespace Trial

/-- The bill is paid in cash, and the drawer is counted. -/
def paidAndCounted : List Command :=
  tradingAndBilled ++ [settleBy tenInCash,
    .countShift actor ⟨none, none⟩ ⟨0⟩ ⟨106, by decide, by decide⟩ .none none]

end Trial

theorem drawer_conserved_paidAndCounted :
    ∃ edge record expected, Run ids (fun _ _ => True) .initial
        (inputs paidAndCounted) edge ∧
      edge.projection.shift ⟨0⟩ = some record ∧ record.state = .counted ∧
      record.expected = .ok expected ∧ expected.minor = 106 ∧
      (figuresBy edge.log ⟨0⟩).total = 106 := by
  obtain ⟨edge, hrun, hedge⟩ : ∃ edge, Run ids (fun _ _ => True) .initial
      (inputs paidAndCounted) edge ∧
      ((edge.projection.shift ⟨0⟩).any fun record => decide (record.state = .counted) &&
        succeedsWith record.expected fun expected => decide (expected.minor = 106)) = true :=
    run_of_after (by decide +kernel)
  obtain ⟨record, hrecord, hproperty⟩ := (any_eq_true _ _).1 hedge
  obtain ⟨hcounted, hsucceeds⟩ := and_eq_true_iff.1 hproperty
  obtain ⟨expected, hexpected, hminor⟩ := exists_of_succeedsWith hsucceeds
  refine ⟨edge, record, expected, hrun, hrecord, of_decide_eq_true hcounted, hexpected,
    of_decide_eq_true hminor, ?_⟩
  rw [← (drawer_conserved hrun).1 ⟨0⟩ record expected hrecord hexpected]
  exact of_decide_eq_true hminor

end PosFramework
