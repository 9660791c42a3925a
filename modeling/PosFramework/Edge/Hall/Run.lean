import PosFramework.Edge.Hall.Frames
import PosFramework.Edge.WellFormed.Run

set_option autoImplicit false

/-! # Every command moves the hall

Each command that is taken does to the hall what its row in `Hall.Step` says, so that a store's
history keeps the hall sound. -/

namespace PosFramework

open Fallible Projection Env Hall List Option

/-- What a command leaves of the hall: one step on, with no ended order on the boards. -/
structure Hosted (command : Command) (P P' : Projection) : Prop where
  step : P.hall.Step command P'.hall
  live : P'.LiveTrades

/-- A hall in order: its tables point at orders that trade there, and so do the boards. -/
structure Projection.HallSound (P : Projection) : Prop where
  sound : P.hall.Sound
  live : P.LiveTrades

theorem Hosted.hallSound {command : Command} {P P' : Projection} (h : Hosted command P P')
    (hP : P.HallSound) : P'.HallSound :=
  ⟨h.step.sound hP.sound, h.live⟩

variable {P P' : Projection} {bound bound' : Nat} {ids : Nat → Nat} {command : Command} {env : Env}
  {plan : Plan}

theorem hosted_of_hall_eq (hquiet : command.leavesHall = true) (hhall : P'.hall = P.hall)
    (hlive : P'.LiveTrades) : Hosted command P P' := by
  refine ⟨?_, hlive⟩
  rw [hhall]
  exact .quiet hquiet

theorem Projection.TakingsOnly.hosted (h : P.TakingsOnly P') (hP : P.HallSound)
    (hquiet : command.leavesHall = true) : Hosted command P P' :=
  hosted_of_hall_eq hquiet h.hall_eq (h.liveTrades hP.live)

theorem Projection.SameFaces.hosted (h : P.SameFaces P') (hP : P.HallSound)
    (hquiet : command.leavesHall = true) : Hosted command P P' :=
  hosted_of_hall_eq hquiet h.hall_eq (h.liveTrades hP.live)

/-! ## Orders -/

theorem Projection.place_eq_none_of_le (hP : P.WellFormed bound) {id : Nat} (hid : bound ≤ id) :
    P.hall.place ⟨id⟩ = none := by
  show (P.orderOrigin ⟨id⟩).map _ = none
  cases horigin : P.orderOrigin ⟨id⟩ with
  | none => rfl
  | some origin => exact absurd (hP.floor.orders _ origin horigin) (Nat.not_lt.2 hid)

variable {target orderId : OrderId} {tableId : Option TableId} {actor : Actor}
  {reasonCodeId : ReasonCodeId} {billId : BillId} {bill : BillRecord} {scope : TillScope}
  {approval : Option Approval} {channel : Option SalesChannel} {session : EdgeSession}

/-- The order a guest's lines join trades at the guest's table. -/
theorem Projection.joinableOrderAt_some {tableId : TableId}
    {excluding : Option OrderId} (hP : P.HallSound)
    (h : P.joinableOrderAt session tableId excluding = some target) :
    P.hall.place target = some (some tableId) ∧ target ∉ P.hall.ended ∧
      some target ≠ excluding := by
  have hfound := find?_some h
  simp only [Bool.and_eq_true, decide_eq_true_eq, takesJoiningLines, Bool.not_eq_true',
    decide_eq_false_iff_not] at hfound
  refine ⟨?_, hfound.2.1.1, hfound.1⟩
  rcases mem_append.1 (mem_of_find?_eq_some h) with hmem | hmem
  · exact hP.sound.placed tableId target (mem_toList.1 hmem)
  · obtain ⟨origin, horigin, hthere⟩ := (any_eq_true _ _).1 (mem_filter.1 hmem).2
    show (P.orderOrigin target).map _ = _
    rw [horigin]
    exact congrArg some (of_decide_eq_true hthere)

theorem Projection.noneOpenBut_of_latestBillIn (hindexed : P.books.Indexed)
    (h : P.latestBillIn orderId .open = none) : P.hall.NoneOpenBut orderId none := by
  intro billId tab htab _ horder
  obtain ⟨record, hrecord, rfl⟩ := map_eq_some_iff.1 htab
  exact latestBillIn_eq_none hindexed h (charge_of_bill hrecord) horder

theorem Projection.awaitsStaffConfirmation_ok
    (h : P.awaitsStaffConfirmation session orderId = true) :
    P.staffDecision orderId = none ∧ orderId ∉ P.closedOrders ∧
      (P.hall.place orderId).isSome = true := by
  simp only [awaitsStaffConfirmation, Bool.and_eq_true, Bool.not_eq_true', decide_eq_false_iff_not,
    isNone_iff_eq_none] at h
  obtain ⟨⟨hnone, hopen⟩, hholds⟩ := h
  obtain ⟨origin, horigin, _⟩ := (any_eq_true _ _).1 hholds
  refine ⟨hnone, hopen, ?_⟩
  show ((P.orderOrigin orderId).map _).isSome = true
  rw [horigin]
  rfl

/-- The order a guest's lines join as they arrive. -/
theorem orderJoinedOnArrival_some {holds : Bool} (hH : P.HallSound)
    (h : env.orderJoinedOnArrival P channel tableId holds = some target) :
    ∃ there, tableId = some there ∧ P.hall.place target = some (some there) ∧
      target ∉ P.hall.ended := by
  unfold orderJoinedOnArrival at h
  split at h
  next =>
    obtain ⟨there, hthere, hjoinable⟩ := bind_eq_some_iff.1 h
    obtain ⟨hplace, htarget, _⟩ := joinableOrderAt_some hH hjoinable
    exact ⟨there, hthere, hplace, htarget⟩
  next => contradiction

/-- A guest's order comes in, at its table where it has one. -/
def Hall.arrived (H : Hall) (orderId : OrderId) : Option TableId → Hall
  | none => H.put orderId none
  | some tableId => H.seat tableId orderId

def Hall.joined (H : Hall) (merged : OrderId) : Option OrderId → Hall
  | none => H
  | some target => H.join target merged

theorem Hall.Sound.arrived {H : Hall} (hH : H.Sound) (hnew : H.place orderId = none)
    (tableId : Option TableId) : (H.arrived orderId tableId).Sound := by
  cases tableId with
  | none => exact hH.put (hH.order_ne_of_new hnew)
  | some => exact hH.seat (hH.order_ne_of_new hnew) (hH.not_ended_of_new hnew)

theorem Projection.hall_foldInboundOrder
    {entries : List (OrderLineId × LineRecord)} {joins : Option OrderId} (hH : P.hall.Sound)
    (hnew : P.hall.place orderId = none)
    (hjoins : ∀ target, joins = some target → target ≠ orderId) :
    (P.foldInboundOrder orderId channel tableId entries joins).hall =
      (P.hall.arrived orderId tableId).joined orderId joins := by
  let Q := entries.foldl (fun P entry => P.addLine entry.1 entry.2)
    (P.arrivedOrder orderId channel tableId)
  have hQ : Q.hall = P.hall.arrived orderId tableId := by
    refine hall_addLines.trans ?_
    cases tableId with
    | none => exact hall_openOrderOrigin
    | some => exact hall_seat
  cases joins with
  | none => exact hQ
  | some target =>
    show (Q.mergeOrder target orderId).hall = _
    rw [hall_mergeOrder ?_ (hjoins target rfl), hQ]
    · rfl
    · rw [hQ]
      exact (hH.arrived hnew tableId).placed

theorem hosted_openInboundOrder {deviceId : DeviceId} {channel : Open SalesChannel}
    {lines : List (PricedLine × Bool)} (hP : P.WellFormed bound) (hH : P.HallSound)
    (hids : TakesIds ids bound plan.minted bound')
    (hplan : env.openInboundOrder ids P deviceId channel tableId lines = .ok plan)
    (happly : plan.apply P = .ok P') :
    Hosted (.openInboundOrder deviceId channel tableId lines) P P' := by
  obtain ⟨businessDate, joins, prepare, hjoins, _, rfl⟩ := openInboundOrder_ok hplan
  cases happly
  let orderId : OrderId := ⟨ids 0⟩
  let R := P.arrivedOrder orderId channel.require? tableId
  have hnew : P.hall.place orderId = none := place_eq_none_of_le hP (hids.new 0)
  have hne : ∀ target, joins = some target → target ≠ orderId := by
    rintro target rfl rfl
    obtain ⟨_, _, hplace, _⟩ := orderJoinedOnArrival_some hH hjoins.symm
    rw [hnew] at hplace
    contradiction
  refine ⟨?_, ?_⟩
  · rw [hall_foldInboundOrder hH.sound hnew hne]
    cases joins with
    | none =>
      cases tableId with
      | none => exact .arrive hnew
      | some => exact .arriveAt hnew
    | some =>
      obtain ⟨there, rfl, hplace, htarget⟩ := orderJoinedOnArrival_some hH hjoins.symm
      exact .arriveAndJoin hnew hplace htarget
  · have hR : R.LiveTrades := by
      cases tableId <;> exact hH.live.congr rfl rfl rfl
    cases joins with
    | none => exact hR.addLines _
    | some target => exact (hR.addLines _).mergeOrder target orderId

/-- The order a guest's lines join once staff confirm them. -/
theorem orderJoinedOnConfirm_there (hH : P.HallSound)
    (h : env.orderJoinedOnConfirm P orderId = some target) :
    ∃ tableId, P.hall.place orderId = some (some tableId) ∧
      P.hall.place target = some (some tableId) ∧ target ∉ P.hall.ended ∧ target ≠ orderId ∧
      P.billForOrder orderId = none := by
  unfold orderJoinedOnConfirm at h
  split at h
  next hjoin =>
    obtain ⟨tableId, hplace, hjoinable⟩ := bind_eq_some_iff.1 h
    obtain ⟨hthere, htarget, hne⟩ := joinableOrderAt_some hH hjoinable
    obtain ⟨origin, horigin, htable⟩ := bind_eq_some_iff.1 hplace
    refine ⟨tableId, ?_, hthere, htarget, fun heq => hne (congrArg some heq), hjoin.2⟩
    show (P.orderOrigin orderId).map _ = _
    rw [horigin]
    exact congrArg some htable
  next => contradiction

theorem hosted_confirmInboundOrder (hP : P.WellFormed bound) (hH : P.HallSound)
    (hplan : env.confirmInboundOrder ids P actor orderId = .ok plan)
    (happly : plan.apply P = .ok P') : Hosted (.confirmInboundOrder actor orderId) P P' := by
  obtain ⟨ctx, joins, payloads, hawaits, hjoins, _, rfl⟩ := confirmInboundOrder_ok hplan
  cases happly
  obtain ⟨hnone, _, _⟩ := awaitsStaffConfirmation_ok hawaits
  have hdecided : (P.decided orderId .confirmed).hall = P.hall :=
    hall_decided_confirmed hnone
  have hlive := hH.live.decided orderId .confirmed
  cases joins with
  | none =>
    refine ⟨?_, hlive⟩
    show P.hall.Step _ (P.decided orderId .confirmed).hall
    rw [hdecided]
    exact .confirm
  | some target =>
    obtain ⟨tableId, hplaced, hthere, htarget, hne, hbill⟩ :=
      orderJoinedOnConfirm_there hH hjoins.symm
    refine ⟨?_, hlive.mergeOrder target orderId⟩
    show P.hall.Step _ ((P.decided orderId .confirmed).mergeOrder target orderId).hall
    rw [hall_mergeOrder (hdecided ▸ hH.sound.placed) hne, hdecided]
    exact .confirmAndJoin hplaced hne
      (noneOpenBut_of_latestBillIn hP.indexed (or_eq_none_iff.1 hbill).1)
      hthere htarget

/-- Where a table does not point at the order that ends, it points where it did. -/
theorem Hall.finish_point {H : Hall} {tableId : TableId} {back : Option OrderId}
    {state : TableState} (hback : back ≠ some orderId) :
    ((H.point tableId back).setState tableId state).finish orderId =
      ((H.finish orderId).point tableId back).setState tableId state := by
  refine Hall.ext rfl (funext fun other => ?_) rfl rfl rfl rfl
  show (if (H.point tableId back).order other = some orderId then none
    else (H.point tableId back).order other) = ((H.finish orderId).point tableId back).order other
  rw [order_point, order_point]
  by_cases heq : other = tableId
  · rw [if_pos heq, if_pos heq, if_neg hback]
  · rw [if_neg heq, if_neg heq]
    rfl

theorem hosted_rejectInboundOrder (hH : P.HallSound)
    (hplan : env.rejectInboundOrder ids P actor orderId reasonCodeId = .ok plan)
    (happly : plan.apply P = .ok P') :
    Hosted (.rejectInboundOrder actor orderId reasonCodeId) P P' := by
  obtain ⟨ctx, hawaits, rfl⟩ := rejectInboundOrder_ok hplan
  cases happly
  obtain ⟨_, _, hplace⟩ := awaitsStaffConfirmation_ok hawaits
  refine ⟨?_, (hH.live.recordStaffDecision orderId .rejected).closeOrder orderId⟩
  let Q := P.decided orderId .rejected
  have hQ : Q.hall = P.hall.refuse orderId := hall_decided_rejected
  have hQplaced : Q.hall.Placed := hQ ▸ hH.sound.placed
  have hQlive : Q.LiveTrades := hH.live.decided orderId .rejected
  rw [recordStaffDecision_rejected]
  cases htable : P.tableForOrder orderId with
  | none =>
    rw [show Q.tableForOrder orderId = none from htable]
    rw [hall_closeOrder hQplaced, hQ]
    exact .reject hplace (orderForTable_ne_of_tableForOrder hH.sound.placed htable)
  | some tableId =>
    rw [show Q.tableForOrder orderId = some tableId from htable]
    obtain ⟨back, state, hgiven, hback⟩ := @hall_giveTableBack Q tableId
    -- an order on the boards is neither the one that is rejected nor one that has ended
    have hother : ∀ other, back = some other → other ≠ orderId ∧
        P.hall.place other = some (some tableId) ∧ other ∉ P.hall.ended := by
      intro other heq
      obtain ⟨hlive, hthere⟩ := hback other heq
      obtain ⟨hopen, hnot⟩ := hQlive other hlive
      refine ⟨?_, ?_, hopen⟩
      · rintro rfl
        refine hnot ?_
        show (P.staffDecisions.insert other .rejected)[other]? = _
        rw [Keyed.get_insert, if_pos rfl]
      · rwa [hQ] at hthere
    have hplaced : (Q.giveTableBack tableId).hall.Placed := by
      rw [hgiven]
      intro other order horder
      have hpoint : (Q.hall.point tableId back).order other = some order := horder
      rw [order_point] at hpoint
      split at hpoint
      · next heq =>
        exact heq ▸ (hback order hpoint).2
      · exact hQplaced other order hpoint
    rw [hall_closeOrder hplaced, hgiven, hQ,
      finish_point fun heq => (hother orderId heq).1 rfl]
    exact .rejectAt (orderForTable_of_tableForOrder htable) hother

/-! ## Bills -/

theorem hosted_openBillForOrder (hP : P.WellFormed bound) (hH : P.HallSound) (hnew : bound ≤ ids 0)
    (hcommand : command.opensBill = true)
    (hplan : env.openBillForOrder ids P actor orderId = .ok plan) (happly : plan.apply P = .ok P') :
    Hosted command P P' := by
  obtain ⟨ctx, _, _, hoccupied, rfl⟩ := openBillForOrder_ok hplan
  cases happly
  have hnew : P.hall.tab ⟨ids 0⟩ = none := by
    show (P.bill ⟨ids 0⟩).map _ = none
    rw [bill_eq_none_of_le hP hnew]
    rfl
  have htable : ∀ tableId, P.tableForOrder orderId = some tableId →
      P.hall.order tableId = some orderId ∧ P.hall.state tableId = .occupied :=
    fun tableId htable =>
      ⟨orderForTable_of_tableForOrder htable, hoccupied tableId htable⟩
  have hopened := @hall_openBillRecord P (env.billOpening ids P orderId).billId
    (.opened (env.billOpening ids P orderId) (P.tableForOrder orderId))
  have hstep := Hall.Step.openBill hcommand hnew htable
  cases hcase : P.tableForOrder orderId with
  | none =>
    rw [hcase] at hopened hstep
    refine ⟨?_, hH.live.openBillRecord _ _⟩
    show P.hall.Step _ (P.openBillRecord _ _).hall
    rw [hopened]
    exact hstep
  | some tableId =>
    rw [hcase] at hopened hstep
    refine ⟨?_, (hH.live.openBillRecord _ _).congr rfl rfl rfl⟩
    show P.hall.Step _ ((P.openBillRecord _ _).setTable tableId .awaitingPayment).hall
    rw [hall_setTable, hopened]
    exact hstep

theorem hall_openings {openings : List BillingBillOpened}
    (horder : ∀ opening ∈ openings, opening.orderId = orderId) :
    let Q := openings.foldl
      (fun P opening => P.openBillRecord opening.billId (.opened opening tableId)) P
    Q.hall = P.hall.issueAll (openings.map (·.billId)) ⟨orderId, tableId, .open⟩ ∧
      (P.LiveTrades → Q.LiveTrades) := by
  induction openings generalizing P with
  | nil => exact ⟨issueAll_nil.symm, id⟩
  | cons first rest ih =>
    obtain ⟨hhall, hlive⟩ :=
      ih (P := P.openBillRecord first.billId (.opened first tableId))
        fun opening hopening => horder opening (mem_cons_of_mem _ hopening)
    refine ⟨hhall.trans ?_, fun hP => hlive (hP.openBillRecord _ _)⟩
    have hfirst : BillRecord.tab (.opened first tableId) = ⟨orderId, tableId, .open⟩ := by
      rw [← horder first mem_cons_self]
      rfl
    rw [hall_openBillRecord, hfirst, issueAll_cons, map_cons]

theorem hosted_splitBill {parts : List (List OrderLineId)} (hP : P.WellFormed bound)
    (hH : P.HallSound) (hids : TakesIds ids bound plan.minted bound')
    (hplan : env.splitBill ids P actor billId parts = .ok plan) (happly : plan.apply P = .ok P') :
    Hosted (.splitBill actor billId parts) P P' := by
  obtain ⟨ctx, bill, rules, openings, payloads, hbill, hopen, _, _, hopenings, _, rfl⟩ :=
    splitBill_ok hplan
  simp only [applySplit, bind_eq_ok, pure_eq_ok] at happly
  obtain ⟨reduced, hreduced, rfl⟩ := happly
  let Q := openings.foldl
    (fun P opening => P.openBillRecord opening.billId (.opened opening bill.tableId)) P
  have hpart : ∀ opening ∈ openings, opening.orderId = bill.orderId ∧
      ∃ i, opening.billId = ⟨ids i⟩ := by
    intro opening hopening
    rw [hopenings] at hopening
    obtain ⟨i, _, rfl⟩ := mem_mapIdx.1 hopening
    exact ⟨rfl, i, rfl⟩
  have hnew : ∀ part ∈ openings.map (·.billId), P.hall.tab part = none := by
    intro part hmem
    obtain ⟨opening, hopening, rfl⟩ := mem_map.1 hmem
    obtain ⟨_, i, hid⟩ := hpart opening hopening
    show (P.bill opening.billId).map _ = none
    rw [hid, bill_eq_none_of_le hP (hids.new i)]
    rfl
  obtain ⟨hQ, hQlive⟩ : Q.hall = _ ∧ (P.LiveTrades → Q.LiveTrades) :=
    hall_openings fun opening hopening => (hpart opening hopening).1
  have hsame : Q.SameFaces reduced :=
    sameFaces_inheritFees.trans (sameFaces_inheritReductions hreduced)
  have htab : P.hall.tab billId = some ⟨bill.orderId, bill.tableId, .open⟩ := by
    show (P.bill billId).map _ = _
    rw [hbill, ← hopen]
    rfl
  refine ⟨?_, (hsame.liveTrades (hQlive hH.live)).setBillState _ _⟩
  have hsource : (P.hall.issueAll (openings.map (·.billId)) ⟨bill.orderId, bill.tableId, .open⟩).tab
      billId = some ⟨bill.orderId, bill.tableId, .open⟩ := by
    show (if billId ∈ _ then _ else P.hall.tab billId) = _
    rw [htab, ite_self]
  rw [hall_setBillState, hsame.hall_eq, hQ, restateAll_singleton hsource]
  exact .splitBill htab rfl hnew

theorem hall_absorb {folded : List (BillId × BillRecord × BillState)} {lines : List OrderLineId}
    (hmerged : ∀ entry ∈ folded, entry.2.2 = .merged) :
    let Q := (folded.foldl Env.absorb (P, lines)).1
    Q.hall = P.hall.restateAll (folded.map (·.1)) .merged ∧ (P.LiveTrades → Q.LiveTrades) := by
  induction folded generalizing P lines with
  | nil => exact ⟨restateAll_nil.symm, id⟩
  | cons first rest ih =>
    obtain ⟨hhall, hlive⟩ := @ih (P.setBillState first.1 first.2.2)
      (lines ++ P.coveredLines first.2.1)
      fun entry hentry => hmerged entry (mem_cons_of_mem _ hentry)
    refine ⟨hhall.trans ?_, fun hP => hlive (hP.setBillState _ _)⟩
    rw [hall_setBillState, hmerged first mem_cons_self, restateAll_cons,
      map_cons]

theorem hosted_mergeBills {absorbed : List BillId} (hH : P.HallSound)
    (hplan : env.mergeBills ids P actor billId absorbed = .ok plan)
    (happly : plan.apply P = .ok P') :
    Hosted (.mergeBills actor billId absorbed) P P' := by
  obtain ⟨ctx, target, folded, fees, _, _, hfolded, _, rfl⟩ := mergeBills_ok hplan
  obtain ⟨hkeys, habsorbable⟩ := absorbable_of_mapM hfolded
  let Q := folded.foldl Env.absorb (P, P.coveredLines target)
  obtain ⟨hQ, hQlive⟩ : Q.1.hall = _ ∧ (P.LiveTrades → Q.1.LiveTrades) :=
    hall_absorb fun entry hentry => (habsorbable entry hentry).next
  rw [hkeys] at hQ
  -- the target takes the lines, which the hall does not see
  let taken := Q.1.setBillLines billId (sortedLines Q.2)
  have htaken : taken.hall = Q.1.hall := by
    refine Hall.ext rfl rfl rfl rfl rfl (funext fun other => ?_)
    show ((Q.1.bills.modify billId _)[other]?).map BillRecord.tab = (Q.1.bill other).map _
    rw [Keyed.get_modify]
    split
    · next heq =>
      rw [Option.map_map, heq]
      rfl
    · rfl
  have hsame : taken.SameFaces P' :=
    sameFaces_setMergedFees.trans (sameFaces_absorbReductions happly)
  refine ⟨?_, hsame.liveTrades ((hQlive hH.live).congr rfl rfl rfl)⟩
  rw [hsame.hall_eq, htaken, hQ]
  exact .mergeBills

/-- What closing a bill does to the hall: the bill is in its next state and, where it was its
    order's last open one and its table waited for it, the table moves. -/
def Projection.Closes (P P' : Projection) (billId : BillId) (bill : BillRecord)
    (after : BillState) :
    Prop :=
  P'.hall = (P.setBillState billId after).hall ∨
    ∃ tableId state, bill.tableId = some tableId ∧
      (P.setBillState billId after).latestBillIn bill.orderId .open = none ∧
      P'.hall = (P.setBillState billId after).hall.setState tableId state

theorem Projection.bill_setBillState_self {state : BillState} (hbill : P.bill billId = some bill) :
    (P.setBillState billId state).bill billId = some { bill with state } := by
  simp only [setBillState, hbill]
  show (P.bills.modify billId _)[billId]? = _
  rw [Keyed.get_modify, if_pos rfl, show P.bills[billId]? = some bill from hbill]
  rfl

theorem Projection.settleBillRecord_closes (hbill : P.bill billId = some bill) :
    P.Closes (P.settleBillRecord billId) billId bill .settled := by
  have hself : (P.setBillState billId .settled).bill billId =
      some { bill with state := .settled } :=
    bill_setBillState_self hbill
  unfold settleBillRecord
  dsimp only
  rw [hself]
  cases htable : bill.tableId with
  | none => exact .inl rfl
  | some tableId =>
    dsimp only
    split
    next hnone =>
      exact .inr ⟨tableId, _, htable, isNone_iff_eq_none.1 hnone, hall_setTable⟩
    next => exact .inl rfl

theorem Projection.voidBillRecord_closes (hbill : P.bill billId = some bill) :
    P.Closes (P.voidBillRecord billId) billId bill .voided ∧
      ((P.voidBillRecord billId).hall ≠ (P.setBillState billId .voided).hall →
        ∀ tableId, bill.tableId = some tableId → P.tableState tableId = .awaitingPayment) := by
  have hself : (P.setBillState billId .voided).bill billId = some { bill with state := .voided } :=
    bill_setBillState_self hbill
  have hstate : ∀ tableId, (P.setBillState billId .voided).tableState tableId =
      P.tableState tableId :=
    fun tableId => congrFun (congrArg Hall.state hall_setBillState) tableId
  unfold voidBillRecord
  dsimp only
  rw [hself]
  cases htable : bill.tableId with
  | none => exact ⟨.inl rfl, fun hne => absurd rfl hne⟩
  | some tableId =>
    dsimp only
    split
    next => exact ⟨.inl rfl, fun hne => absurd rfl hne⟩
    next hmoves =>
      rw [not_or, not_not, not_isSome_iff_eq_none] at hmoves
      refine ⟨.inr ⟨tableId, _, htable, hmoves.2, hall_setTable⟩, fun _ other hother => ?_⟩
      obtain rfl := some.inj hother
      exact (hstate tableId).symm.trans hmoves.1

/-- A bill is closed after what was taken, or given back, for it. -/
theorem hosted_close {before after : BillState} {Q : Projection} (hP : P.WellFormed bound)
    (hcommand : command.closesBill = some (billId, before, after))
    (hbill : P.bill billId = some bill) (hbefore : bill.state = before) (htakings : P.TakingsOnly Q)
    (hcloses : Q.Closes P' billId bill after)
    (hwaits : P'.hall ≠ (Q.setBillState billId after).hall →
      ∀ tableId, bill.tableId = some tableId → P.tableState tableId = .awaitingPayment)
    (hlive : P'.LiveTrades) : Hosted command P P' := by
  have hQbill : Q.bill billId = some bill := (htakings.bill_eq billId).trans hbill
  have htab : P.hall.tab billId = some bill.tab := by
    show (P.bill billId).map _ = _
    rw [hbill]
    rfl
  have hstated : (Q.setBillState billId after).hall =
      P.hall.issue billId { bill.tab with state := after } := by
    rw [hall_setBillState, htakings.hall_eq, restateAll_singleton htab]
  refine ⟨?_, hlive⟩
  by_cases hsame : P'.hall = (Q.setBillState billId after).hall
  · rw [hsame, hstated]
    exact .close hcommand htab hbefore
  · obtain ⟨tableId, state, htable, hnone, hmoved⟩ := hcloses.resolve_left hsame
    rw [hmoved, hstated]
    refine .closeLast hcommand htab hbefore htable (hwaits hsame tableId htable) ?_
    -- no bill of the order is open once this one is closed
    have hindexed : (Q.setBillState billId after).books.Indexed := by
      rw [books_setBillState hQbill, htakings.books_eq]
      exact hP.indexed.setCharge (charge_of_bill hbill) rfl
    have hlast := noneOpenBut_of_latestBillIn hindexed hnone
    rw [hstated] at hlast
    intro other tab hother hne horder
    refine hlast other tab ?_ (some_ne_none _) horder
    rw [tab_issue, if_neg fun heq => hne (congrArg some heq)]
    exact hother

theorem liveTrades_settleBillRecord (h : P.LiveTrades) :
    (P.settleBillRecord billId).LiveTrades := by
  obtain ⟨tables, heq⟩ := settleBillRecord_eq P billId
  rw [heq]
  exact (h.setBillState billId .settled).congr rfl rfl rfl

theorem liveTrades_voidBillRecord (h : P.LiveTrades) : (P.voidBillRecord billId).LiveTrades := by
  obtain ⟨tables, heq⟩ := voidBillRecord_eq P billId
  rw [heq]
  exact (h.setBillState billId .voided).congr rfl rfl rfl

theorem hosted_settleBill {payments : List Payment} {hasBuyer : Bool} (hP : P.WellFormed bound)
    (hH : P.HallSound)
    (hplan : env.settleBill ids P actor scope billId payments hasBuyer approval = .ok plan)
    (happly : plan.apply P = .ok P') :
    Hosted (.settleBill actor scope billId payments hasBuyer approval) P P' := by
  obtain ⟨start, ctx, drawer, proved, receiptNumber, reductionTotal, captured, taken, settled,
    payloads, _, hproved, _, rfl, _, _, rfl⟩ := settleBill_ok hplan
  obtain ⟨bill, hbill, hopen, hwaits, _⟩ := proveSettle_ok hproved
  simp only [foldSettled, bind_eq_ok] at happly
  obtain ⟨tendered, htendered, folded, hfolded, hcash⟩ := happly
  have hbefore : P.TakingsOnly tendered := takingsOnly_tenders htendered
  have hafter := (foldSettle_takings hfolded).trans (takingsOnly_updateShift hcash)
  have hcloses : tendered.Closes P' billId bill .settled := by
    have hrecord := settleBillRecord_closes ((hbefore.bill_eq billId).trans hbill)
    have hhall : P'.hall = (tendered.settleBillRecord billId).hall := hafter.hall_eq
    rwa [Closes, ← hhall] at hrecord
  exact hosted_close hP rfl hbill hopen hbefore hcloses (fun _ => hwaits)
    (hafter.liveTrades (liveTrades_settleBillRecord (hbefore.liveTrades hH.live)))

theorem hosted_voidBill (hP : P.WellFormed bound) (hH : P.HallSound)
    (hplan : env.voidBill ids P actor billId reasonCodeId approval = .ok plan)
    (happly : plan.apply P = .ok P') :
    Hosted (.voidBill actor billId reasonCodeId approval) P P' := by
  obtain ⟨ctx, bill, approver, payloads, hbill, hopen, _, rfl⟩ := voidBill_ok hplan
  cases happly
  obtain ⟨hcloses, hwaits⟩ := voidBillRecord_closes hbill
  exact hosted_close hP rfl hbill hopen (.refl P) hcloses hwaits (liveTrades_voidBillRecord hH.live)

theorem hosted_voidSettledBill (hP : P.WellFormed bound) (hH : P.HallSound)
    (hplan : env.voidSettledBill ids P actor scope billId reasonCodeId approval = .ok plan)
    (happly : plan.apply P = .ok P') :
    Hosted (.voidSettledBill actor scope billId reasonCodeId approval) P P' := by
  obtain ⟨_, ctx, bill, approver, drawer, payloads, hbill, hsettled, _, _, rfl⟩ :=
    voidSettledBill_ok hplan
  simp only [voidSettledRecord, bind_eq_ok, pure_eq_ok] at happly
  obtain ⟨paidBack, hpaid, rfl⟩ := happly
  have hbefore : P.TakingsOnly paidBack := takingsOnly_updateShift hpaid
  obtain ⟨hcloses, hwaits⟩ :=
    voidBillRecord_closes ((hbefore.bill_eq billId).trans hbill)
  have hstate : paidBack.tableState = P.tableState := congrArg Hall.state hbefore.hall_eq
  rw [hstate] at hwaits
  exact hosted_close hP rfl hbill hsettled hbefore hcloses hwaits
    (liveTrades_voidBillRecord (hbefore.liveTrades hH.live))

/-! ## Commands -/

theorem hosted_moveCash {shiftId : ShiftId} {movement : CashMovement} {amount : Money}
    {reason : Option ReasonCodeId} {breakdown : CountBreakdown} (hH : P.HallSound)
    (hquiet : command.leavesHall = true)
    (hplan : env.moveCash ids P actor scope shiftId movement amount reason breakdown approval =
      .ok plan)
    (happly : plan.apply P = .ok P') : Hosted command P P' := by
  obtain ⟨_, _, _, _, _, _, _, _, _, _, rfl⟩ := moveCash_ok hplan
  have hmove : P.updateShift (some shiftId) (moveCash movement amount) = .ok P' := happly
  exact (takingsOnly_updateShift hmove).hosted hH hquiet

theorem closeShiftRecord_hosted (P : Projection) (shiftId : ShiftId) :
    (P.closeShiftRecord shiftId).hall = P.hall ∧
      (P.LiveTrades → (P.closeShiftRecord shiftId).LiveTrades) := by
  unfold closeShiftRecord
  split
  · exact ⟨rfl, id⟩
  · exact ⟨rfl, fun h => h.congr rfl rfl rfl⟩

theorem closeShiftRecords_hosted (P : Projection) (named : List (ShiftId × ShiftRecord)) :
    let Q := named.foldl (fun P entry => P.closeShiftRecord entry.1) P
    Q.hall = P.hall ∧ (P.LiveTrades → Q.LiveTrades) := by
  induction named generalizing P with
  | nil => exact ⟨rfl, id⟩
  | cons first rest ih =>
    obtain ⟨hhall, hlive⟩ := closeShiftRecord_hosted P first.1
    obtain ⟨hhall', hlive'⟩ := ih (P.closeShiftRecord first.1)
    exact ⟨hhall'.trans hhall, hlive' ∘ hlive⟩

/-- Every command that is taken moves the hall one step. -/
theorem plan_hosted (hP : P.WellFormed bound) (hH : P.HallSound)
    (hids : TakesIds ids bound plan.minted bound') (hplan : command.plan env ids P = .ok plan)
    (happly : plan.apply P = .ok P') : Hosted command P P' := by
  have hnew : P.hall.place ⟨ids 0⟩ = none := place_eq_none_of_le hP (hids.new 0)
  cases command with
  | seatTable =>
    obtain ⟨ctx, hfree, rfl⟩ := seatTable_ok hplan
    cases happly
    refine ⟨?_, hH.live.congr rfl rfl rfl⟩
    rw [hall_seat]
    exact .seat hfree hnew
  | cleanTable =>
    obtain ⟨ctx, hstate, rfl⟩ := cleanTable_ok hplan
    cases happly
    refine ⟨?_, hH.live.congr rfl rfl rfl⟩
    rw [hall_setTable]
    exact .clean hstate
  | releaseTable actor tableId =>
    obtain ⟨ctx, payloads, hstate, hholds, _, rfl⟩ := releaseTable_ok hplan
    cases happly
    cases horder : P.orderForTable tableId with
    | none =>
      refine ⟨?_, hH.live.congr rfl rfl rfl⟩
      rw [hall_setTable]
      exact .releaseEmpty hstate horder
    | some orderId =>
      refine ⟨?_, (hH.live.closeOrder orderId).congr rfl rfl rfl⟩
      show P.hall.Step _ ((P.closeOrder orderId).setTable tableId .free).hall
      rw [hall_setTable, hall_closeOrder hH.sound.placed]
      rw [horder, any_some, orderHolds, Bool.or_eq_false_iff] at hholds
      exact .release hstate horder (noneOpenBut_of_latestBillIn hP.indexed
        (isSome_eq_false_iff.1 hholds.2 |> isNone_iff_eq_none.1))
  | transferTable =>
    obtain ⟨ctx, orderId, horder, hoccupied, hfree, rfl⟩ := transferTable_ok hplan
    cases happly
    refine ⟨?_, ?_⟩
    · rw [hall_transfer hH.sound.placed horder]
      exact .transfer horder hoccupied hfree
    · simp only [moveOrder]
      split <;> exact hH.live.congr rfl rfl rfl
  | addLine =>
    obtain ⟨ctx, orderId, names, _, _, rfl⟩ := addLine_ok hplan
    cases happly
    exact hosted_of_hall_eq rfl hall_addLine (hH.live.addLine _ _)
  | addLineToOrder =>
    obtain ⟨ctx, origin, draft, names, _, _, _, rfl⟩ := addLineToOrder_ok hplan
    cases happly
    exact hosted_of_hall_eq rfl hall_addLine (hH.live.addLine _ _)
  | voidLine =>
    obtain ⟨ctx, record, payloads, approver, _, _, rfl⟩ := voidLine_ok hplan
    cases happly
    exact hosted_of_hall_eq rfl hall_updateLine (hH.live.updateLine _ _)
  | setLineQuantity =>
    obtain ⟨ctx, record, lineTotal, _, _, rfl⟩ := setLineQuantity_ok hplan
    cases happly
    exact hosted_of_hall_eq rfl rfl (hH.live.congr rfl rfl rfl)
  | fireLine =>
    obtain ⟨ctx, record, fired, _, _, _, rfl⟩ := fireLine_ok hplan
    cases happly
    exact hosted_of_hall_eq rfl (@hall_fired _ _ [fired])
      (hH.live.fired _ [fired])
  | fireOrder =>
    obtain ⟨ctx, fired, _, _, rfl⟩ := fireUnsent_ok (fireOrder_ok hplan)
    cases happly
    exact hosted_of_hall_eq rfl hall_fired (hH.live.fired _ _)
  | fireCourse =>
    obtain ⟨ctx, fired, _, _, rfl⟩ := fireUnsent_ok (fireCourse_ok hplan)
    cases happly
    exact hosted_of_hall_eq rfl hall_fired (hH.live.fired _ _)
  | openInboundOrder =>
    exact hosted_openInboundOrder hP hH hids hplan happly
  | openCounterOrder =>
    obtain ⟨ctx, rfl⟩ := openCounterOrder_ok hplan
    cases happly
    refine ⟨?_, hH.live.congr rfl rfl rfl⟩
    rw [hall_openOrderOrigin]
    exact .counter hnew
  | confirmInboundOrder => exact hosted_confirmInboundOrder hP hH hplan happly
  | rejectInboundOrder => exact hosted_rejectInboundOrder hH hplan happly
  | setItemSoldOut =>
    obtain ⟨ctx, payloads, _, rfl⟩ := setItemSoldOut_ok hplan
    cases happly
    split
    · exact hosted_of_hall_eq rfl rfl hH.live
    · exact hosted_of_hall_eq rfl rfl (hH.live.congr rfl rfl rfl)
  | openBill =>
    obtain ⟨orderId, _, horder⟩ := openBill_ok hplan
    exact hosted_openBillForOrder hP hH (hids.new 0) rfl horder happly
  | openBillForOrder =>
    exact hosted_openBillForOrder hP hH (hids.new 0) rfl hplan happly
  | discountBill =>
    obtain ⟨_, _, _, _, _, _, _, _, _, _, _, _, _, _, _, rfl⟩ := discountBill_ok hplan
    exact (sameFaces_addReduction happly).hosted hH rfl
  | waiveFee =>
    obtain ⟨_, _, _, _, rfl⟩ := waiveFee_ok hplan
    cases happly
    exact sameFaces_waiveFeeRecord.hosted hH rfl
  | splitBill => exact hosted_splitBill hP hH hids hplan happly
  | mergeBills => exact hosted_mergeBills hH hplan happly
  | settleBill =>
    exact hosted_settleBill hP hH hplan happly
  | voidBill => exact hosted_voidBill hP hH hplan happly
  | voidSettledBill =>
    exact hosted_voidSettledBill hP hH hplan happly
  | reprintReceipt =>
    obtain ⟨_, _, _, rfl⟩ := reprintReceipt_ok hplan
    cases happly
    exact hosted_of_hall_eq rfl rfl (hH.live.congr rfl rfl rfl)
  | openShift =>
    obtain ⟨_, _, _, _, _, _, _, _, _, _, _, _, rfl⟩ := openShift_ok hplan
    cases happly
    exact hosted_of_hall_eq rfl rfl (hH.live.congr rfl rfl rfl)
  | countShift =>
    obtain ⟨_, _, _, _, _, _, _, rfl⟩ := countShift_ok hplan
    cases happly
    exact hosted_of_hall_eq rfl rfl (hH.live.congr rfl rfl rfl)
  | closeShift actor scope shiftId approval reason =>
    obtain ⟨_, _, _, _, _, _, _, _, rfl⟩ := closeShift_ok hplan
    cases happly
    obtain ⟨hhall, hlive⟩ := closeShiftRecord_hosted P shiftId
    exact hosted_of_hall_eq rfl hhall (hlive hH.live)
  | closeShifts =>
    obtain ⟨_, named, _, _, _, _, _, _, _, _, _, rfl⟩ := closeShifts_ok hplan
    cases happly
    obtain ⟨hhall, hlive⟩ := closeShiftRecords_hosted P named
    exact hosted_of_hall_eq rfl hhall (hlive hH.live)
  | recordCashMovement =>
    exact hosted_moveCash hH rfl hplan happly
  | recordSafeDrop =>
    exact hosted_moveCash hH rfl (recordSafeDrop_ok hplan) happly
  | openDrawerNoSale =>
    obtain ⟨_, _, _, _, _, _, rfl⟩ := openDrawerNoSale_ok hplan
    cases happly
    exact hosted_of_hall_eq rfl rfl hH.live

namespace Edge

variable {ids : IdSource} {allowed : Edge → Env × Command → Prop} {edge edge' : Edge}
  {input : Env × Command} {inputs : List (Env × Command)}

theorem step_hosted (hedge : edge.WellFormed ids) (hH : edge.projection.HallSound)
    (hstep : edge.step ids input = .ok edge') :
    Hosted input.2 edge.projection edge'.projection := by
  obtain ⟨plan, projection, hplan, happly, _, rfl⟩ := (step_eq_ok ids).1 hstep
  exact plan_hosted hedge hH (takesIds ids edge plan.minted) hplan happly

theorem hallSound_initial : initial.projection.HallSound := by
  refine ⟨⟨fun tableId orderId h => ?_, fun tableId orderId h => ?_, fun orderId h => ?_,
    fun orderId h => ?_⟩, fun orderId h => ?_⟩
  all_goals
    simp [initial, empty, hall, orderForTable,
      staffDecision] at h

/-- Every history of a store keeps its hall in order. -/
theorem hallSound_of_run (hrun : Run ids allowed initial inputs edge) :
    edge.projection.HallSound := by
  have hinv : edge.WellFormed ids ∧ edge.projection.HallSound := by
    refine Transition.Run.invariant (I := fun edge : Edge =>
      edge.WellFormed ids ∧ edge.projection.HallSound) ?_ hrun
        ⟨wellFormed_initial, hallSound_initial⟩
    rintro edge input edge' ⟨hedge, hH⟩ _ hstep
    exact ⟨(step_accounted hedge hstep).wellFormed hedge, (step_hosted hedge hH hstep).hallSound hH⟩
  exact hinv.2

theorem hallSound_splitAndPay :
    ∃ edge, Run Trial.ids (fun _ _ => True) initial (Trial.inputs Trial.splitAndPay) edge ∧
      edge.projection.HallSound := by
  obtain ⟨edge, hrun, _⟩ := @Trial.run_of_after Trial.splitAndPay (fun _ => true)
    (by decide +kernel)
  exact ⟨edge, hrun, hallSound_of_run hrun⟩

end Edge

end PosFramework
