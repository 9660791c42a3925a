import PosFramework.Core.Decision.Proofs
import PosFramework.Edge.Commands.Shifts

set_option autoImplicit false

/-! # What a shift command that was taken did

For each command on shifts and drawers: the drawer it found, and the plan it made. -/

namespace PosFramework

open Fallible List

namespace Env

variable {env : Env} {ids : Nat → Nat} {P : Projection} {actor : Actor} {plan : Plan}
  {scope : TillScope} {approval : Option Approval} {breakdown : CountBreakdown} {shiftId : ShiftId}
  {ctx : DecisionCtx} {closed closed' : CashShiftClosed} {reason : Option ReasonCodeId}
  {reasons : List (ShiftId × ReasonCodeId)} {named : List (ShiftId × ShiftRecord)}
  {shiftIds : List ShiftId} {record : ShiftRecord} {amount : Money}

theorem openShift_ok {openingFloat : Money} {assignee : Option EmployeeId}
    {handedOverFrom : Option ShiftId}
    (h : env.openShift ids P actor scope openingFloat breakdown approval assignee handedOverFrom =
      .ok plan) :
    ∃ ctx till another approver opened payloads,
      P.drawerNamed env scope = .ok (till, another) ∧ P.openShiftOf till = none ∧
      opened.openedShiftId = ⟨ids 0⟩ ∧ opened.terminalDeviceId = till ∧
      opened.openingFloat = openingFloat ∧
      payloads = approvedPayloads (.cashShiftOpened opened) [(.manageOtherTill, approver)] ∧
      plan =
        { events := prepareAll ctx (idsFrom ids 1) P.currentShiftId payloads
          minted := 1 + payloads.length
          apply := fun P => .ok (P.openShiftRecord opened.openedShiftId
            (.ofOpened opened env.session.currency ctx.now ctx.businessDate)) } := by
  simp only [openShift, bind_eq_ok, liftDomain_eq_ok, refuseIf_eq_ok, pure_eq_ok] at h
  obtain ⟨_, _, _, _, ⟨till, another⟩, hdrawer, _, hopen, _, _, owner, _, _, _,
    ⟨approver, ctx⟩, _, _,
    _, rfl⟩ := h
  exact ⟨ctx, till, another, approver, _, _, hdrawer,
    Option.not_isSome_iff_eq_none.1 hopen, rfl, rfl,
    rfl, rfl, rfl⟩

theorem countShift_ok {countedMinor : I64}
    (h : env.countShift ids P actor scope shiftId countedMinor breakdown approval = .ok plan) :
    ∃ ctx record stepUps payloads, P.shift shiftId = some record ∧ record.state = .open ∧
      payloads = approvedPayloads
        (.cashShiftCounted shiftId ⟨env.session.currency, countedMinor⟩ ctx.now breakdown) stepUps ∧
      plan =
        { events := prepareAll ctx ids (some shiftId) payloads
          minted := payloads.length
          apply := fun P => .ok (P.recordShiftCount shiftId ⟨env.session.currency, countedMinor⟩
            breakdown .counted) } := by
  simp only [countShift, bind_eq_ok, liftDomain_eq_ok, okOr_eq_ok, refuseIf_eq_ok, pure_eq_ok] at h
  obtain ⟨_, _, _, _, record, hrecord, ⟨approver, _⟩, _, ⟨overrider, ctx⟩, _, decision, hdecision,
    rfl⟩ := h
  obtain ⟨hopen, hnext⟩ := decideShift_count_ok hdecision
  exact ⟨ctx, record, _, _, hrecord, hopen, rfl, by rw [hnext]⟩

theorem anchorChain_ok {id : Nat} {anchor : List Event}
    (h : env.anchorChain P ctx id = .ok anchor) :
    anchor = [] ∨ ∃ seq head unchained,
      anchor = [P.prepare ctx id (.storeChainAnchored seq head unchained)] := by
  simp only [anchorChain, bind_eq_ok, okOr_eq_ok, pure_eq_ok] at h
  obtain ⟨head, _, rfl⟩ := h
  cases head with
  | none => exact .inl rfl
  | some => exact .inr ⟨_, _, _, rfl⟩

/-- What a close records of a shift that was counted. -/
def ClosesShift (P : Projection) (shiftId : ShiftId) (closed : CashShiftClosed) : Prop :=
  ∃ record, P.shift shiftId = some record ∧ record.state = .counted ∧
    closed.closedShiftId = shiftId ∧ record.expected = .ok closed.expectedAmount

/-- A close keeps its shift and figures, with or without a reason. -/
theorem withVarianceReason_ok
    (h : env.withVarianceReason closed reason = .ok (some closed')) :
    closed'.closedShiftId = closed.closedShiftId ∧
      closed'.expectedAmount = closed.expectedAmount := by
  unfold withVarianceReason at h
  split at h
  · cases reason with
    | none => exact absurd h (by simp)
    | some =>
      simp only [bind_eq_ok, pure_eq_ok, Option.some.injEq] at h
      obtain ⟨_, _, rfl⟩ := h
      exact ⟨rfl, rfl⟩
  · obtain rfl := Option.some.inj (Except.ok.inj h)
    exact ⟨rfl, rfl⟩

theorem closing_ok (h : env.closing shiftId record = .ok closed) :
    closed.closedShiftId = shiftId ∧ record.expected = .ok closed.expectedAmount := by
  simp only [closing, bind_eq_ok, pure_eq_ok] at h
  obtain ⟨expected, hexpected, _, _, rfl⟩ := h
  exact ⟨rfl, hexpected⟩

theorem closesShift_of_reasoned {decision : ShiftDecision} (hrecord : P.shift shiftId = some record)
    (hdecision : decideShift record.state .close ctx = .ok decision)
    (hclosed : env.closing shiftId record = .ok closed)
    (hreasoned : env.withVarianceReason closed reason = .ok (some closed')) :
    ClosesShift P shiftId closed' := by
  obtain ⟨hid, hexpected⟩ := closing_ok hclosed
  obtain ⟨hid', hexpected'⟩ := withVarianceReason_ok hreasoned
  exact ⟨record, hrecord, decideShift_close_ok hdecision, hid'.trans hid,
    hexpected.trans (congrArg Except.ok hexpected'.symm)⟩

theorem closeShift_ok (h : env.closeShift ids P actor scope shiftId approval reason = .ok plan) :
    ∃ ctx closed stepUps payloads anchor, ClosesShift P shiftId closed ∧
      payloads = approvedPayloads (.cashShiftClosed closed) stepUps ∧
      env.anchorChain P ctx (ids payloads.length) = .ok anchor ∧
      plan =
        { events := prepareAll ctx ids (some shiftId) payloads ++ anchor
          minted := payloads.length + anchor.length
          apply := fun P => .ok (P.closeShiftRecord shiftId) } := by
  simp only [closeShift, bind_eq_ok, liftDomain_eq_ok, okOr_eq_ok, pure_eq_ok] at h
  obtain ⟨_, _, record, hrecord, ⟨approver, _⟩, _, ⟨overrider, ctx⟩, _, decision, hdecision, closed,
    hclosed, reasoned, hreasoned, closed', rfl, anchor, hanchor, rfl⟩ := h
  exact ⟨ctx, closed', _, _, anchor,
    closesShift_of_reasoned hrecord hdecision hclosed hreasoned, rfl,
    hanchor, rfl⟩

/-! ## A batch of closes -/

/-- The shifts a request names, each once. -/
theorem nodup_named (shiftIds : List ShiftId) : ∀ named : List ShiftId, named.Nodup →
    (shiftIds.foldl (fun named id => if id ∈ named then named else named ++ [id]) named).Nodup ∧
      ∀ id ∈ shiftIds.foldl (fun named id => if id ∈ named then named else named ++ [id]) named,
        id ∈ named ∨ id ∈ shiftIds := by
  induction shiftIds with
  | nil => exact fun named hnodup => ⟨hnodup, fun _ hmem => .inl hmem⟩
  | cons first rest ih =>
    intro named hnodup
    rw [foldl_cons]
    split
    · obtain ⟨hrest, hmem⟩ := ih named hnodup
      exact ⟨hrest, fun id hid => (hmem id hid).imp_right (mem_cons_of_mem _)⟩
    · next hfirst =>
      obtain ⟨hrest, hmem⟩ := ih (named ++ [first])
        (nodup_append.2 ⟨hnodup, nodup_singleton _, fun a ha b hb heq =>
          hfirst (mem_singleton.1 hb ▸ heq ▸ ha)⟩)
      refine ⟨hrest, fun id hid => ?_⟩
      rcases hmem id hid with hin | hin
      · rcases mem_append.1 hin with hnamed | hsingle
        · exact .inl hnamed
        · exact .inr (mem_singleton.1 hsingle ▸ mem_cons_self)
      · exact .inr (mem_cons_of_mem _ hin)

theorem namedShifts_ok
    (h : namedShifts P shiftIds = .ok named) :
    (named.map (·.1)).Nodup ∧
      ∀ entry ∈ named, entry.1 ∈ shiftIds ∧ P.shift entry.1 = some entry.2 := by
  obtain ⟨hnodup, hmem⟩ := nodup_named shiftIds [] nodup_nil
  refine ⟨?_, fun entry hentry => ?_⟩
  · rw [map_eq_of_mapM id (·.1) h]
    · rwa [map_id]
    · intro id _ entry hentry
      simp only [bind_eq_ok, okOr_eq_ok, pure_eq_ok] at hentry
      obtain ⟨_, _, rfl⟩ := hentry
      rfl
  · obtain ⟨id, hid, hfound⟩ := exists_of_mem_mapM h hentry
    simp only [bind_eq_ok, okOr_eq_ok, pure_eq_ok] at hfound
    obtain ⟨record, hrecord, rfl⟩ := hfound
    exact ⟨(hmem id hid).resolve_left not_mem_nil, hrecord⟩

/-- Where no close still owes a reason, every shift has one. -/
theorem closings_of_decided
    {decided : List (Option CashShiftClosed)}
    (h : List.Forall₂ (fun entry closed => env.decideClose ctx reasons entry = .ok closed)
      named decided)
    (howing : ((named.zip decided).filterMap fun entry =>
      if entry.2.isNone then some entry.1.1 else none) = []) :
    List.Forall₂ (fun entry closed => env.decideClose ctx reasons entry = .ok (some closed)) named
      (decided.filterMap id) := by
  induction h with
  | nil => exact .nil
  | @cons entry closed named decided hfirst _ ih =>
    cases closed with
    | none => simp at howing
    | some =>
      exact .cons hfirst (ih howing)

theorem decideClose_ok {entry : ShiftId × ShiftRecord} (hrecord : P.shift entry.1 = some entry.2)
    (h : env.decideClose ctx reasons entry = .ok (some closed)) :
    ClosesShift P entry.1 closed := by
  simp only [decideClose, bind_eq_ok, liftDomain_eq_ok] at h
  obtain ⟨decision, hdecision, closing, hclosing, hreasoned⟩ := h
  exact closesShift_of_reasoned hrecord hdecision hclosing hreasoned

theorem closeShifts_ok
    (h : env.closeShifts ids P actor scope shiftIds approval reasons = .ok plan) :
    ∃ ctx named closings approver overrider payloads anchor,
      namedShifts P shiftIds = .ok named ∧
      List.Forall₂ (fun entry closed => ClosesShift P entry.1 closed) named closings ∧
      payloads = (named.zip closings).flatMap (closePayloads actor scope approver overrider) ∧
      env.anchorBatch ids P ctx payloads = .ok anchor ∧
      plan =
        { events :=
            (payloads.mapIdx fun i entry => prepareOn ctx (ids i) entry.2 (some entry.1)) ++ anchor
          minted := payloads.length + anchor.length
          apply := fun P => .ok (named.foldl (fun P entry => P.closeShiftRecord entry.1) P) } := by
  simp only [closeShifts, bind_eq_ok, refuseIf_eq_ok, pure_eq_ok, ne_eq, not_not] at h
  obtain ⟨_, _, named, hnamed, ⟨approver, _⟩, _, ⟨overrider, ctx⟩, _, decided, hdecided, _, howing,
    anchor, hanchor, rfl⟩ := h
  refine ⟨ctx, named, decided.filterMap id, approver, overrider, _, anchor, hnamed, ?_,
    rfl, hanchor,
    rfl⟩
  have hclosings := closings_of_decided (mapM_eq_ok_iff.1 hdecided) howing
  refine (forall₂_iff_zip.2 ⟨hclosings.length_eq, fun {entry closed} hmem => ?_⟩)
  exact decideClose_ok ((namedShifts_ok hnamed).2 entry (of_mem_zip hmem).1).2
    ((forall₂_iff_zip.1 hclosings).2 hmem)

/-! ## Cash -/

theorem moveCash_ok {movement : CashMovement}
    (h : env.moveCash ids P actor scope shiftId movement amount reason breakdown approval =
      .ok plan) :
    ∃ ctx record payload stepUps payloads, P.shift shiftId = some record ∧
      P.openShiftOf record.till = some shiftId ∧ record.state = .open ∧
      movementPayload movement amount record.till reason breakdown = some payload ∧
      payloads = approvedPayloads payload stepUps ∧
      plan =
        { events := prepareAll ctx ids (some shiftId) payloads
          minted := payloads.length
          apply := fun P => P.recordMovement shiftId movement amount } := by
  simp only [moveCash, bind_eq_ok, okOr_eq_ok, refuseIf_eq_ok, pure_eq_ok, not_or, ne_eq, not_not]
    at h
  obtain ⟨_, _, _, _, _, _, _, _, record, hrecord, _, ⟨hdrawer, hopen, _⟩, _, _,
    ⟨overrider, ctx⟩, _,
    payload, hpayload, rfl⟩ := h
  exact ⟨ctx, record, payload, _, _, hrecord, hdrawer, hopen, hpayload, rfl, rfl⟩

theorem recordSafeDrop_ok {reasonCodeId : Option ReasonCodeId}
    (h : env.recordSafeDrop ids P actor scope shiftId amount breakdown reasonCodeId approval =
      .ok plan) :
    env.moveCash ids P actor scope shiftId .dropped amount reasonCodeId breakdown approval =
      .ok plan := by
  simp only [recordSafeDrop, bind_eq_ok] at h
  obtain ⟨_, _, hmove⟩ := h
  exact hmove

theorem openDrawerNoSale_ok {reasonCodeId : ReasonCodeId}
    (h : env.openDrawerNoSale ids P actor scope reasonCodeId approval = .ok plan) :
    ∃ ctx shift drawer stepUps payloads,
      payloads = approvedPayloads (.cashDrawerOpened true (some reasonCodeId) drawer) stepUps ∧
      plan =
        { events := prepareAll ctx ids shift payloads
          minted := payloads.length
          apply := fun P => .ok P } := by
  simp only [openDrawerNoSale, bind_eq_ok, pure_eq_ok] at h
  obtain ⟨_, _, _, _, drawer, _, ⟨approver, _⟩, _, _, _, ⟨overrider, ctx⟩, _, rfl⟩ := h
  exact ⟨ctx, P.openShiftOf drawer, drawer, _, _, rfl, rfl⟩

end Env

end PosFramework
