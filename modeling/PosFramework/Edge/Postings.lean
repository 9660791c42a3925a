import PosFramework.Edge.CashLog

set_option autoImplicit false

/-! # Postings

What a command posts to the drawers, said once: what it found when it was decided, what its events
say and what it does to the projection it is applied to, whichever that is. What the drawers keep
along a history is read off the posting alone. -/

namespace PosFramework

open Fallible Projection Env List Figures Payload

/-- What a command does to the drawers. -/
inductive Posting
  | nothing
  | opens (shiftId : ShiftId) (drawer : Drawer)
  | counts (shiftId : ShiftId)
  /-- Shifts close, each with what its drawer should hold. -/
  | closes (closings : List (ShiftId × Money))
  | moves (shiftId : ShiftId) (movement : CashMovement) (amount : Int)
  /-- A bill is paid, with so much cash. -/
  | takes (billId : BillId) (shift : Option ShiftId) (amount : Int)
  /-- A bill that was paid is voided. -/
  | givesBack (billId : BillId) (shift : Option ShiftId)
  /-- A bill that was not paid is voided. -/
  | drops (billId : BillId) (shift : Option ShiftId)

namespace Posting

/-- The cash a posting takes for a bill. -/
def cashFor (posting : Posting) (other : BillId) : Int :=
  match posting with
  | takes billId _ amount => if other = billId then amount else 0
  | _ => 0

/-- What a posting adds to a shift's figures, after a log. -/
def figures (posting : Posting) (log : List Event) (other : ShiftId) : Figures :=
  match posting with
  | nothing | counts _ | closes _ => .zero
  | opens shiftId drawer =>
    { zero with
      openingFloat := if shiftId = other then drawer.openingFloat.minor else 0 }
  | moves shiftId movement amount =>
    if shiftId = other then zero.move movement amount else .zero
  | takes _ shift amount =>
    { zero with cash := if shift = some other then amount else 0 }
  | givesBack billId shift | drops billId shift =>
    { zero with voided := if shift = some other then cashTaken log billId else 0 }

/-- The bill a posting voids. -/
def voids : Posting → Option BillId
  | givesBack billId _ | drops billId _ => some billId
  | _ => none

/-- Where a posting says shifts stand. -/
def marks : Posting → List ShiftMark
  | opens shiftId drawer => [.opened shiftId drawer.till]
  | counts shiftId => [.counted shiftId]
  | closes closings => closings.map fun closing => .closed closing.1 closing.2
  | _ => []

/-- The ids a posting takes for what it names. -/
def minted : Posting → Nat
  | opens _ _ => 1
  | _ => 0

/-- What a command that posts this found. -/
def Decided (ids : Nat → Nat) (P : Projection) : Posting → Prop
  | nothing => True
  | opens shiftId drawer =>
    shiftId.ulid = ids 0 ∧ P.openShiftOf drawer.till = none ∧ drawer.state = .open ∧
      drawer.figures = { zero with openingFloat := drawer.openingFloat.minor }
  | counts shiftId => ∃ d, P.drawer shiftId = some d ∧ d.state = .open
  | closes closings => (closings.map (·.1)).Nodup ∧ ∀ closing ∈ closings,
      ∃ record, P.shift closing.1 = some record ∧ record.state = .counted ∧
        record.expected = .ok closing.2
  | moves shiftId _ _ =>
    ∃ d, P.drawer shiftId = some d ∧ d.state = .open ∧ P.openShiftOf d.till = some shiftId
  | takes billId shift amount =>
    (∃ bill, P.bill billId = some bill ∧ bill.state = .open) ∧
      (∀ shiftId, shift = some shiftId → ∃ till, P.openShiftOf till = some shiftId) ∧
      (amount ≠ 0 → TakesCash P shift)
  | givesBack billId shift =>
    (∃ bill, P.bill billId = some bill ∧ bill.state = .settled) ∧
      (∀ shiftId, shift = some shiftId → ∃ till, P.openShiftOf till = some shiftId) ∧
      (P.cashOf billId ≠ 0 → TakesCash P shift)
  | drops billId _ => ∃ bill, P.bill billId = some bill ∧ bill.state = .open

/-- What the events of a posting say. -/
structure Logged (posting : Posting) (events : List Event) : Prop where
  figures : ∀ log shiftId,
    figuresWith (givenBack log) shiftId events = posting.figures log shiftId
  cash : ∀ billId, cashTaken events billId = posting.cashFor billId
  voids : ∀ event ∈ events, ∀ billId, event.payload.voids = some billId →
    posting.voids = some billId
  marks : events.filterMap (·.payload.mark?) = posting.marks

/-- What a posting does to the drawers. -/
def Moves (Q Q' : Projection) : Posting → Prop
  | nothing | drops _ _ => Q.SameDrawers Q'
  | opens shiftId drawer =>
    (∀ other, Q'.drawer other = if shiftId = other then some drawer else Q.drawer other) ∧
      ∀ till, Q'.openShiftOf till =
        if drawer.till = till then some shiftId else Q.openShiftOf till
  | counts shiftId =>
    Q'.openShifts = Q.openShifts ∧ ∀ other, Q'.drawer other =
      if shiftId = other then (Q.drawer other).map fun d => { d with state := .counted }
      else Q.drawer other
  | closes closings =>
    (∀ other, Q'.drawer other =
      if other ∈ closings.map (·.1) then (Q.drawer other).map fun d => { d with state := .closed }
      else Q.drawer other) ∧
    ∀ till other, Q'.openShiftOf till = some other ↔
      Q.openShiftOf till = some other ∧ Q.closesOn till (closings.map (·.1)) other ≠ true
  | moves shiftId movement amount =>
    Q.ChangesDrawer Q' (some shiftId) (Drawer.Moves movement amount)
  | takes _ shift amount => Q.ChangesDrawer Q' shift (Drawer.Takes amount)
  | givesBack billId shift => Q.ChangesDrawer Q' shift (Drawer.GivesBack (Q.cashOf billId))

/-- What a posting does to the projection it is applied to. -/
structure Applied (posting : Posting) (Q Q' : Projection) : Prop where
  drawers : posting.Moves Q Q'
  cash : ∀ billId, Q'.cashOf billId = Q.cashOf billId + posting.cashFor billId

/-! ## Events that post nothing -/

variable {events : List Event} {posting : Posting}

/-- Events that count for no figure post what they mark. -/
theorem logged_closes {closings : List (ShiftId × Money)}
    (hcounts : ∀ event ∈ events, event.payload.counts = false)
    (hmarks : events.filterMap (·.payload.mark?) = (closes closings).marks) :
    (closes closings).Logged events where
  figures := fun _ _ => figuresWith_of_not_counts hcounts
  cash := cashTaken_of_not_counts hcounts
  voids := fun event hevent billId hvoids => by
    rw [(of_not_counts (hcounts event hevent)).2.2.2.2.2.2] at hvoids
    contradiction
  marks := hmarks

theorem logged_nothing
    (h : ∀ event ∈ events, event.payload.counts = false ∧ event.payload.mark? = none) :
    nothing.Logged events :=
  have hlogged : (closes []).Logged events := logged_closes (fun event hevent => (h event hevent).1)
    (filterMap_eq_nil_iff.2 fun event hevent => (h event hevent).2)
  ⟨hlogged.figures, hlogged.cash, hlogged.voids, hlogged.marks⟩

/-- Events that post nothing after a posting's own. -/
theorem Logged.append {more : List Event} (h : posting.Logged events)
    (hmore : nothing.Logged more) : posting.Logged (events ++ more) where
  figures := fun log shiftId => by
    rw [figuresWith_append, h.figures, hmore.figures]
    exact add_zero _
  cash := fun billId => by
    rw [cashTaken_append, h.cash, hmore.cash]
    exact Int.add_zero _
  voids := fun event hevent billId hvoids => by
    rcases mem_append.1 hevent with hown | hother
    · exact h.voids event hown billId hvoids
    · exact nomatch hmore.voids event hother billId hvoids
  marks := by
    rw [filterMap_append, h.marks, hmore.marks]
    exact append_nil _

theorem of_isOverride {payload : Payload} (h : payload.isOverride = true) :
    payload.counts = false ∧ payload.mark? = none := by
  cases payload <;> first | exact ⟨rfl, rfl⟩ | exact absurd h Bool.false_ne_true

variable {stepUps : List (Permission × Option EmployeeId)} {shift : Option ShiftId}
  {ctx : DecisionCtx} {ids : Nat → Nat}

theorem logged_overrides : nothing.Logged (prepareAll ctx ids shift (overridePayloads stepUps)) :=
  logged_nothing fun _ hevent =>
    of_isOverride (isOverride_of_mem_overridePayloads (mem_prepareAll hevent).1)

/-- An act's own event and its step-ups post what the act's own event posts. -/
theorem logged_approved
    {payload : Payload} (hfigures : ∀ (log : List Event) (shiftId : ShiftId),
      (⟨payload.floatOf shiftId, if shift = some shiftId then payload.cashApplied else 0,
        if shift = some shiftId then payload.paidIn else 0,
        if shift = some shiftId then payload.paidOut else 0,
        if shift = some shiftId then payload.dropped else 0,
        if shift = some shiftId then givenBack log payload else 0⟩ : Figures) =
          posting.figures log shiftId)
    (hcash : ∀ billId, payload.cashFor billId = posting.cashFor billId)
    (hvoids : ∀ billId, payload.voids = some billId → posting.voids = some billId)
    (hmarks : payload.mark?.toList = posting.marks) :
    posting.Logged (prepareAll ctx ids shift (payload :: overridePayloads stepUps)) := by
  rw [prepareAll_cons, ← singleton_append]
  refine Logged.append ⟨fun log shiftId => ?_, fun billId => ?_, fun event hevent => ?_, ?_⟩
    logged_overrides
  · rw [figuresWith_prepareOn, hfigures]
  · exact (Int.add_zero _).trans (hcash billId)
  · obtain rfl := mem_singleton.1 hevent
    exact hvoids
  · rw [← hmarks]
    cases hmark : payload.mark? with
    | none => exact filterMap_cons_none hmark
    | some mark => exact filterMap_cons_some hmark

end Posting

/-! ## Commands -/

/-- A command posts: what it found, what it wrote and what it does. -/
structure Plan.Posts (plan : Plan) (ids : Nat → Nat) (P : Projection)
    (posting : Posting) : Prop where
  decided : posting.Decided ids P
  logged : posting.Logged plan.events
  applied : ∀ Q Q', plan.apply Q = .ok Q' → posting.Applied Q Q'
  minted : posting.minted ≤ plan.minted

namespace Command

/-- The command that voids a bill before it is paid. -/
def voidsUnpaid : Command → Bool
  | voidBill .. => true
  | _ => false

/-- What each command posts. -/
def PostsAs (command : Command) (posting : Posting) : Prop :=
  match command with
  | openShift .. => ∃ shiftId drawer, posting = .opens shiftId drawer
  | countShift _ _ shiftId _ _ _ => posting = .counts shiftId
  | closeShift _ _ shiftId _ _ => ∃ expected, posting = .closes [(shiftId, expected)]
  | closeShifts _ _ shiftIds _ _ =>
    ∃ closings, posting = .closes closings ∧ ∀ closing ∈ closings, closing.1 ∈ shiftIds
  | recordCashMovement _ _ shiftId movement amount _ _ =>
    posting = .moves shiftId movement amount.minor
  | recordSafeDrop _ _ shiftId amount _ _ _ => posting = .moves shiftId .dropped amount.minor
  | settleBill _ _ billId payments _ _ =>
    ∃ shift, posting = .takes billId shift (cashApplied payments)
  | voidBill _ billId _ _ => ∃ shift, posting = .drops billId shift
  | voidSettledBill _ _ billId _ _ => ∃ shift, posting = .givesBack billId shift
  | _ => posting = .nothing

open Posting

variable {env : Env} {ids : Nat → Nat} {P : Projection} {plan : Plan} {actor : Actor}
  {scope : TillScope} {approval : Option Approval} {billId : BillId} {shiftId : ShiftId}
  {breakdown : CountBreakdown} {ctx : DecisionCtx} {approver overrider : Option EmployeeId}
  {command : Command} {entry : (ShiftId × ShiftRecord) × CashShiftClosed}
  {payloads : List (ShiftId × Payload)} {reason : Option ReasonCodeId} {reasonCodeId : ReasonCodeId}

theorem posts_openShift {openingFloat : Money} {assignee : Option EmployeeId}
    {handedOverFrom : Option ShiftId}
    (hplan : env.openShift ids P actor scope openingFloat breakdown approval assignee
      handedOverFrom = .ok plan) :
    ∃ drawer, plan.Posts ids P (.opens ⟨ids 0⟩ drawer) := by
  obtain ⟨ctx, till, another, approver, opened, payloads, _, hnone, hid, htill, hfloat, rfl, rfl⟩ :=
    openShift_ok hplan
  have hfree : P.openShiftOf opened.terminalDeviceId = none := htill ▸ hnone
  refine ⟨(ShiftRecord.ofOpened opened env.session.currency ctx.now ctx.businessDate).drawer,
    ⟨rfl, hfree, rfl, rfl⟩, ?_, fun Q Q' happly => ?_, Nat.le_add_right 1 _⟩
  · refine logged_approved (fun log other => ?_) (fun _ => rfl) (fun _ h => nomatch h) ?_
    · refine Figures.ext ?_ (ite_self 0) (ite_self 0) (ite_self 0) (ite_self 0) (ite_self 0)
      show (if opened.openedShiftId = other then _ else _) = _
      rw [hid]
      rfl
    · show [ShiftMark.opened opened.openedShiftId opened.terminalDeviceId] = _
      rw [hid]
      rfl
  · cases happly
    rw [hid]
    exact ⟨⟨fun _ => drawer_openShiftRecord, fun _ => openShiftOf_openShiftRecord⟩,
      fun _ => (Int.add_zero _).symm⟩

theorem posts_countShift {countedMinor : I64}
    (hplan : env.countShift ids P actor scope shiftId countedMinor breakdown approval = .ok plan) :
    plan.Posts ids P (.counts shiftId) := by
  obtain ⟨ctx, record, stepUps, payloads, hrecord, hopen, rfl, rfl⟩ := countShift_ok hplan
  refine ⟨⟨record.drawer, drawer_eq_some.2 ⟨record, hrecord, rfl⟩, hopen⟩, ?_,
    fun Q Q' happly => ?_, Nat.zero_le _⟩
  · refine logged_approved (fun log other => ?_) (fun _ => rfl) (fun _ h => nomatch h) rfl
    exact Figures.ext rfl (ite_self 0) (ite_self 0) (ite_self 0) (ite_self 0) (ite_self 0)
  · cases happly
    exact ⟨⟨rfl, fun _ => drawer_recordShiftCount⟩, fun _ => (Int.add_zero _).symm⟩

theorem posts_moveCash {movement : CashMovement} {amount : Money}
    (hplan : env.moveCash ids P actor scope shiftId movement amount reason breakdown approval =
      .ok plan) :
    plan.Posts ids P (.moves shiftId movement amount.minor) := by
  obtain ⟨ctx, record, payload, stepUps, payloads, hrecord, htrades, hopen, hpayload, rfl, rfl⟩ :=
    moveCash_ok hplan
  refine ⟨⟨record.drawer, drawer_eq_some.2 ⟨record, hrecord, rfl⟩, hopen, htrades⟩, ?_,
    fun Q Q' happly => ?_, Nat.zero_le _⟩
  · cases movement <;> cases reason <;>
      simp only [movementPayload, Option.some.injEq, reduceCtorEq] at hpayload <;> subst hpayload
    all_goals
      refine logged_approved (fun log other => ?_) (fun _ => rfl) (by rintro _ ⟨⟩) rfl
      by_cases heq : shiftId = other
      · simp [heq, Posting.figures, zero, move, floatOf, Payload.cashApplied,
          Payload.paidIn, Payload.paidOut, Payload.dropped, givenBack, Payload.voids]
      · simp [heq, Posting.figures, zero, floatOf]
  · obtain ⟨hchanges, hcash⟩ := recordMovement_drawers happly
    exact ⟨hchanges, fun other => (hcash other).trans (Int.add_zero _).symm⟩

theorem posts_settleBill {payments : List Payment} {hasBuyer : Bool}
    (hplan : env.settleBill ids P actor scope billId payments hasBuyer approval = .ok plan) :
    plan.Posts ids P
      (.takes billId (P.drawerShift env scope) (cashApplied payments)) := by
  obtain ⟨start, ctx, drawer, proved, receiptNumber, reductionTotal, captured, taken, settled,
    payloads, hdrawer, hproved, hcaptured, rfl, _, rfl, rfl⟩ := settleBill_ok hplan
  obtain ⟨bill, hbill, hopen, _, _, _, hcash, _⟩ := proveSettle_ok hproved
  obtain ⟨hshift, htakes⟩ := settleDrawer_ok hdrawer
  rw [← hshift]
  refine ⟨⟨⟨bill, hbill, hopen⟩,
    fun _ hsome => exists_of_drawerShift (hshift.symm.trans hsome), htakes⟩, ?_,
    fun Q Q' happly => ?_, Nat.zero_le _⟩
  · refine Logged.append ⟨fun log other => ?_, fun other => ?_,
      fun event hevent other hvoids => ?_, ?_⟩
      (logged_nothing fun event hevent => ?_)
    · exact figuresWith_captured (map_capturePayments _ _ (fun _ _ _ hevent => by
        obtain ⟨_, hmethod, happlied⟩ := capturePayment_ok hevent
        rw [hmethod, happlied]) hcaptured)
    · exact cashTaken_captured (map_capturePayments _ _ (fun _ _ _ hevent => by
        obtain ⟨hbillId, hmethod, happlied⟩ := capturePayment_ok hevent
        rw [hbillId, hmethod, happlied]) hcaptured)
    · obtain ⟨i, hi, rfl⟩ := mem_mapIdx.1 hevent
      exact nomatch hvoids
    · refine filterMap_eq_nil_iff.2 fun event hevent => ?_
      obtain ⟨i, hi, rfl⟩ := mem_mapIdx.1 hevent
      rfl
    · rcases mem_cons.1 (mem_prepareAll hevent).1 with hsettled | hoverride
      · rw [hsettled]
        exact ⟨rfl, rfl⟩
      · exact of_isOverride (isOverride_of_mem_overridePayloads hoverride)
  · obtain ⟨hchanges, hcashOf⟩ := foldSettled_drawers happly
    rw [cashTendered_ok hcash] at hchanges
    exact ⟨hchanges, hcashOf⟩

theorem posts_voidBill
    (hplan : env.voidBill ids P actor billId reasonCodeId approval = .ok plan) :
    plan.Posts ids P (.drops billId P.currentShiftId) := by
  obtain ⟨ctx, bill, approver, payloads, hbill, hopen, rfl, rfl⟩ := voidBill_ok hplan
  refine ⟨⟨bill, hbill, hopen⟩, ?_, fun Q Q' happly => ?_, Nat.zero_le _⟩
  · refine logged_approved (fun log other => ?_) (fun _ => rfl) (fun _ h => h) rfl
    exact Figures.ext rfl (ite_self 0) (ite_self 0) (ite_self 0) (ite_self 0) rfl
  · cases happly
    refine ⟨sameDrawers_of_takings takings_voidBillRecord, fun other => ?_⟩
    rw [cashOf_of_paid (congrArg Takings.paid takings_voidBillRecord)]
    exact (Int.add_zero _).symm

theorem posts_voidSettledBill
    (hplan : env.voidSettledBill ids P actor scope billId reasonCodeId approval = .ok plan) :
    plan.Posts ids P (.givesBack billId (P.drawerShift env scope)) := by
  obtain ⟨start, ctx, bill, approver, drawer, payloads, hbill, hsettled, hdrawer, rfl, rfl⟩ :=
    voidSettledBill_ok hplan
  obtain ⟨hshift, htakes⟩ := voidDrawer_ok hdrawer
  have hcash : (P.paid[billId]?.getD (.nothing env.session.currency)).cash.minor =
      P.cashOf billId := by
    unfold cashOf
    cases P.paid[billId]? <;> rfl
  rw [hcash] at htakes
  rw [← hshift]
  refine ⟨⟨⟨bill, hbill, hsettled⟩,
    fun _ hsome => exists_of_drawerShift (hshift.symm.trans hsome), htakes⟩, ?_,
    fun Q Q' happly => ?_, Nat.zero_le _⟩
  · refine logged_approved (fun log other => ?_) (fun _ => rfl) (fun _ h => h) rfl
    exact Figures.ext rfl (ite_self 0) (ite_self 0) (ite_self 0) (ite_self 0) rfl
  · obtain ⟨hchanges, hcashOf⟩ := voidSettledRecord_drawers happly
    exact ⟨hchanges, fun other => (hcashOf other).trans (Int.add_zero _).symm⟩

theorem logged_anchor {id : Nat} {anchor : List Event} (h : env.anchorChain P ctx id = .ok anchor) :
    nothing.Logged anchor := by
  rcases anchorChain_ok h with rfl | ⟨seq, head, unchained, rfl⟩
  · exact logged_nothing (by simp)
  · refine logged_nothing fun event hevent => ?_
    obtain rfl := mem_singleton.1 hevent
    exact ⟨rfl, rfl⟩

theorem posts_closeShift
    (hplan : env.closeShift ids P actor scope shiftId approval reason = .ok plan) :
    ∃ expected, plan.Posts ids P (.closes [(shiftId, expected)]) := by
  obtain ⟨ctx, closed, stepUps, payloads, anchor, ⟨record, hrecord, hcounted, hid, hexpected⟩, rfl,
    hanchor, rfl⟩ := closeShift_ok hplan
  refine ⟨closed.expectedAmount, ⟨nodup_singleton _, fun closing hclosing => ?_⟩, ?_,
    fun Q Q' happly => ?_, Nat.zero_le _⟩
  · obtain rfl := mem_singleton.1 hclosing
    exact ⟨record, hrecord, hcounted, hexpected⟩
  · refine Logged.append
      (logged_approved (fun log other => ?_) (fun _ => rfl) (fun _ h => nomatch h)
      ?_) (logged_anchor hanchor)
    · exact Figures.ext rfl (ite_self 0) (ite_self 0) (ite_self 0) (ite_self 0) (ite_self 0)
    · show [ShiftMark.closed closed.closedShiftId closed.expectedAmount] = _
      rw [hid]
      rfl
  · cases happly
    obtain ⟨hdrawer, hopen, hpaid⟩ := @closeShiftRecords Q [shiftId]
    exact ⟨⟨hdrawer, hopen⟩, fun other => (cashOf_of_paid hpaid other).trans
      (Int.add_zero _).symm⟩

/-- The shifts of a batch and what each should hold. -/
def closingsOf (entries : List ((ShiftId × ShiftRecord) × CashShiftClosed)) :
    List (ShiftId × Money) :=
  entries.map fun entry => (entry.1.1, entry.2.expectedAmount)

theorem closePayloads_ok
    {stamped : ShiftId × Payload}
    (h : stamped ∈ closePayloads actor scope approver overrider entry) :
    stamped.2 = .cashShiftClosed entry.2 ∨ stamped.2.isOverride = true := by
  obtain ⟨payload, hpayload, rfl⟩ := mem_map.1 h
  rcases mem_cons.1 hpayload with rfl | hoverride
  · exact .inl rfl
  · exact .inr (isOverride_of_mem_overridePayloads hoverride)

theorem marks_closePayloads
    (hid : entry.2.closedShiftId = entry.1.1) :
    (closePayloads actor scope approver overrider entry).filterMap (·.2.mark?) =
      [.closed entry.1.1 entry.2.expectedAmount] := by
  unfold closePayloads approvedPayloads
  have hclosed : (cashShiftClosed entry.2).mark? =
      some (.closed entry.1.1 entry.2.expectedAmount) := by
    rw [← hid]
    rfl
  rw [filterMap_map]
  show List.filterMap mark? _ = _
  rw [filterMap_cons_some hclosed]
  refine congrArg (_ :: ·) (filterMap_eq_nil_iff.2 fun payload hpayload => ?_)
  exact (of_isOverride (isOverride_of_mem_overridePayloads hpayload)).2

/-- The marks of a batch, one for each of its shifts. -/
theorem marks_batch {entries : List ((ShiftId × ShiftRecord) × CashShiftClosed)}
    (hid : ∀ entry ∈ entries, entry.2.closedShiftId = entry.1.1) :
    (entries.flatMap (closePayloads actor scope approver overrider)).filterMap (·.2.mark?) =
      (closes (closingsOf entries)).marks := by
  induction entries with
  | nil => rfl
  | cons first rest ih =>
    rw [flatMap_cons, filterMap_append, marks_closePayloads (hid first mem_cons_self),
      ih fun entry hentry => hid entry (mem_cons_of_mem _ hentry)]
    rfl

theorem mem_stamped {event : Event}
    (h : event ∈ payloads.mapIdx fun i entry => prepareOn ctx (ids i) entry.2 (some entry.1)) :
    ∃ entry ∈ payloads, event.payload = entry.2 := by
  obtain ⟨i, hi, rfl⟩ := mem_mapIdx.1 h
  exact ⟨_, getElem_mem hi, rfl⟩

theorem marks_stamped :
    (payloads.mapIdx fun i entry => prepareOn ctx (ids i) entry.2 (some entry.1)).filterMap
        (·.payload.mark?) = payloads.filterMap (·.2.mark?) := by
  rw [mapIdx_eq_zipIdx_map, filterMap_map, ← congrArg (List.filterMap _)
    (zipIdx_map_fst 0 payloads), filterMap_map]
  rfl

theorem posts_closeShifts {shiftIds : List ShiftId} {reasons : List (ShiftId × ReasonCodeId)}
    (hplan : env.closeShifts ids P actor scope shiftIds approval reasons = .ok plan) :
    ∃ closings, plan.Posts ids P (.closes closings) ∧
      ∀ closing ∈ closings, closing.1 ∈ shiftIds := by
  obtain ⟨ctx, named, closings, approver, overrider, payloads, anchor, hnamed, hclosings, hpayloads,
    hanchor, rfl⟩ := closeShifts_ok hplan
  have hzip := forall₂_iff_zip.1 hclosings
  have hshifts : (closingsOf (named.zip closings)).map (·.1) = named.map (·.1) := by
    have hfst : ((named.zip closings).map Prod.fst).map (·.1) = named.map (·.1) := by
      rw [map_fst_zip hzip.1.le]
    rw [map_map] at hfst
    rw [closingsOf, map_map]
    exact hfst
  refine ⟨closingsOf (named.zip closings), ⟨⟨?_, fun closing hclosing => ?_⟩, ?_,
    fun Q Q' happly => ?_, Nat.zero_le _⟩, fun closing hclosing => ?_⟩
  · rw [hshifts]
    exact (namedShifts_ok hnamed).1
  · obtain ⟨entry, hentry, rfl⟩ := mem_map.1 hclosing
    obtain ⟨record, hrecord, hcounted, _, hexpected⟩ := hzip.2 hentry
    exact ⟨record, hrecord, hcounted, hexpected⟩
  · refine Logged.append ?_ ?_
    · -- a close or a step-up: neither counts for a figure
      refine logged_closes (fun event hevent => ?_) ?_
      · obtain ⟨stamped, hstamped, heq⟩ := mem_stamped hevent
        rw [heq]
        rw [hpayloads] at hstamped
        obtain ⟨entry, _, hentry⟩ := mem_flatMap.1 hstamped
        rcases closePayloads_ok hentry with hclosed | hoverride
        · rw [hclosed]
          rfl
        · exact (of_isOverride hoverride).1
      · rw [marks_stamped, hpayloads, marks_batch]
        intro entry hentry
        obtain ⟨_, _, _, hid, _⟩ := hzip.2 hentry
        exact hid
    · unfold anchorBatch at hanchor
      split at hanchor
      · cases hanchor
        exact logged_nothing (by simp)
      · exact logged_anchor hanchor
  · cases happly
    have hfold : named.foldl (fun P entry => P.closeShiftRecord entry.1) Q =
        (named.map (·.1)).foldl closeShiftRecord Q := foldl_map.symm
    rw [hfold, ← hshifts]
    obtain ⟨hdrawer, hopen, hpaid⟩ :=
      @closeShiftRecords Q ((closingsOf (named.zip closings)).map (·.1))
    exact ⟨⟨hdrawer, hopen⟩, fun other => (cashOf_of_paid hpaid other).trans
      (Int.add_zero _).symm⟩
  · obtain ⟨entry, hentry, rfl⟩ := mem_map.1 hclosing
    exact ((namedShifts_ok hnamed).2 entry.1 (of_mem_zip hentry).1).1

/-- A command that moves no money and voids no bill writes nothing that counts. -/
theorem Writes.not_counts {payload : Payload} (h : command.Writes payload)
    (hmoves : command.movesMoney = false) (hvoids : command.voidsUnpaid = false) :
    payload.counts = false ∧ payload.mark? = none := by
  cases payload with
  | billingPaymentCaptured =>
    obtain ⟨_, _, _, _, _, rfl⟩ := h
    exact absurd hmoves Bool.noConfusion
  | billingBillVoided =>
    rcases h with ⟨actor, approval, rfl⟩ | ⟨_, _, _, rfl⟩
    · exact absurd hvoids Bool.noConfusion
    · exact absurd hmoves Bool.noConfusion
  | cashShiftOpened =>
    obtain ⟨_, _, _, _, _, _, rfl⟩ := h
    exact absurd hmoves Bool.noConfusion
  | cashShiftCounted =>
    obtain ⟨_, _, _, _, rfl⟩ := h
    exact absurd hmoves Bool.noConfusion
  | cashShiftClosed =>
    rcases h with ⟨_, _, _, _, rfl⟩ | ⟨_, _, _, _, _, rfl, _⟩
    · exact absurd hmoves Bool.noConfusion
    · exact absurd hmoves Bool.noConfusion
  | cashDrawerPaidIn | cashDrawerPaidOut =>
    obtain ⟨_, _, _, _, rfl⟩ := h
    exact absurd hmoves Bool.noConfusion
  | cashDrawerDropped =>
    rcases h with ⟨_, _, _, _, _, rfl⟩ | ⟨_, _, _, _, _, rfl⟩
    · exact absurd hmoves Bool.noConfusion
    · exact absurd hmoves Bool.noConfusion
  | _ => exact ⟨rfl, rfl⟩

theorem posts_nothing (hmoves : command.movesMoney = false) (hvoids : command.voidsUnpaid = false)
    (hplan : command.plan env ids P = .ok plan) : plan.Posts ids P .nothing := by
  refine ⟨trivial, logged_nothing fun event hevent => ?_, fun Q Q' happly => ?_, Nat.zero_le _⟩
  · exact Writes.not_counts (plan_writes hplan event hevent) hmoves hvoids
  · have htakings
 := takings_eq hmoves hplan happly
    exact ⟨sameDrawers_of_takings htakings, fun other =>
      (cashOf_of_paid (congrArg Takings.paid htakings) other).trans (Int.add_zero _).symm⟩

/-- Every command that was decided posts one posting, of its kind. -/
theorem plan_posts (hplan : command.plan env ids P = .ok plan) :
    ∃ posting, command.PostsAs posting ∧ plan.Posts ids P posting := by
  cases command with
  | openShift =>
    obtain ⟨drawer, hposts⟩ := posts_openShift hplan
    exact ⟨_, ⟨_, drawer, rfl⟩, hposts⟩
  | countShift =>
    exact ⟨_, rfl, posts_countShift hplan⟩
  | closeShift =>
    obtain ⟨expected, hposts⟩ := posts_closeShift hplan
    exact ⟨_, ⟨expected, rfl⟩, hposts⟩
  | closeShifts =>
    obtain ⟨closings, hposts, hmem⟩ := posts_closeShifts hplan
    exact ⟨_, ⟨closings, rfl, hmem⟩, hposts⟩
  | recordCashMovement =>
    exact ⟨_, rfl, posts_moveCash hplan⟩
  | recordSafeDrop =>
    exact ⟨_, rfl, posts_moveCash (recordSafeDrop_ok hplan)⟩
  | settleBill =>
    exact ⟨_, ⟨_, rfl⟩, posts_settleBill hplan⟩
  | voidBill => exact ⟨_, ⟨_, rfl⟩, posts_voidBill hplan⟩
  | voidSettledBill =>
    exact ⟨_, ⟨_, rfl⟩, posts_voidSettledBill hplan⟩
  | _ => exact ⟨.nothing, rfl, posts_nothing rfl rfl hplan⟩

end Command

end PosFramework
