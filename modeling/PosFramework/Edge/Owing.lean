import PosFramework.Edge.Frames
import PosFramework.Lib.Transition

set_option autoImplicit false

/-! # The index of what is owing

The projection keeps two indexes: each order's lines, and the orders that still owe. An update
brings them up to date for the orders it touches. The line index follows every update. The owing
orders follow them too, as long as a bill stays on its order and no receipt is kept for a bill that
was voided. -/

namespace PosFramework

open Keyed List Projection Transition Books

/-- An update of a projection that bears on its lines and on what is owing. -/
inductive ProjectionUpdate
  | addLine (lineId : OrderLineId) (record : LineRecord)
  | mergeOrder (target merged : OrderId)
  | closeOrder (orderId : OrderId)
  | recordStaffDecision (orderId : OrderId) (decision : StaffDecision)
  | openBillRecord (billId : BillId) (record : BillRecord)
  /-- A split and a merge move a bill's state alone. -/
  | setBillState (billId : BillId) (state : BillState)
  | settleBillRecord (billId : BillId)
  | voidBillRecord (billId : BillId)
  | recordSettled (billId : BillId) (receipt : SettledReceipt)
  | setLineState (lineId : OrderLineId) (state : OrderLineState)
  | setFiredTime (lineId : OrderLineId) (firedTime : Timestamp) (stationId : StationId)
  | foldFired (lineId : OrderLineId) (firedTime : Timestamp) (stationId : StationId)
  | setLineQuantity (lineId : OrderLineId) (quantity : Quantity) (lineTotal : Money)

/-- What an update does to the projection. -/
def Projection.update (P : Projection) : ProjectionUpdate → Projection
  | .addLine lineId record => P.addLine lineId record
  | .mergeOrder target merged => P.mergeOrder target merged
  | .closeOrder orderId => P.closeOrder orderId
  | .recordStaffDecision orderId decision => P.recordStaffDecision orderId decision
  | .openBillRecord billId record => P.openBillRecord billId record
  | .setBillState billId state => P.setBillState billId state
  | .settleBillRecord billId => P.settleBillRecord billId
  | .voidBillRecord billId => P.voidBillRecord billId
  | .recordSettled billId receipt => P.recordSettled billId receipt
  | .setLineState lineId state => P.setLineState lineId state
  | .setFiredTime lineId firedTime stationId => P.setFiredTime lineId firedTime stationId
  | .foldFired lineId firedTime stationId => P.foldFired lineId firedTime stationId
  | .setLineQuantity lineId quantity lineTotal => P.setLineQuantity lineId quantity lineTotal

/-- Runs of updates. -/
abbrev Projection.Updates (allowed : Projection → ProjectionUpdate → Prop) :
    Projection → List ProjectionUpdate → Projection → Prop :=
  Run (ε := Empty) (fun update P => .ok (P.update update)) allowed

/-! ## The index of lines -/

/-- Each order's index lists its lines, in order and once each. -/
structure Projection.LinesIndexed (P : Projection) : Prop where
  indexed : P.books.Indexed
  sorted : ∀ orderId, (P.lineIdsForOrder orderId).Pairwise (· < ·)

namespace Projection

variable {P : Projection}

/-- A line is taken off the index of one order and put on that of another. -/
def moveLine (P : Projection) (lineId : OrderLineId) (previous : OrderId) (record : LineRecord) :
    Projection :=
  (({ P with lines := P.lines.insert lineId record }).unindexLine previous lineId).indexLine
    record.orderId lineId

theorem lineIdsForOrder_moveLine (P : Projection) (lineId : OrderLineId) {previous : OrderId}
    {record : LineRecord} (hne : previous ≠ record.orderId) (orderId : OrderId) :
    (P.moveLine lineId previous record).lineIdsForOrder orderId =
      if orderId = record.orderId then Keyed.insertSorted lineId (P.lineIdsForOrder record.orderId)
      else if orderId = previous then (P.lineIdsForOrder previous).filter (· ≠ lineId)
      else P.lineIdsForOrder orderId := by
  have hget : ∀ orderId, (P.orderLines.modify previous
      (·.filter fun id => decide (id ≠ lineId)))[orderId]?.getD [] =
      if orderId = previous then (P.lineIdsForOrder previous).filter (· ≠ lineId)
      else P.lineIdsForOrder orderId := by
    intro orderId
    rw [get_modify]
    by_cases hprevious : previous = orderId
    · subst hprevious
      rw [if_pos rfl, if_pos rfl, lineIdsForOrder]
      cases P.orderLines[previous]? <;> rfl
    · rw [if_neg hprevious, if_neg (Ne.symm hprevious)]
      rfl
  show ((P.orderLines.modify previous _).insert record.orderId _)[orderId]?.getD [] = _
  rw [get_insert]
  split
  · next horder =>
    rw [if_pos horder.symm]
    show Keyed.insertSorted lineId
      ((P.orderLines.modify previous _)[record.orderId]?.getD []) = _
    rw [hget, if_neg hne.symm]
  · next horder =>
    rw [if_neg (Ne.symm horder), hget]

variable {P' : Projection} {orderId : OrderId} {billId : BillId} {lineId : OrderLineId}
  {record : BillRecord}

/-- The index of lines is what the books say it is. -/
theorem LinesIndexed.of_eq {books : Books} (hbooks : P.books = books) (hindexed : books.Indexed)
    (hsorted : ∀ orderId, (books.lineIndex orderId).Pairwise (· < ·)) : P.LinesIndexed := by
  subst hbooks
  exact ⟨hindexed, hsorted⟩

theorem LinesIndexed.of_books (h : P.LinesIndexed) (hbooks : P'.books = P.books) :
    P'.LinesIndexed := .of_eq hbooks h.indexed h.sorted

theorem LinesIndexed.mem_iff (h : P.LinesIndexed) :
    lineId ∈ P.lineIdsForOrder orderId ↔
      ∃ record, P.line lineId = some record ∧ record.orderId = orderId :=
  h.indexed.mem_lineIndex orderId lineId

theorem LinesIndexed.moveLine (h : P.LinesIndexed) {old record : LineRecord}
    (hold : P.line lineId = some old) (hne : old.orderId ≠ record.orderId) :
    (P.moveLine lineId old.orderId record).LinesIndexed := by
  have hindex := P.lineIdsForOrder_moveLine lineId hne
  have hline : ∀ id, (P.moveLine lineId old.orderId record).line id =
      if lineId = id then some record else P.line id := fun id => get_insert P.lines lineId id _
  have hsorted : ∀ orderId,
      ((P.moveLine lineId old.orderId record).lineIdsForOrder orderId).Pairwise (· < ·) := by
    intro orderId
    rw [hindex]
    split
    · exact sorted_insertSorted (h.sorted _)
    · split
      · exact (h.sorted _).filter _
      · exact h.sorted orderId
  refine ⟨⟨?_, fun orderId => (hsorted orderId).imp fun hlt => hlt.ne, h.indexed.mem_billIndex⟩,
    hsorted⟩
  intro orderId id
  show id ∈ (P.moveLine lineId old.orderId record).lineIdsForOrder orderId ↔
    ∃ record', (P.moveLine lineId old.orderId record).line id = some record' ∧ _
  rw [hindex, hline]
  by_cases hid : lineId = id
  · -- the line itself is on its new order alone
    subst hid
    rw [if_pos rfl]
    simp only [Option.some.injEq, exists_eq_left']
    split
    · next horder =>
      rw [mem_insertSorted]
      exact iff_of_true (.inl rfl) horder.symm
    · next horder =>
      refine iff_of_false ?_ (Ne.symm horder)
      split
      · simp
      · next hprevious =>
        rw [h.mem_iff, hold]
        rintro ⟨record', hrecord', horder'⟩
        rw [← Option.some.inj hrecord'] at horder'
        exact hprevious horder'.symm
  · rw [if_neg hid, ← h.mem_iff]
    split
    · next horder =>
      rw [mem_insertSorted, horder]
      exact ⟨fun hmem => hmem.resolve_left (Ne.symm hid), .inr⟩
    · split
      · next hprevious =>
        rw [mem_filter, hprevious]
        exact ⟨fun hmem => hmem.1, fun hmem => ⟨hmem, decide_eq_true (Ne.symm hid)⟩⟩
      · rfl

/-- The index after a line is recorded, before what is owing is brought up to date. -/
theorem addLine_eq (P : Projection) (lineId : OrderLineId) (record : LineRecord) :
    (P.line lineId = none ∧ P.addLine lineId record =
      (({ P with lines := P.lines.insert lineId record }).indexLine record.orderId
        lineId).refreshLive record.orderId) ∨
    (∃ old, P.line lineId = some old ∧ old.orderId = record.orderId ∧ P.addLine lineId record =
      ({ P with lines := P.lines.insert lineId record }).refreshLive record.orderId) ∨
    ∃ old, P.line lineId = some old ∧ old.orderId ≠ record.orderId ∧ P.addLine lineId record =
      ((P.moveLine lineId old.orderId record).refreshLive old.orderId).refreshLive
        record.orderId := by
  cases hline : P.line lineId with
  | none => exact .inl ⟨rfl, by simp only [addLine, hline, Option.map_none]⟩
  | some old =>
    by_cases horder : old.orderId = record.orderId
    · exact .inr (.inl ⟨old, rfl, horder, by
        simp only [addLine, hline, Option.map_some, if_pos horder]⟩)
    · exact .inr (.inr ⟨old, rfl, horder, by
        simp only [addLine, hline, Option.map_some, if_neg horder]
        rfl⟩)

theorem LinesIndexed.addLine (h : P.LinesIndexed) (lineId : OrderLineId) (record : LineRecord) :
    (P.addLine lineId record).LinesIndexed := by
  rcases P.addLine_eq lineId record with ⟨hline, _⟩ | ⟨old, hline, horder, hadd⟩ |
    ⟨old, hline, horder, hadd⟩
  · refine .of_eq (books_addLine hline) (h.indexed.addLine hline) fun orderId => ?_
    rw [lineIndex_addLine]
    split
    · exact sorted_insertSorted (h.sorted _)
    · exact h.sorted orderId
  · have hset : (P.books.setLine lineId record).Indexed := h.indexed.setLine hline horder.symm
    rw [hadd]
    exact ⟨hset, h.sorted⟩
  · rw [hadd]
    exact (h.moveLine hline horder).of_books rfl

theorem LinesIndexed.mergeOrder (h : P.LinesIndexed) (target merged : OrderId) :
    (P.mergeOrder target merged).LinesIndexed := by
  by_cases hne : target = merged
  · rw [Projection.mergeOrder, if_pos hne]
    exact h
  · refine .of_eq (P.books_mergeOrder hne) (h.indexed.mergeOrder hne) fun orderId => ?_
    rw [lineIndex_mergeOrder hne]
    split
    · exact sorted_unionSorted (h.sorted target)
    · split
      · exact List.Pairwise.nil
      · exact h.sorted orderId

theorem LinesIndexed.setBillState (h : P.LinesIndexed) (billId : BillId) (state : BillState) :
    (P.setBillState billId state).LinesIndexed := by
  cases hbill : P.bill billId with
  | none =>
    simp only [Projection.setBillState, hbill]
    exact h
  | some record =>
    have hcharge : P.books.charge billId = some record.charge := by
      show (P.bill billId).map BillRecord.charge = _
      rw [hbill]
      rfl
    exact .of_eq (books_setBillState hbill) (h.indexed.setCharge hcharge rfl) h.sorted

theorem LinesIndexed.updateLine (h : P.LinesIndexed) (lineId : OrderLineId)
    {change : LineRecord → LineRecord}
    (hchange : ∀ record, (change record).orderId = record.orderId) :
    (P.updateLine lineId change).LinesIndexed := by
  cases hline : P.line lineId with
  | none =>
    simp only [Projection.updateLine, hline]
    exact h
  | some record =>
    exact .of_eq (books_updateLine hline change) (h.indexed.setLine hline (hchange record)) h.sorted

theorem LinesIndexed.setLineQuantity (h : P.LinesIndexed) (lineId : OrderLineId)
    (quantity : Quantity) (lineTotal : Money) :
    (P.setLineQuantity lineId quantity lineTotal).LinesIndexed := by
  cases hline : P.line lineId with
  | none =>
    refine h.of_books ?_
    have hlines : (P.setLineQuantity lineId quantity lineTotal).lines = P.lines := by
      refine map_ext fun id => ?_
      show (P.lines.modify lineId _)[id]? = _
      rw [get_modify]
      split
      next hid =>
        subst hid
        exact congrArg _ (show P.lines[lineId]? = none from hline) |>.trans hline.symm
      next => rfl
    unfold books
    rw [hlines]
    rfl
  | some record =>
    exact .of_eq (books_setLineQuantity hline) (h.indexed.setLine hline rfl) h.sorted

/-- Every update keeps the index of lines. -/
theorem LinesIndexed.update (h : P.LinesIndexed) (update : ProjectionUpdate) :
    (P.update update).LinesIndexed := by
  cases update with
  | addLine lineId record => exact h.addLine lineId record
  | mergeOrder target merged => exact h.mergeOrder target merged
  | closeOrder => exact h.of_books P.books_closeOrder
  | recordStaffDecision => exact h.of_books P.books_recordStaffDecision
  | openBillRecord billId record => exact .of_eq P.books_openBillRecord h.indexed.openBill h.sorted
  | setBillState billId state => exact h.setBillState billId state
  | settleBillRecord billId =>
    obtain ⟨tables, hsettled⟩ := P.settleBillRecord_eq billId
    show (P.settleBillRecord billId).LinesIndexed
    rw [hsettled]
    exact (h.setBillState billId .settled).of_books rfl
  | voidBillRecord billId =>
    obtain ⟨tables, hvoided⟩ := P.voidBillRecord_eq billId
    show (P.voidBillRecord billId).LinesIndexed
    rw [hvoided]
    exact (h.setBillState billId .voided).of_books rfl
  | recordSettled => exact h.of_books rfl
  | setLineState lineId state => exact h.updateLine lineId fun _ => rfl
  | setFiredTime lineId firedTime stationId => exact h.updateLine lineId fun _ => rfl
  | foldFired lineId firedTime stationId =>
    have hstate : (P.setLineState lineId .fired).LinesIndexed := h.updateLine lineId fun _ => rfl
    exact hstate.updateLine lineId fun _ => rfl
  | setLineQuantity lineId quantity lineTotal => exact h.setLineQuantity lineId quantity lineTotal

/-! ## What is owing -/

/-- What decides whether an order owes is as it was. -/
structure SameStanding (P P' : Projection) (orderId : OrderId) : Prop where
  lines : P'.lineIdsForOrder orderId = P.lineIdsForOrder orderId
  decision : P'.staffDecision orderId = P.staffDecision orderId
  closed : orderId ∈ P'.closedOrders ↔ orderId ∈ P.closedOrders
  bills : P'.billIdsForOrder orderId = P.billIdsForOrder orderId
  states : ∀ billId ∈ P.billIdsForOrder orderId, ∀ state,
    P'.billIn state billId = P.billIn state billId
  receipts : ∀ billId ∈ P.billIdsForOrder orderId, P.billIn .voided billId = true →
    P'.settled[billId]?.isSome = P.settled[billId]?.isSome

theorem same (P : Projection) (orderId : OrderId) : P.SameStanding P orderId :=
  ⟨rfl, rfl, .rfl, rfl, fun _ _ _ => rfl, fun _ _ _ => rfl⟩

theorem SameStanding.latestBillIn (h : P.SameStanding P' orderId) (state : BillState) :
    P'.latestBillIn orderId state = P.latestBillIn orderId state := by
  unfold Projection.latestBillIn
  rw [h.bills]
  exact find?_congr fun billId hmem => h.states billId (mem_reverse.1 hmem) state

theorem mem_of_billForOrder (h : P.billForOrder orderId = some billId) :
    billId ∈ P.billIdsForOrder orderId := by
  rcases Option.or_eq_some_iff.1 h with hopen | ⟨_, hsettled⟩
  · exact mem_reverse.1 (mem_of_find?_eq_some hopen)
  · exact mem_reverse.1 (mem_of_find?_eq_some hsettled)

/-- Then the order stays on the boards or not, as before. -/
theorem SameStanding.staysLive (h : P.SameStanding P' orderId) :
    P'.staysLive orderId = P.staysLive orderId := by
  have hbill : P'.billForOrder orderId = P.billForOrder orderId := by
    unfold billForOrder
    rw [h.latestBillIn, h.latestBillIn]
  have hsettled : (P'.billForOrder orderId).any P'.isSettled =
      (P.billForOrder orderId).any P.isSettled := by
    rw [hbill]
    cases hcharging : P.billForOrder orderId with
    | none => rfl
    | some billId => exact h.states billId (mem_of_billForOrder hcharging) .settled
  have hvoided : P'.voidedAfterPayment orderId = P.voidedAfterPayment orderId := by
    unfold voidedAfterPayment
    rw [h.latestBillIn, h.bills]
    congr 1
    rw [Bool.eq_iff_iff, any_eq_true, any_eq_true]
    refine exists_congr fun billId => and_congr_right fun hmem => ?_
    rw [h.states billId hmem, Bool.and_eq_true, Bool.and_eq_true]
    refine and_congr_left fun hvoided => ?_
    rw [h.receipts billId hmem hvoided]
  unfold Projection.staysLive
  rw [hsettled, hvoided, h.decision, h.lines, decide_eq_decide.2 h.closed]

/-- The live orders are those that stay on the boards. -/
def LiveExact (P : Projection) : Prop :=
  ∀ orderId, orderId ∈ P.live ↔ P.staysLive orderId = true

theorem mem_live_refreshLive {other : OrderId} :
    other ∈ (P.refreshLive orderId).live ↔
      if other = orderId then P.staysLive orderId = true else other ∈ P.live := by
  show other ∈ (if P.staysLive orderId then P.live.insert orderId else P.live.erase orderId) ↔ _
  by_cases hother : other = orderId
  · subst hother
    cases P.staysLive other <;> simp
  · cases P.staysLive orderId <;> simp [hother, Ne.symm hother]

/-- Bringing an order up to date makes the live orders exact, where they were but for it. -/
theorem liveExact_refreshLive
    (h : ∀ other, other ≠ orderId → (other ∈ P.live ↔ P.staysLive other = true)) :
    (P.refreshLive orderId).LiveExact := by
  intro other
  rw [mem_live_refreshLive]
  show _ ↔ P.staysLive other = true
  split
  · next hother => rw [hother]
  · next hother => exact h other hother

/-- Two orders brought up to date one after the other. -/
theorem liveExact_refreshLive_both {first second : OrderId}
    (h : ∀ other, other ≠ first → other ≠ second → (other ∈ P.live ↔ P.staysLive other = true)) :
    ((P.refreshLive first).refreshLive second).LiveExact := by
  refine liveExact_refreshLive fun other hsecond => ?_
  show other ∈ (P.refreshLive first).live ↔ P.staysLive other = true
  rw [mem_live_refreshLive]
  split
  · next hfirst => rw [hfirst]
  · next hfirst => exact h other hfirst hsecond

theorem LiveExact.of_same (h : P.LiveExact) (hlive : P'.live = P.live)
    (hsame : ∀ orderId, P.SameStanding P' orderId) : P'.LiveExact := by
  intro orderId
  rw [hlive, (hsame orderId).staysLive]
  exact h orderId

/-- An update that touches one order, and then brings it up to date. -/
theorem LiveExact.refresh_of_same (h : P.LiveExact) (hlive : P'.live = P.live)
    (hsame : ∀ other, other ≠ orderId → P.SameStanding P' other) :
    (P'.refreshLive orderId).LiveExact := by
  refine liveExact_refreshLive fun other hother => ?_
  rw [hlive, (hsame other hother).staysLive]
  exact h other

theorem LiveExact.refresh_both_of_same (h : P.LiveExact) {first second : OrderId}
    (hlive : P'.live = P.live)
    (hsame : ∀ other, other ≠ first → other ≠ second → P.SameStanding P' other) :
    ((P'.refreshLive first).refreshLive second).LiveExact := by
  refine liveExact_refreshLive_both fun other hfirst hsecond => ?_
  rw [hlive, (hsame other hfirst hsecond).staysLive]
  exact h other

/-- Every bill listed for an order is a bill of that order. -/
def BillsPlaced (P : Projection) : Prop :=
  ∀ orderId, ∀ billId ∈ P.billIdsForOrder orderId,
    ∃ record, P.bill billId = some record ∧ record.orderId = orderId

/-- A bill is opened for the order it was opened for, if it was, and the receipt that is kept is of
    a bill that was not voided. -/
def KeepsBills (P : Projection) : ProjectionUpdate → Prop
  | .openBillRecord billId record =>
    ∀ held, P.bill billId = some held → held.orderId = record.orderId
  | .recordSettled billId _ => P.billIn .voided billId = false
  | _ => True

/-! ## Each update -/

theorem LiveExact.addLine (h : P.LiveExact) (lineId : OrderLineId) (record : LineRecord) :
    (P.addLine lineId record).LiveExact := by
  rcases P.addLine_eq lineId record with ⟨_, hadd⟩ | ⟨old, _, _, hadd⟩ | ⟨old, _, horder, hadd⟩
  · rw [hadd]
    refine h.refresh_of_same rfl fun other hother => { P.same other with lines := ?_ }
    show (P.orderLines.insert record.orderId _)[other]?.getD [] = P.orderLines[other]?.getD []
    rw [get_insert, if_neg (Ne.symm hother)]
  · rw [hadd]
    exact h.refresh_of_same rfl fun other _ => { P.same other with }
  · rw [hadd]
    refine h.refresh_both_of_same rfl fun other hprevious hother =>
      { P.same other with lines := ?_ }
    rw [lineIdsForOrder_moveLine P lineId horder, if_neg hother, if_neg hprevious]

/-- A staff decision leaves the order's decision and the tables, and brings the order up to date. -/
theorem recordStaffDecision_eq (P : Projection) (orderId : OrderId) (decision : StaffDecision) :
    ∃ tables tableOrders, P.recordStaffDecision orderId decision =
      { ({ P with
            staffDecisions := P.staffDecisions.insert orderId decision }).refreshLive orderId with
        tables := tables, tableOrders := tableOrders } := by
  unfold recordStaffDecision
  dsimp only
  split
  · split
    · exact giveTableBack_eq _ _
    · exact ⟨_, _, rfl⟩
  · exact ⟨_, _, rfl⟩

theorem closeOrder_eq (P : Projection) (orderId : OrderId) :
    ∃ tableOrders, P.closeOrder orderId =
      ({ P with
          closedOrders := P.closedOrders.insert orderId
          tableOrders := tableOrders }).refreshLive orderId := by
  obtain ⟨tableOrders, hcleared⟩ :=
    ({ P with closedOrders := P.closedOrders.insert orderId } : Projection).clearTableOf_eq orderId
  refine ⟨tableOrders, ?_⟩
  unfold closeOrder
  rw [hcleared]

/-- Two orders that are joined: the lines move, the one is closed, and both are brought up to
    date. -/
theorem mergeOrder_eq (P : Projection) {target merged : OrderId} (hne : target ≠ merged) :
    ∃ lines tableOrders, P.mergeOrder target merged =
      (({ P with
          lines := lines
          orderLines := (P.orderLines.erase merged).insert target
            (Keyed.unionSorted ((P.orderLines.erase merged)[target]?.getD [])
              (P.lineIdsForOrder merged))
          tableOrders := tableOrders
          closedOrders := P.closedOrders.insert merged }).refreshLive merged).refreshLive
            target := by
  obtain ⟨tableOrders, hpointed⟩ :=
    ((P.readdressLines (P.lineIdsForOrder merged) target).joinIndexes
    target merged).repointTable_eq target merged
  refine ⟨(P.readdressLines (P.lineIdsForOrder merged) target).lines, tableOrders, ?_⟩
  rw [Projection.mergeOrder, if_neg hne]
  dsimp only
  rw [hpointed]
  rfl

theorem LiveExact.mergeOrder (h : P.LiveExact) (target merged : OrderId) :
    (P.mergeOrder target merged).LiveExact := by
  by_cases hne : target = merged
  · rw [Projection.mergeOrder, if_pos hne]
    exact h
  obtain ⟨lines, tableOrders, hmerge⟩ := P.mergeOrder_eq hne
  rw [hmerge]
  refine h.refresh_both_of_same rfl fun other hmerged htarget =>
    { P.same other with lines := ?_, closed := ?_ }
  · show ((P.orderLines.erase merged).insert target _)[other]?.getD [] =
      P.orderLines[other]?.getD []
    rw [get_insert, if_neg (Ne.symm htarget), get_erase, if_neg (Ne.symm hmerged)]
  · rw [mem_insert]
    exact ⟨fun hmem => hmem.resolve_left (Ne.symm hmerged), .inr⟩

theorem LiveExact.closeOrder (h : P.LiveExact) (orderId : OrderId) :
    (P.closeOrder orderId).LiveExact := by
  obtain ⟨tableOrders, hclose⟩ := P.closeOrder_eq orderId
  rw [hclose]
  refine h.refresh_of_same rfl fun other hother => { P.same other with closed := ?_ }
  rw [mem_insert]
  exact ⟨fun hmem => hmem.resolve_left (Ne.symm hother), .inr⟩

theorem LiveExact.recordStaffDecision (h : P.LiveExact) (orderId : OrderId)
    (decision : StaffDecision) : (P.recordStaffDecision orderId decision).LiveExact := by
  obtain ⟨tables, tableOrders, hdecided⟩ := P.recordStaffDecision_eq orderId decision
  have hrefreshed : (({ P with
      staffDecisions := P.staffDecisions.insert orderId decision }).refreshLive
        orderId).LiveExact := by
    refine h.refresh_of_same rfl fun other hother => { P.same other with decision := ?_ }
    show (P.staffDecisions.insert orderId decision)[other]? = P.staffDecisions[other]?
    rw [get_insert, if_neg (Ne.symm hother)]
  rw [hdecided]
  exact hrefreshed.of_same rfl fun other => { same _ other with }

theorem billIn_of_ne {bills : Std.ExtTreeMap BillId BillRecord}
    (hbill : bills[billId]? = P.bills[billId]?) (state : BillState) :
    ({ P with bills := bills } : Projection).billIn state billId = P.billIn state billId := by
  show (bills[billId]?).any _ = (P.bills[billId]?).any _
  rw [hbill]

theorem LiveExact.openBillRecord (h : P.LiveExact) (hplaced : P.BillsPlaced)
    (hkeeps : P.KeepsBills (.openBillRecord billId record)) :
    (P.openBillRecord billId record).LiveExact := by
  refine h.refresh_of_same rfl fun other hother => { P.same other with bills := ?_, states := ?_ }
  · show (P.orderBillIds.insert record.orderId _)[other]?.getD [] = P.orderBillIds[other]?.getD []
    rw [get_insert, if_neg (Ne.symm hother)]
  · intro listed hlisted state
    obtain ⟨held, hheld, horder⟩ := hplaced other listed hlisted
    refine billIn_of_ne ?_ state
    rw [get_insert, if_neg ?_]
    rintro rfl
    exact hother (horder.symm.trans (hkeeps held hheld))

theorem LiveExact.setBillState (h : P.LiveExact) (hplaced : P.BillsPlaced) (billId : BillId)
    (state : BillState) : (P.setBillState billId state).LiveExact := by
  cases hbill : P.bill billId with
  | none =>
    simp only [Projection.setBillState, hbill]
    exact h
  | some record =>
    simp only [Projection.setBillState, hbill]
    refine h.refresh_of_same rfl fun other hother =>
      { P.same other with states := fun listed hlisted state => ?_ }
    obtain ⟨held, hheld, horder⟩ := hplaced other listed hlisted
    refine billIn_of_ne ?_ state
    rw [get_modify, if_neg ?_]
    rintro rfl
    obtain rfl : held = record := Option.some.inj (hheld.symm.trans hbill)
    exact hother horder.symm

theorem LiveExact.recordSettled (h : P.LiveExact) {receipt : SettledReceipt}
    (hkeeps : P.KeepsBills (.recordSettled billId receipt)) :
    (P.recordSettled billId receipt).LiveExact := by
  refine h.of_same rfl fun orderId => { P.same orderId with receipts := fun listed _ hvoided => ?_ }
  show (P.settled.insert billId receipt)[listed]?.isSome = P.settled[listed]?.isSome
  rw [get_insert, if_neg ?_]
  rintro rfl
  have hnot : P.billIn .voided billId = false := hkeeps
  rw [hnot] at hvoided
  contradiction

theorem LiveExact.updateLine (h : P.LiveExact) (lineId : OrderLineId)
    (change : LineRecord → LineRecord) : (P.updateLine lineId change).LiveExact := by
  cases hline : P.line lineId with
  | none =>
    simp only [Projection.updateLine, hline]
    exact h
  | some =>
    simp only [Projection.updateLine, hline]
    exact h.refresh_of_same rfl fun other _ => { P.same other with }

theorem LiveExact.update (h : P.LiveExact) (hplaced : P.BillsPlaced) {update : ProjectionUpdate}
    (hkeeps : P.KeepsBills update) : (P.update update).LiveExact := by
  cases update with
  | addLine lineId record => exact h.addLine lineId record
  | mergeOrder target merged => exact h.mergeOrder target merged
  | closeOrder orderId => exact h.closeOrder orderId
  | recordStaffDecision orderId decision => exact h.recordStaffDecision orderId decision
  | openBillRecord => exact h.openBillRecord hplaced hkeeps
  | setBillState billId state => exact h.setBillState hplaced billId state
  | settleBillRecord billId =>
    obtain ⟨tables, hsettled⟩ := P.settleBillRecord_eq billId
    show (P.settleBillRecord billId).LiveExact
    rw [hsettled]
    exact (h.setBillState hplaced billId .settled).of_same rfl fun other => { same _ other with }
  | voidBillRecord billId =>
    obtain ⟨tables, hvoided⟩ := P.voidBillRecord_eq billId
    show (P.voidBillRecord billId).LiveExact
    rw [hvoided]
    exact (h.setBillState hplaced billId .voided).of_same rfl fun other => { same _ other with }
  | recordSettled => exact h.recordSettled hkeeps
  | setLineState lineId state => exact h.updateLine lineId _
  | setFiredTime lineId firedTime stationId => exact h.updateLine lineId _
  | foldFired lineId firedTime stationId =>
    exact LiveExact.updateLine (h.updateLine lineId _) lineId _
  | setLineQuantity => exact h.of_same rfl fun other => { same _ other with }

/-! ## Bills stay on their orders -/

theorem BillsPlaced.of_bills (h : P.BillsPlaced) (hbills : P'.bills = P.bills)
    (hids : P'.orderBillIds = P.orderBillIds) : P'.BillsPlaced := by
  intro orderId billId hmem
  unfold billIdsForOrder at hmem
  unfold bill
  rw [hids] at hmem
  rw [hbills]
  exact h orderId billId hmem

theorem BillsPlaced.openBillRecord (h : P.BillsPlaced)
    (hkeeps : P.KeepsBills (.openBillRecord billId record)) :
    (P.openBillRecord billId record).BillsPlaced := by
  intro orderId listed hlisted
  have hmem : listed ∈ (P.books.openBill billId record.charge).billIndex orderId := by
    exact hlisted
  have hbill : (P.openBillRecord billId record).bill listed =
      if billId = listed then some record else P.bill listed :=
    get_insert P.bills billId listed record
  rcases mem_billIndex_openBill.1 hmem with ⟨horder, hnew⟩ | hbefore
  · exact ⟨record, by rw [hbill, if_pos hnew.symm], horder⟩
  · obtain ⟨held, hheld, horder⟩ := h orderId listed hbefore
    rw [hbill]
    split
    · next hsame => exact ⟨record, rfl, (hkeeps held (hsame ▸ hheld)).symm.trans horder⟩
    · exact ⟨held, hheld, horder⟩

theorem BillsPlaced.setBillState (h : P.BillsPlaced) (billId : BillId) (state : BillState) :
    (P.setBillState billId state).BillsPlaced := by
  cases hbill : P.bill billId with
  | none =>
    simp only [Projection.setBillState, hbill]
    exact h
  | some record =>
    simp only [Projection.setBillState, hbill]
    intro orderId listed hlisted
    obtain ⟨held, hheld, horder⟩ := h orderId listed hlisted
    show ∃ record, (P.bills.modify billId _)[listed]? = some record ∧ _
    rw [get_modify]
    split
    · next hsame =>
      have hget : P.bills[billId]? = some held := hsame ▸ hheld
      exact ⟨{ held with state }, by rw [hget]; rfl, horder⟩
    · exact ⟨held, hheld, horder⟩

theorem BillsPlaced.updateLine (h : P.BillsPlaced) (lineId : OrderLineId)
    (change : LineRecord → LineRecord) : (P.updateLine lineId change).BillsPlaced := by
  unfold Projection.updateLine
  split
  · exact h
  · exact h.of_bills rfl rfl

theorem BillsPlaced.update (h : P.BillsPlaced) {update : ProjectionUpdate}
    (hkeeps : P.KeepsBills update) : (P.update update).BillsPlaced := by
  cases update with
  | addLine lineId record =>
    show (P.addLine lineId record).BillsPlaced
    rcases P.addLine_eq lineId record with ⟨_, hadd⟩ | ⟨_, _, _, hadd⟩ | ⟨_, _, _, hadd⟩ <;>
      exact hadd ▸ h.of_bills rfl rfl
  | mergeOrder target merged =>
    show (P.mergeOrder target merged).BillsPlaced
    by_cases hne : target = merged
    · rw [Projection.mergeOrder, if_pos hne]
      exact h
    · obtain ⟨_, _, hmerge⟩ := P.mergeOrder_eq hne
      rw [hmerge]
      exact h.of_bills rfl rfl
  | closeOrder orderId =>
    obtain ⟨_, hclose⟩ := P.closeOrder_eq orderId
    show (P.closeOrder orderId).BillsPlaced
    rw [hclose]
    exact h.of_bills rfl rfl
  | recordStaffDecision orderId decision =>
    obtain ⟨_, _, hdecided⟩ := P.recordStaffDecision_eq orderId decision
    show (P.recordStaffDecision orderId decision).BillsPlaced
    rw [hdecided]
    exact h.of_bills rfl rfl
  | openBillRecord => exact h.openBillRecord hkeeps
  | setBillState billId state => exact h.setBillState billId state
  | settleBillRecord billId =>
    obtain ⟨_, hsettled⟩ := P.settleBillRecord_eq billId
    show (P.settleBillRecord billId).BillsPlaced
    rw [hsettled]
    exact (h.setBillState billId .settled).of_bills rfl rfl
  | voidBillRecord billId =>
    obtain ⟨_, hvoided⟩ := P.voidBillRecord_eq billId
    show (P.voidBillRecord billId).BillsPlaced
    rw [hvoided]
    exact (h.setBillState billId .voided).of_bills rfl rfl
  | recordSettled => exact h.of_bills rfl rfl
  | setLineState lineId state => exact h.updateLine lineId _
  | setFiredTime lineId firedTime stationId => exact h.updateLine lineId _
  | foldFired lineId firedTime stationId =>
    exact BillsPlaced.updateLine (h.updateLine lineId _) lineId _
  | setLineQuantity => exact h.of_bills rfl rfl

/-! ## Every sequence of updates -/

/-- An order owes: it has a line, is neither refused nor closed, the bill it is charged on is not
    paid, and its sale has not ended with a bill voided after payment. -/
def Owes (P : Projection) (orderId : OrderId) : Prop :=
  (∃ lineId record, P.line lineId = some record ∧ record.orderId = orderId) ∧
  P.staffDecision orderId ≠ some .rejected ∧ orderId ∉ P.closedOrders ∧
  (∀ billId, P.billForOrder orderId = some billId → P.billIn .settled billId = false) ∧
  ¬ (P.latestBillIn orderId .open = none ∧ ∃ billId ∈ P.billIdsForOrder orderId,
    P.billIn .voided billId = true ∧ P.settled[billId]?.isSome = true)

theorem staysLive_iff (h : P.LinesIndexed) (orderId : OrderId) :
    P.staysLive orderId = true ↔ P.Owes orderId := by
  have hlines : (P.lineIdsForOrder orderId).isEmpty = false ↔
      ∃ lineId record, P.line lineId = some record ∧ record.orderId = orderId := by
    rw [isEmpty_eq_false_iff_exists_mem]
    exact exists_congr fun lineId => h.mem_iff
  have hsettled : (P.billForOrder orderId).any P.isSettled = false ↔
      ∀ billId, P.billForOrder orderId = some billId → P.billIn .settled billId = false := by
    cases P.billForOrder orderId with
    | none => simp
    | some => simp [isSettled]
  have hvoided : P.voidedAfterPayment orderId = false ↔
      ¬ (P.latestBillIn orderId .open = none ∧ ∃ billId ∈ P.billIdsForOrder orderId,
        P.billIn .voided billId = true ∧ P.settled[billId]?.isSome = true) := by
    rw [← Bool.not_eq_true, voidedAfterPayment, Bool.and_eq_true, Option.isNone_iff_eq_none,
      any_eq_true]
    simp only [Bool.and_eq_true, and_comm]
  unfold staysLive Owes
  rw [← hlines, ← hsettled, ← hvoided]
  simp only [Bool.and_eq_true, Bool.not_eq_true', Bool.or_eq_false_iff, decide_eq_false_iff_not]
  tauto

theorem linesIndexed_empty : empty.LinesIndexed where
  indexed :=
    { mem_lineIndex := by
        simp [books, lineIndex, empty]
      nodup_lineIndex := fun _ => nodup_nil
      mem_billIndex := by
        intro billId charge hcharge
        simp [books, bill, empty] at hcharge }
  sorted := fun _ => List.Pairwise.nil

theorem liveExact_empty : empty.LiveExact := by
  intro orderId
  simp [empty, staysLive, lineIdsForOrder]

theorem billsPlaced_empty : empty.BillsPlaced := by
  intro orderId billId hmem
  simp [empty, billIdsForOrder] at hmem

/-- After any updates each order's index is in order, lists no line twice, and lists just the lines
    that name the order. Where bills are kept on their orders and no receipt is kept for a voided
    bill, the live orders are just those that owe. -/
theorem indexes_follow_updates (updates : List ProjectionUpdate) :
    (∀ P, Updates (fun _ _ => True) .empty updates P →
      ∀ orderId ids, P.orderLines[orderId]? = some ids → ids.Pairwise (· < ·) ∧
        ∀ lineId, lineId ∈ ids ↔ ∃ record, P.line lineId = some record ∧ record.orderId = orderId) ∧
    ∀ P, Updates KeepsBills .empty updates P → ∀ orderId, orderId ∈ P.live ↔ P.Owes orderId := by
  constructor
  · intro P hrun orderId ids hids
    have hindexed : P.LinesIndexed := by
      refine hrun.invariant (I := LinesIndexed) ?_ linesIndexed_empty
      intro Q update Q' hQ _ hstep
      cases hstep
      exact hQ.update update
    have hread : P.lineIdsForOrder orderId = ids := by
      unfold lineIdsForOrder
      rw [hids]
      rfl
    rw [← hread]
    exact ⟨hindexed.sorted orderId, fun lineId => hindexed.mem_iff⟩
  · intro P hrun orderId
    have hexact : P.LinesIndexed ∧ P.BillsPlaced ∧ P.LiveExact := by
      refine hrun.invariant (I := fun P => P.LinesIndexed ∧ P.BillsPlaced ∧ P.LiveExact) ?_
        ⟨linesIndexed_empty, billsPlaced_empty, liveExact_empty⟩
      rintro Q update Q' ⟨hlines, hplaced, hlive⟩ hkeeps hstep
      cases hstep
      exact ⟨hlines.update update, hplaced.update hkeeps, hlive.update hplaced hkeeps⟩
    obtain ⟨hlines, _, hlive⟩ := hexact
    rw [hlive orderId, staysLive_iff hlines]

end Projection

/-! ## Updates that no command makes -/

def sampleLineOf (orderId : OrderId) : LineRecord where
  orderId := orderId
  state := .added
  menuItemId := ⟨1⟩
  displayName := ⟨"tea"⟩
  quantity := .zero
  seat := none
  courseId := none
  unitPrice := .zero .vnd
  lineTotal := .zero .vnd
  taxClassId := ⟨1⟩
  modifierMenuItemIds := []
  modifierDisplayNames := []
  firedTime := none
  stationId := none
  notePresent := false

def sampleBillOf (orderId : OrderId) : BillRecord where
  orderId := orderId
  tableId := none
  state := .open
  orderLineIds := []
  discount := none
  comp := none
  feeRules := []
  feeWholes := []
  waivedFeeIds := []

def sampleReceipt : SettledReceipt where
  receiptNumber := 1
  subtotal := .zero .vnd
  reductionTotal := .zero .vnd
  serviceCharge := .zero .vnd
  taxTotal := .zero .vnd
  roundingAdjustment := .zero .vnd
  totalDue := .zero .vnd
  feeLines := []
  taxLines := []
  buyerSubjectId := none
  businessDate := ⟨0⟩
  settleTime := ⟨0⟩
  copies := 0

/-- A receipt kept for a bill that was voided. -/
def receiptAfterVoid : List ProjectionUpdate :=
  [.addLine ⟨1⟩ (sampleLineOf ⟨1⟩), .openBillRecord ⟨1⟩ (sampleBillOf ⟨1⟩), .voidBillRecord ⟨1⟩,
    .recordSettled ⟨1⟩ sampleReceipt]

/-- A bill that was paid is opened for another order. -/
def billOnTwoOrders : List ProjectionUpdate :=
  [.addLine ⟨1⟩ (sampleLineOf ⟨1⟩), .openBillRecord ⟨1⟩ (sampleBillOf ⟨1⟩), .settleBillRecord ⟨1⟩,
    .openBillRecord ⟨1⟩ (sampleBillOf ⟨2⟩)]

namespace Projection

/-- The projection after some updates. -/
def after (updates : List ProjectionUpdate) : Projection := updates.foldl update .empty

/-- The first leaves an order live that does not owe; the second leaves one that owes off the
    list. -/
theorem live_orders_left_behind :
    (⟨1⟩ ∈ (after receiptAfterVoid).live ∧ ¬ (after receiptAfterVoid).Owes ⟨1⟩) ∧
    ⟨1⟩ ∉ (after billOnTwoOrders).live ∧ (after billOnTwoOrders).Owes ⟨1⟩ := by
  refine ⟨⟨by decide +kernel, ?_⟩, by decide +kernel, ?_⟩
  · rintro ⟨_, _, _, _, hnot⟩
    exact hnot ⟨by decide +kernel, ⟨1⟩, by decide +kernel⟩
  · refine
      ⟨⟨⟨1⟩, sampleLineOf ⟨1⟩, by decide +kernel⟩, by decide +kernel, by decide +kernel, ?_, ?_⟩
    · intro billId hbill
      have hsome : (after billOnTwoOrders).billForOrder ⟨1⟩ = some ⟨1⟩ := by decide +kernel
      obtain rfl := Option.some.inj (hsome.symm.trans hbill)
      decide +kernel
    · rintro ⟨hnone, _⟩
      exact absurd hnone (by decide +kernel)

/-- A bill that is voided before it is paid leaves its order owing. -/
theorem indexes_follow_updates_voided :
    let updates : List ProjectionUpdate := [.addLine ⟨1⟩ (sampleLineOf ⟨1⟩),
      .openBillRecord ⟨1⟩ (sampleBillOf ⟨1⟩), .voidBillRecord ⟨1⟩]
    (∀ ids, (after updates).orderLines[(⟨1⟩ : OrderId)]? = some ids → ids.Pairwise (· < ·)) ∧
    (⟨1⟩ ∈ (after updates).live ↔ (after updates).Owes ⟨1⟩) := by
  intro updates
  refine ⟨?_, ?_⟩
  · intro ids hids
    exact ((indexes_follow_updates updates).1 _
      (run_of_allAllowed ⟨trivial, trivial, trivial, trivial⟩) _ ids hids).1
  · refine (indexes_follow_updates updates).2 _ (run_of_allAllowed ⟨trivial, ?_, trivial,
      trivial⟩) ⟨1⟩
    intro held hheld
    simp [update, addLine, empty, bill, line, indexLine, refreshLive] at hheld

end Projection

end PosFramework
