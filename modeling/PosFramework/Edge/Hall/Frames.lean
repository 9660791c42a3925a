import PosFramework.Edge.Frames
import PosFramework.Edge.Hall

set_option autoImplicit false

/-! # What the projection's operations do to the hall

The hall a projection shows, and for each operation what it changes of it. The orders on the boards
are not part of the hall; that none of them has ended is kept beside it, since a rejected order's
table goes back to one of them. -/

namespace PosFramework

open Fallible Keyed Projection Hall Function List

def BillRecord.tab (bill : BillRecord) : Tab := ⟨bill.orderId, bill.tableId, bill.state⟩

namespace Projection

/-- The hall of a projection. -/
def hall (P : Projection) : Hall where
  state := P.tableState
  order := P.orderForTable
  place := fun orderId => (P.orderOrigin orderId).map (·.tableId)
  ended := { orderId | orderId ∈ P.closedOrders }
  refused := { orderId | P.staffDecision orderId = some .rejected }
  tab := fun billId => (P.bill billId).map BillRecord.tab

variable {P P' : Projection}

/-! ## Orders on the boards -/

/-- An order is neither closed nor refused. -/
def Trades (P : Projection) (orderId : OrderId) : Prop :=
  orderId ∉ P.closedOrders ∧ P.staffDecision orderId ≠ some .rejected

/-- Every order on the boards trades. -/
def LiveTrades (P : Projection) : Prop := ∀ orderId ∈ P.live, P.Trades orderId

variable {orderId : OrderId} {tableId : TableId} {channel : Option SalesChannel}
  {lineId : OrderLineId} {billId : BillId}

/-- Refreshing an order keeps the others and checks it. -/
theorem liveTrades_refreshLive (h : ∀ other ∈ P.live, other ≠ orderId → P.Trades other) :
    (P.refreshLive orderId).LiveTrades := by
  intro other hother
  by_cases heq : other = orderId
  · subst heq
    by_cases hstays : P.staysLive other = true
    · simp only [staysLive, Bool.and_eq_true, Bool.not_eq_true', decide_eq_false_iff_not,
        Bool.or_eq_false_iff] at hstays
      exact ⟨hstays.2.1, hstays.1.2⟩
    · simp only [refreshLive, if_neg hstays, mem_erase] at hother
      exact absurd rfl hother.1
  · refine h other ?_ heq
    simp only [refreshLive] at hother
    split at hother
    · exact ((mem_insert ..).1 hother).resolve_left (Ne.symm heq)
    · exact ((mem_erase ..).1 hother).2

theorem LiveTrades.congr (h : P.LiveTrades) (hlive : P'.live = P.live)
    (hclosed : P'.closedOrders = P.closedOrders) (hstaff : P'.staffDecisions = P.staffDecisions) :
    P'.LiveTrades := by
  intro orderId horder
  rw [hlive] at horder
  obtain ⟨hopen, hnot⟩ := h orderId horder
  exact ⟨hclosed ▸ hopen, by rwa [staffDecision, hstaff]⟩

/-- Refreshing an order keeps the boards right, where nothing that ends an order changed. -/
theorem LiveTrades.refreshed (h : P.LiveTrades) (hlive : P'.live = P.live)
    (hclosed : P'.closedOrders = P.closedOrders) (hstaff : P'.staffDecisions = P.staffDecisions) :
    (P'.refreshLive orderId).LiveTrades :=
  liveTrades_refreshLive fun other hother _ => h.congr hlive hclosed hstaff other hother

theorem LiveTrades.addLine (h : P.LiveTrades) (lineId : OrderLineId) (record : LineRecord) :
    (P.addLine lineId record).LiveTrades := by
  unfold Projection.addLine
  split
  · exact h.refreshed rfl rfl rfl
  · split
    · exact h.refreshed rfl rfl rfl
    next previous _ _ =>
      -- the order the line was on is refreshed first
      have hprevious : (refreshLive
          ((({ P with lines := P.lines.insert lineId record } : Projection).unindexLine previous
            lineId).indexLine record.orderId lineId) previous).LiveTrades := h.refreshed rfl rfl rfl
      exact hprevious.refreshed rfl rfl rfl

theorem LiveTrades.addLines (h : P.LiveTrades) (entries : List (OrderLineId × LineRecord)) :
    (entries.foldl (fun P entry => P.addLine entry.1 entry.2) P).LiveTrades := by
  induction entries generalizing P with
  | nil => exact h
  | cons first rest ih => exact ih (h.addLine first.1 first.2)

theorem LiveTrades.updateLine (h : P.LiveTrades) (lineId : OrderLineId)
    (change : LineRecord → LineRecord) : (P.updateLine lineId change).LiveTrades := by
  unfold Projection.updateLine
  split
  · exact h
  · exact h.refreshed rfl rfl rfl

theorem LiveTrades.fired (h : P.LiveTrades) (now : Timestamp) (fired : List Env.FiredLine) :
    (fired.foldl (Env.applyFired now) P).LiveTrades := by
  induction fired generalizing P with
  | nil => exact h
  | cons first rest ih => exact ih ((h.updateLine _ _).updateLine _ _)

theorem LiveTrades.openBillRecord (h : P.LiveTrades) (billId : BillId) (record : BillRecord) :
    (P.openBillRecord billId record).LiveTrades :=
  h.refreshed rfl rfl rfl

theorem LiveTrades.setBillState (h : P.LiveTrades) (billId : BillId) (state : BillState) :
    (P.setBillState billId state).LiveTrades := by
  unfold Projection.setBillState
  split
  · exact h
  · exact h.refreshed rfl rfl rfl

/-- An order that closes takes nothing else off its trade. -/
theorem Trades.close {other : OrderId} (h : P.Trades other) (hne : other ≠ orderId)
    (hclosed : P'.closedOrders = P.closedOrders.insert orderId)
    (hstaff : P'.staffDecisions = P.staffDecisions) : P'.Trades other := by
  refine ⟨?_, ?_⟩
  · rw [hclosed, mem_insert]
    exact fun hor => hor.elim (fun heq => hne heq.symm) h.1
  · rw [staffDecision, hstaff]
    exact h.2

theorem LiveTrades.closeOrder (h : P.LiveTrades) (orderId : OrderId) :
    (P.closeOrder orderId).LiveTrades := by
  obtain ⟨tableOrders, heq⟩ :=
    clearTableOf_eq { P with closedOrders := P.closedOrders.insert orderId } orderId
  rw [Projection.closeOrder, heq]
  exact liveTrades_refreshLive fun other hother hne => (h other hother).close hne rfl rfl

theorem LiveTrades.mergeOrder (h : P.LiveTrades) (target merged : OrderId) :
    (P.mergeOrder target merged).LiveTrades := by
  obtain ⟨tableOrders, heq⟩ := repointTable_eq
    ((P.readdressLines (P.lineIdsForOrder merged) target).joinIndexes target merged) target merged
  unfold Projection.mergeOrder
  dsimp only
  rw [heq]
  split
  · exact h
  · have hmerged : (refreshLive
        { (P.readdressLines (P.lineIdsForOrder merged) target).joinIndexes target merged with
          tableOrders := tableOrders
          closedOrders := P.closedOrders.insert merged } merged).LiveTrades :=
      liveTrades_refreshLive fun other hother hne => (h other hother).close hne rfl rfl
    exact hmerged.refreshed rfl rfl rfl

/-- What staff decided on an order, and its place on the boards. -/
def decided (P : Projection) (orderId : OrderId) (decision : StaffDecision) : Projection :=
  ({ P with staffDecisions := P.staffDecisions.insert orderId decision }).refreshLive orderId

theorem LiveTrades.decided (h : P.LiveTrades) (orderId : OrderId) (decision : StaffDecision) :
    (P.decided orderId decision).LiveTrades := by
  refine liveTrades_refreshLive fun other hother hne => ⟨(h other hother).1, ?_⟩
  rw [staffDecision, get_insert, if_neg (Ne.symm hne)]
  exact (h other hother).2

theorem recordStaffDecision_rejected :
    P.recordStaffDecision orderId .rejected =
      match (P.decided orderId .rejected).tableForOrder orderId with
      | some tableId => (P.decided orderId .rejected).giveTableBack tableId
      | none => P.decided orderId .rejected := rfl

theorem LiveTrades.recordStaffDecision (h : P.LiveTrades) (orderId : OrderId)
    (decision : StaffDecision) : (P.recordStaffDecision orderId decision).LiveTrades := by
  have hdecided := h.decided orderId decision
  cases decision with
  | confirmed => exact hdecided
  | rejected =>
    rw [recordStaffDecision_rejected]
    split
    next tableId _ =>
      obtain ⟨tables, tableOrders, heq⟩ :=
        giveTableBack_eq (P.decided orderId .rejected) tableId
      rw [heq]
      exact hdecided.congr rfl rfl rfl
    next => exact hdecided

/-! ## Operations that leave the hall -/

theorem SameFaces.hall_eq (h : P.SameFaces P') : P'.hall = P.hall := by
  have htab := funext (h.read_eq BillRecord.tab fun _ => rfl)
  obtain ⟨bills, rfl, _⟩ := h
  exact Hall.ext rfl rfl rfl rfl rfl htab

theorem SameFaces.liveTrades (h : P.SameFaces P') (hlive : P.LiveTrades) : P'.LiveTrades := by
  obtain ⟨_, rfl, _⟩ := h
  exact hlive.congr rfl rfl rfl

theorem TakingsOnly.hall_eq (h : P.TakingsOnly P') : P'.hall = P.hall := by
  obtain ⟨_, _, _, rfl⟩ := h
  rfl

theorem TakingsOnly.liveTrades (h : P.TakingsOnly P') (hlive : P.LiveTrades) : P'.LiveTrades := by
  obtain ⟨_, _, _, rfl⟩ := h
  exact hlive.congr rfl rfl rfl

theorem hall_addLine {record : LineRecord} : (P.addLine lineId record).hall = P.hall := by
  unfold addLine
  split
  · rfl
  · split <;> rfl

theorem hall_addLines {entries : List (OrderLineId × LineRecord)} :
    (entries.foldl (fun P entry => P.addLine entry.1 entry.2) P).hall = P.hall := by
  induction entries generalizing P with
  | nil => rfl
  | cons first rest ih => exact ih.trans hall_addLine

theorem hall_updateLine {change : LineRecord → LineRecord} :
    (P.updateLine lineId change).hall = P.hall := by
  unfold updateLine
  split <;> rfl

theorem hall_fired {now : Timestamp} {fired : List Env.FiredLine} :
    (fired.foldl (Env.applyFired now) P).hall = P.hall := by
  induction fired generalizing P with
  | nil => rfl
  | cons first rest ih => exact ih.trans (hall_updateLine.trans hall_updateLine)

/-! ## Tables -/

theorem hall_setTable {state : TableState} :
    (P.setTable tableId state).hall = P.hall.setState tableId state := by
  have hstate := read_eq_update P.tables (·.getD .free) (get_insert _ tableId · state)
  exact Hall.ext hstate rfl rfl rfl rfl rfl

theorem hall_openOrder :
    (P.openOrder tableId orderId).hall = P.hall.point tableId (some orderId) := by
  have horder := read_eq_update P.tableOrders id (get_insert _ tableId · orderId)
  exact Hall.ext rfl horder rfl rfl rfl rfl

theorem hall_clearTable : (P.clearTable tableId).hall = P.hall.point tableId none := by
  have horder := read_eq_update P.tableOrders id (get_erase _ tableId)
  exact Hall.ext rfl horder rfl rfl rfl rfl

theorem hall_openOrderOrigin {tableId : Option TableId} :
    (P.openOrderOrigin orderId channel tableId).hall = P.hall.put orderId tableId := by
  have hplace := read_eq_update P.orders (Option.map (·.tableId))
    (get_insert P.orders orderId · ⟨channel, tableId⟩)
  exact Hall.ext rfl rfl hplace rfl rfl rfl

theorem hall_seat :
    (((P.setTable tableId .occupied).openOrder tableId orderId).openOrderOrigin orderId channel
      (some tableId)).hall = P.hall.seat tableId orderId := by
  rw [hall_openOrderOrigin, hall_openOrder, hall_setTable]
  rfl

/-! ## The table of an order -/

theorem orderForTable_of_tableForOrder (h : P.tableForOrder orderId = some tableId) :
    P.orderForTable tableId = some orderId := by
  obtain ⟨other, hother, heq⟩ := exists_of_findKey_eq_some h
  rw [of_decide_eq_true heq] at hother
  exact hother

theorem tableForOrder_of_orderForTable (hH : P.hall.Placed)
    (h : P.orderForTable tableId = some orderId) : P.tableForOrder orderId = some tableId := by
  refine findKey_of_unique h (decide_eq_true rfl) fun other order hother heq => ?_
  rw [of_decide_eq_true heq] at hother
  exact hH.table_eq hother h

theorem tableForOrder_eq_some_iff (hH : P.hall.Placed) :
    P.tableForOrder orderId = some tableId ↔ P.hall.order tableId = some orderId :=
  ⟨orderForTable_of_tableForOrder, tableForOrder_of_orderForTable hH⟩

theorem orderForTable_ne_of_tableForOrder (hH : P.hall.Placed) (h : P.tableForOrder orderId = none)
    (tableId : TableId) :
    P.orderForTable tableId ≠ some orderId := by
  intro horder
  rw [tableForOrder_of_orderForTable hH horder] at h
  contradiction

/-- A table, where there is one, points at another order or at none. -/
def repointed (order : TableId → Option OrderId) (next : Option OrderId) :
    Option TableId → TableId → Option OrderId
  | some tableId => Function.update order tableId next
  | none => order

/-- The table that points at an order is its only one. -/
theorem repointed_eq {H : Hall} {table : Option TableId} {next : Option OrderId} (hH : H.Placed)
    (htable : ∀ tableId, table = some tableId ↔ H.order tableId = some orderId) :
    repointed H.order next table =
      fun other => if H.order other = some orderId then next else H.order other := by
  funext other
  cases table with
  | none => rw [repointed, if_neg fun hother => nomatch (htable other).2 hother]
  | some tableId =>
    have hpoints := (htable tableId).1 rfl
    rw [repointed, update_apply]
    split
    · next heq =>
      rw [heq, if_pos hpoints]
    · next heq =>
      rw [if_neg fun hother => heq (hH.table_eq hother hpoints)]

/-! ## Orders that end -/

theorem orderForTable_clearTableOf :
    (P.clearTableOf orderId).orderForTable =
      repointed P.orderForTable none (P.tableForOrder orderId) := by
  unfold clearTableOf
  cases P.tableForOrder orderId with
  | none => rfl
  | some => exact congrArg order hall_clearTable

theorem orderForTable_repointTable {target merged : OrderId} :
    (P.repointTable target merged).orderForTable =
      repointed P.orderForTable (some target) (P.tableForOrder merged) := by
  unfold repointTable
  cases P.tableForOrder merged with
  | none => rfl
  | some => exact congrArg order hall_openOrder

theorem mem_insert_closed (closed : Std.ExtTreeSet OrderId) (orderId : OrderId) :
    { other | other ∈ closed.insert orderId } = insert orderId { other | other ∈ closed } := by
  ext other
  simp only [Set.mem_ofPred_eq, mem_insert, Set.mem_insert_iff, eq_comm]

theorem hall_closeOrder (hH : P.hall.Placed) :
    (P.closeOrder orderId).hall = P.hall.finish orderId := by
  let Q : Projection := { P with closedOrders := P.closedOrders.insert orderId }
  have horder : (Q.clearTableOf orderId).orderForTable = (P.hall.finish orderId).order :=
    orderForTable_clearTableOf.trans (repointed_eq hH fun _ => tableForOrder_eq_some_iff hH)
  obtain ⟨tableOrders, heq⟩ := clearTableOf_eq Q orderId
  rw [heq] at horder
  show (refreshLive (Q.clearTableOf orderId) orderId).hall = _
  rw [heq]
  exact Hall.ext rfl horder rfl (mem_insert_closed _ _) rfl rfl

theorem hall_mergeOrder {target merged : OrderId} (hH : P.hall.Placed) (hne : target ≠ merged) :
    (P.mergeOrder target merged).hall = P.hall.join target merged := by
  let Q := (P.readdressLines (P.lineIdsForOrder merged) target).joinIndexes target merged
  have horder : (Q.repointTable target merged).orderForTable = (P.hall.join target merged).order :=
    orderForTable_repointTable.trans (repointed_eq hH fun _ => tableForOrder_eq_some_iff hH)
  obtain ⟨tableOrders, heq⟩ := repointTable_eq Q target merged
  rw [heq] at horder
  unfold mergeOrder
  rw [if_neg hne]
  show (refreshLive (refreshLive
    { Q.repointTable target merged with
      closedOrders := (Q.repointTable target merged).closedOrders.insert merged } merged)
        target).hall = _
  rw [heq]
  exact Hall.ext rfl horder rfl (mem_insert_closed _ _) rfl rfl

/-- Where an order moves to another table. -/
theorem hall_transfer {fromTableId toTableId : TableId} (hH : P.hall.Placed)
    (horder : P.orderForTable fromTableId = some orderId) :
    (((P.setTable fromTableId .needsCleaning).setTable toTableId .occupied).moveOrder orderId
      fromTableId toTableId).hall =
      ((P.hall.setState fromTableId .needsCleaning).point fromTableId none).seat toTableId
        orderId := by
  let Q := (P.setTable fromTableId .needsCleaning).setTable toTableId .occupied
  have hpoints : Q.orderForTable fromTableId = some orderId := horder
  obtain ⟨origin, horigin, _⟩ := Option.map_eq_some_iff.1 (hH _ _ horder)
  have hplace := read_eq_update P.orders (Option.map (·.tableId)) (get_modify _ orderId ·
    fun origin : OrderOrigin => { origin with tableId := some toTableId })

  rw [show P.orders[orderId]? = some origin from horigin] at hplace

  have hstate : Q.hall =
      (P.hall.setState fromTableId .needsCleaning).setState toTableId .occupied :=
    hall_setTable.trans (congrArg (setState · toTableId .occupied) hall_setTable)
  have hseated : ((Q.clearTable fromTableId).openOrder toTableId orderId).hall =
      (((P.hall.setState fromTableId .needsCleaning).setState toTableId .occupied).point fromTableId
        none).point toTableId (some orderId) := by
    rw [hall_openOrder, hall_clearTable, hstate]
  have hstates : ((Q.clearTable fromTableId).openOrder toTableId orderId).tableState = _ :=
    congrArg state hseated
  have horders : ((Q.clearTable fromTableId).openOrder toTableId orderId).orderForTable = _ :=
    congrArg order hseated
  show (moveOrder Q orderId fromTableId toTableId).hall = _
  simp only [moveOrder, if_pos hpoints]
  exact Hall.ext hstates horders hplace rfl rfl rfl

/-! ## Decisions of staff -/

theorem hall_decided_confirmed (hnone : P.staffDecision orderId = none) :
    (P.decided orderId .confirmed).hall = P.hall := by
  refine Hall.ext rfl rfl rfl rfl (Set.ext fun other => ?_) rfl
  show (P.staffDecisions.insert orderId .confirmed)[other]? = some .rejected ↔
    P.staffDecision other = some .rejected
  rw [get_insert]
  split
  · next heq =>
    rw [← heq, hnone]
    decide
  · rfl

theorem hall_decided_rejected : (P.decided orderId .rejected).hall = P.hall.refuse orderId := by
  refine Hall.ext rfl rfl rfl rfl (Set.ext fun other => ?_) rfl
  show (P.staffDecisions.insert orderId .rejected)[other]? = some .rejected ↔
    other = orderId ∨ P.staffDecision other = some .rejected
  rw [get_insert]
  split
  · next heq =>
    exact ⟨fun _ => .inl heq.symm, fun _ => rfl⟩
  · next heq =>
    exact ⟨.inr, fun hor => hor.resolve_left (Ne.symm heq)⟩

/-- A table is given back to an order of the boards that is there, or to none. -/
theorem hall_giveTableBack :
    ∃ back state, (P.giveTableBack tableId).hall =
      (P.hall.point tableId back).setState tableId state ∧
      ∀ other, back = some other → other ∈ P.live ∧ P.hall.place other = some (some tableId) := by
  unfold giveTableBack
  cases hdisplaced : P.displacedAt tableId with
  | some other =>
    refine ⟨some other, _, hall_setTable.trans (congrArg (setState · _ _) hall_openOrder), ?_⟩
    rintro _ ⟨⟩
    have hlive := mem_of_find?_eq_some hdisplaced
    have hat : P.isAtTable tableId other = true := find?_some hdisplaced
    obtain ⟨origin, horigin, hthere⟩ := (Option.any_eq_true _ _).1 hat
    refine ⟨Std.ExtTreeSet.mem_toList.1 (mem_reverse.1 hlive), ?_⟩
    show (P.orderOrigin other).map _ = _
    rw [horigin]
    exact congrArg some (of_decide_eq_true hthere)
  | none =>
    refine ⟨none, if (P.clearTable tableId).tableState tableId = .occupied then .free
      else P.hall.state tableId, ?_, fun _ h => nomatch h⟩
    by_cases hstate : (P.clearTable tableId).tableState tableId = .occupied
    · simp only [if_pos hstate]
      exact hall_setTable.trans (congrArg (setState · _ _) hall_clearTable)
    · simp only [if_neg hstate]
      refine hall_clearTable.trans (Hall.ext ?_ rfl rfl rfl rfl rfl)
      exact (update_eq_self tableId P.hall.state).symm

/-! ## Bills -/

theorem hall_openBillRecord {record : BillRecord} :
    (P.openBillRecord billId record).hall = P.hall.issue billId record.tab := by
  have htab := read_eq_update P.bills (Option.map BillRecord.tab)
    (get_insert _ billId · record)
  exact Hall.ext rfl rfl rfl rfl rfl htab

theorem hall_setBillState {state : BillState} :
    (P.setBillState billId state).hall = P.hall.restateAll [billId] state := by
  have htab : (fun other => ((P.setBillState billId state).bill other).map BillRecord.tab) =
      (P.hall.restateAll [billId] state).tab := by
    funext other
    unfold setBillState
    cases hbill : P.bill billId with
    | none =>
      simp only [restateAll, mem_singleton]
      split
      · next heq =>
        rw [heq]
        show _ = Option.map _ ((P.bill billId).map BillRecord.tab)
        rw [hbill]
        rfl
      · rfl
    | some =>
      simp only [restateAll, mem_singleton]
      show ((P.bills.modify billId _)[other]?).map BillRecord.tab = _
      rw [get_modify]
      by_cases heq : billId = other
      · subst heq
        rw [if_pos rfl, if_pos rfl]
        show Option.map _ (Option.map _ (P.bill billId)) = Option.map _ ((P.bill billId).map _)
        rw [hbill]
        rfl
      · rw [if_neg heq, if_neg (Ne.symm heq)]
        rfl
  unfold setBillState at htab ⊢
  cases hbill : P.bill billId with
  | none =>
    rw [hbill] at htab
    exact Hall.ext rfl rfl rfl rfl rfl htab
  | some =>
    rw [hbill] at htab
    exact Hall.ext rfl rfl rfl rfl rfl htab

end Projection

end PosFramework
