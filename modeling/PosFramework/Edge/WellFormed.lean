import PosFramework.Edge.Frames
import PosFramework.Edge.Ledger.Steps
import PosFramework.Edge.Outcomes.Bills
import PosFramework.Edge.Outcomes.Orders
import PosFramework.Edge.Outcomes.Shifts

set_option autoImplicit false

/-! # The edge keeps its ledger

Every command that is taken does to the ledger what its row in `Ledger.Step` says, and leaves the
books in order. The ids a command takes are new, which is what keeps a new line, bill or order apart
from those there are. -/

namespace PosFramework

open Fallible Projection Env List LineRecord

/-- A projection whose books are in order and whose ids were all taken before `bound`. -/
structure Projection.WellFormed (P : Projection) (bound : Nat) : Prop where
  floor : P.floor.Below bound
  books : P.books.Below bound
  indexed : P.books.Indexed
  sound : P.ledger.Sound

/-- What a command leaves: the books in order, and the ledger one step on. -/
structure Accounted (command : Command) (bound : Nat) (P P' : Projection) : Prop where
  floor : P'.floor.Below bound
  books : P'.books.Below bound
  indexed : P'.books.Indexed
  step : P.ledger.Step command P'.ledger

theorem Accounted.wellFormed {command : Command} {bound bound' : Nat} {P P' : Projection}
    (h : Accounted command bound' P P') (hP : P.WellFormed bound) : P'.WellFormed bound' :=
  ⟨h.floor, h.books, h.indexed, h.step.sound hP.sound⟩

/-- The ids a command takes: new, in order, and gone once they are taken. -/
structure TakesIds (ids : Nat → Nat) (bound taken bound' : Nat) : Prop where
  increasing : StrictMono ids
  new : ∀ i, bound ≤ ids i
  gone : ∀ i < taken, ids i < bound'
  le : bound ≤ bound'

namespace Projection

variable {P P' : Projection} {bound : Nat}

/-! ## Reading the ledger -/

theorem charge_ledger (billId : BillId) :
    P.ledger.charge billId = (P.bill billId).map BillRecord.charge := rfl

theorem sale_ledger (lineId : OrderLineId) :
    P.ledger.sale lineId = (P.line lineId).map sale := rfl

variable {billId : BillId} {record : BillRecord} {orderId : OrderId} {id : Nat}
  {lineId : OrderLineId}

theorem charge_of_bill (h : P.bill billId = some record) :
    P.ledger.charge billId = some record.charge := by
  rw [charge_ledger, h]
  rfl

theorem sale_of_line {record : LineRecord} (h : P.line lineId = some record) :
    P.ledger.sale lineId = some record.sale := by
  rw [sale_ledger, h]
  rfl

/-- No bill of the order is in the state. -/
theorem latestBillIn_eq_none {state : BillState} (hindexed : P.books.Indexed)
    (h : P.latestBillIn orderId state = none) {charge : Charge}
    (hcharge : P.ledger.charge billId = some charge) (horder : charge.orderId = orderId) :
    charge.state ≠ state := by
  obtain ⟨record, hrecord, rfl⟩ := Option.map_eq_some_iff.1 hcharge
  have hlisted : billId ∈ P.billIdsForOrder orderId :=
    horder ▸ hindexed.mem_billIndex billId record.charge hcharge
  have hnot := find?_eq_none.1 h billId (mem_reverse.2 hlisted)
  intro hstate
  refine hnot ?_
  rw [billIn, hrecord]
  exact decide_eq_true hstate

theorem unbilled_of_billForOrder (hindexed : P.books.Indexed) (h : P.billForOrder orderId = none) :
    P.ledger.Unbilled orderId := by
  obtain ⟨hopen, hsettled⟩ := Option.or_eq_none_iff.1 h
  intro billId charge hcharge hactive horder
  rcases hactive with hstate | hstate
  · exact latestBillIn_eq_none hindexed hopen hcharge horder hstate
  · exact latestBillIn_eq_none hindexed hsettled hcharge horder hstate

theorem mem_soldLineIds (hindexed : P.books.Indexed) :
    lineId ∈ P.soldLineIds orderId ↔
      ∃ sale, P.ledger.sale lineId = some sale ∧ sale.orderId = orderId ∧ sale.sold = true := by
  rw [soldLineIds, mem_filter, Option.any_eq_true]
  have hmem := hindexed.mem_lineIndex orderId lineId
  constructor
  · rintro ⟨hlisted, record, hrecord, hsold⟩
    obtain ⟨record', hrecord', horder⟩ := hmem.1 hlisted
    obtain rfl : record = record' := Option.some.inj (hrecord.symm.trans hrecord')
    exact ⟨record.sale, sale_of_line hrecord, horder, hsold⟩
  · rintro ⟨sale, hsale, horder, hsold⟩
    obtain ⟨record, hrecord, rfl⟩ := Option.map_eq_some_iff.1 hsale
    exact ⟨hmem.2 ⟨record, hrecord, horder⟩, record, hrecord, hsold⟩

theorem nodup_soldLineIds (hindexed : P.books.Indexed) (orderId : OrderId) :
    (P.soldLineIds orderId).Nodup :=
  (hindexed.nodup_lineIndex orderId).filter _

/-- An open or paid bill names the lines it covers. -/
theorem coveredLines_of_active (hP : P.WellFormed bound) (hbill : P.bill billId = some record)
    (hactive : record.charge.Active) :
    P.coveredLines record = record.orderLineIds := by
  have hne : record.orderLineIds ≠ [] :=
    (hP.sound.holds billId _ (charge_of_bill hbill) hactive).nonempty
  rw [coveredLines, if_neg hne]

theorem mem_held_of_bill (hbill : P.bill billId = some record) (hactive : record.charge.Active)
    {line : OrderLineId} :
    line ∈ P.ledger.held billId ↔ line ∈ record.orderLineIds := by
  have hcharge := charge_of_bill hbill
  constructor
  · rintro ⟨charge, hcharge', _, hline⟩
    obtain rfl : record.charge = charge := Option.some.inj (hcharge.symm.trans hcharge')
    exact hline
  · exact fun hline => ⟨record.charge, hcharge, hactive, hline⟩

/-! ## Ids that were not taken -/

theorem line_eq_none_of_le (hP : P.WellFormed bound) (hid : bound ≤ id) : P.line ⟨id⟩ = none := by
  cases hline : P.line ⟨id⟩ with
  | none => rfl
  | some record => exact absurd (hP.books.lines _ record hline).1 (Nat.not_lt.2 hid)

theorem bill_eq_none_of_le (hP : P.WellFormed bound) (hid : bound ≤ id) : P.bill ⟨id⟩ = none := by
  cases hbill : P.bill ⟨id⟩ with
  | none => rfl
  | some =>
    exact absurd (hP.books.charges _ _ (charge_of_bill hbill)).1 (Nat.not_lt.2 hid)

/-- Nothing is on an order whose id was not taken. -/
theorem order_new_of_le (hP : P.WellFormed bound) (hid : bound ≤ id) :
    (∀ line, ¬ P.ledger.On ⟨id⟩ line) ∧ P.ledger.Unbilled ⟨id⟩ := by
  constructor
  · rintro line ⟨sale, hsale, horder⟩
    obtain ⟨record, hrecord, rfl⟩ := Option.map_eq_some_iff.1 hsale
    have hlt : record.orderId.ulid < bound := (hP.books.lines line record hrecord).2
    rw [show record.orderId = ⟨id⟩ from horder] at hlt
    exact Nat.not_lt.2 hid hlt
  · intro billId charge hcharge _ horder
    have hlt := (hP.books.charges billId charge hcharge).2
    rw [horder] at hlt
    exact Nat.not_lt.2 hid hlt

end Projection

variable {P P' : Projection} {bound bound' : Nat} {ids : Nat → Nat} {command : Command}

/-- A command that leaves the books alone leaves the ledger alone. -/
theorem accounted_of_books_eq (hP : P.WellFormed bound) (hle : bound ≤ bound')
    (hquiet : command.leavesLedger = true) (hbooks : P'.books = P.books)
    (hfloor : P'.floor.Below bound') : Accounted command bound' P P' where
  floor := hfloor
  books := hbooks ▸ hP.books.mono hle
  indexed := hbooks ▸ hP.indexed
  step := by
    have hledger : P'.ledger = P.ledger := congrArg Books.ledger hbooks
    rw [hledger]
    exact .quiet hquiet

/-! ## Adding a line -/

variable {lineId : OrderLineId} {record : LineRecord} {orderId target : OrderId} {actor : Actor}
  {now : Timestamp} {fired : FiredLine} {env : Env} {plan : Plan}
  {channel : Option SalesChannel} {tableId : Option TableId} {lines : List (PricedLine × Bool)}
  {entry : OrderLineId × LineRecord} {stationId : Option StationId} {course : Option CourseId}
  {ctx : DecisionCtx} {sale : Sale}

theorem Projection.floor_addLine : (P.addLine lineId record).floor = P.floor := by
  unfold addLine
  split
  · rfl
  · split <;> rfl

theorem Projection.ledger_addLine (hnew : P.line lineId = none) :
    (P.addLine lineId record).ledger = P.ledger.sell lineId record.sale :=
  (congrArg Books.ledger (books_addLine hnew)).trans Books.ledger_addLine

theorem accounted_appendLine {draft : LineDraft} {names : List DisplayName}
    {hasNote : Bool} (hP : P.WellFormed bound) (hids : TakesIds ids bound 2 bound')
    (hcommand : command.addsLine = true) (horder : orderId.ulid < bound)
    (happly : (appendLine ids P ctx orderId draft names hasNote).apply P = .ok P') :
    Accounted command bound' P P' := by
  cases happly
  have hnew : P.line ⟨ids 0⟩ = none := line_eq_none_of_le hP (hids.new 0)
  refine ⟨?_, ?_, ?_, ?_⟩
  · rw [floor_addLine]
    exact hP.floor.mono hids.le
  · rw [books_addLine hnew]
    exact (hP.books.mono hids.le).addLine (hids.gone 0 (by decide)) (horder.trans_le hids.le)
  · rw [books_addLine hnew]
    exact hP.indexed.addLine hnew
  · rw [ledger_addLine hnew]
    refine .addLine hcommand ?_
    rw [sale_ledger, hnew]
    rfl

/-! ## Changing a line -/

/-- A line is written over on its order. -/
theorem accounted_setLine {record' : LineRecord} (hP : P.WellFormed bound) (hle : bound ≤ bound')
    (hline : P.line lineId = some record) (hbooks : P'.books = P.books.setLine lineId record')
    (horder : record'.orderId = record.orderId) (hfloor : P'.floor = P.floor)
    (hstep : P.ledger.Step command (P.ledger.sell lineId record'.sale)) :
    Accounted command bound' P P' where
  floor := hfloor ▸ hP.floor.mono hle
  books := hbooks ▸ (hP.books.mono hle).setLine hline horder
  indexed := hbooks ▸ hP.indexed.setLine hline horder
  step := by
    have hledger : P'.ledger = P.ledger.sell lineId record'.sale :=
      (congrArg Books.ledger hbooks).trans Books.ledger_setLine
    rwa [hledger]

theorem Projection.floor_updateLine {change : LineRecord → LineRecord} :
    (P.updateLine lineId change).floor = P.floor := by
  unfold updateLine
  split <;> rfl

theorem accounted_voidLine {reasonCodeId : ReasonCodeId} {approval : Option Approval}
    (hP : P.WellFormed bound) (hle : bound ≤ bound') (hline : P.line lineId = some record) :
    Accounted (.voidLine actor lineId reasonCodeId approval) bound' P
      (P.setLineState lineId .voided) :=
  accounted_setLine hP hle hline (books_updateLine hline _) rfl
    floor_updateLine (.voidLine (sale_of_line hline))

theorem accounted_setLineQuantity {quantity : Quantity} {lineTotal : Money}
    (hP : P.WellFormed bound) (hle : bound ≤ bound') (hline : P.line lineId = some record)
    (htotal : record.unitPrice.mulQuantity quantity .halfUp = .ok lineTotal) :
    Accounted (.setLineQuantity actor lineId quantity) bound' P
      (P.setLineQuantity lineId quantity lineTotal) :=
  accounted_setLine hP hle hline (books_setLineQuantity hline) rfl rfl
    (.setLineQuantity (sale_of_line hline) htotal)

/-! ## Firing -/

/-- The books and the floor stay in order, and the ledger as it is. -/
structure SameLedger (bound : Nat) (P P' : Projection) : Prop where
  floor : P'.floor = P.floor
  books : P'.books.Below bound
  indexed : P'.books.Indexed
  ledger : P'.ledger = P.ledger

theorem Ledger.sell_self {L : Ledger} {line : OrderLineId}
    (h : L.sale line = some sale) : L.sell line sale = L := by
  rw [Ledger.sell, ← h, Function.update_eq_self]

theorem Projection.books_applyFired (hline : P.line fired.orderLineId = some record) :
    (applyFired now P fired).books = P.books.setLine fired.orderLineId
      { record with
        state := fired.nextState, firedTime := some now, stationId := some fired.stationId } := by
  have hfirst := books_updateLine hline fun record =>
    { record with state := fired.nextState }
  have hline' : (P.setLineState fired.orderLineId fired.nextState).line fired.orderLineId =
      some { record with state := fired.nextState } := by
    show (P.setLineState _ _).books.lines[_]? = _
    rw [setLineState, hfirst, Books.setLine, Keyed.get_insert, if_pos rfl]
  rw [applyFired, setFiredTime, books_updateLine hline',
    Projection.setLineState, hfirst, Books.setLine, Books.setLine, Keyed.insert_insert_self]
  rfl

/-- A line that is sold is sold once it is fired. -/
theorem sameLedger_applyFired (hbooks : P.books.Below bound)
    (hindexed : P.books.Indexed) (hsale : P.ledger.sale fired.orderLineId = some sale)
    (hsold : sale.sold = true) (hnext : fired.nextState = .fired) :
    SameLedger bound P (applyFired now P fired) := by
  obtain ⟨record, hline, rfl⟩ := Option.map_eq_some_iff.1 hsale
  have heq : (applyFired now P fired).books = _ := books_applyFired hline
  refine ⟨?_, heq ▸ hbooks.setLine hline rfl, heq ▸ hindexed.setLine hline rfl, ?_⟩
  · rw [applyFired, setFiredTime, floor_updateLine, setLineState,
      floor_updateLine]
  · rw [ledger, heq, Books.ledger_setLine]
    refine Ledger.sell_self (hsale.trans (congrArg some ?_))
    simp only [sale, isSold, hnext, Sale.mk.injEq, true_and]
    exact hsold

theorem sameLedger_fired {fired : List FiredLine} (hbooks : P.books.Below bound)
    (hindexed : P.books.Indexed) (hfired : ∀ line ∈ fired, line.nextState = .fired ∧
      ∃ sale, P.ledger.sale line.orderLineId = some sale ∧ sale.sold = true) :
    SameLedger bound P (fired.foldl (applyFired now) P) := by
  induction fired generalizing P with
  | nil => exact ⟨rfl, hbooks, hindexed, rfl⟩
  | cons first rest ih =>
    obtain ⟨hnext, sale, hsale, hsold⟩ := hfired first mem_cons_self
    have hone : SameLedger bound P (applyFired now P first) :=
      sameLedger_applyFired hbooks hindexed hsale hsold hnext
    have hrest := ih hone.books hone.indexed fun line hline =>
      hone.ledger ▸ hfired line (mem_cons_of_mem _ hline)
    exact ⟨hrest.floor.trans hone.floor, hrest.books, hrest.indexed,
      hrest.ledger.trans hone.ledger⟩

theorem SameLedger.accounted (h : SameLedger bound' P P') (hP : P.WellFormed bound)
    (hle : bound ≤ bound') (hquiet : command.leavesLedger = true) :
    Accounted command bound' P P' where
  floor := h.floor ▸ hP.floor.mono hle
  books := h.books
  indexed := h.indexed
  step := by
    rw [h.ledger]
    exact .quiet hquiet

/-- What a decided firing says of its line. -/
theorem sold_of_decideFire
    (hline : P.line entry.1 = some entry.2)
    (h : env.decideFire ctx stationId course entry = .ok fired) :
    fired.nextState = .fired ∧
      ∃ sale, P.ledger.sale fired.orderLineId = some sale ∧ sale.sold = true := by
  obtain ⟨hid, _, hstate, hnext⟩ := decideFire_ok h
  refine ⟨hnext, entry.2.sale, ?_, decide_eq_true hstate⟩
  rw [hid]
  exact sale_of_line hline

theorem accounted_fireUnsent
    (hP : P.WellFormed bound) (hle : bound ≤ bound') (hquiet : command.leavesLedger = true)
    (hplan : env.fireUnsent ids P actor orderId stationId course = .ok plan)
    (happly : plan.apply P = .ok P') : Accounted command bound' P P' := by
  obtain ⟨ctx, fired, _, hfired, rfl⟩ := fireUnsent_ok hplan
  cases happly
  refine (sameLedger_fired (hP.books.mono hle) hP.indexed fun line hline => ?_).accounted
    hP hle hquiet
  obtain ⟨entry, hentry, hdecide⟩ := exists_of_mem_mapM hfired hline
  refine sold_of_decideFire ?_ hdecide
  -- an unsent line is one of the order's
  have hlisted : entry ∈ P.identifiedLinesForOrder orderId :=
    mem_of_mem_filter (mem_of_mem_filter hentry)
  obtain ⟨id, _, hid⟩ := mem_filterMap.1 hlisted
  obtain ⟨record, hrecord, rfl⟩ := Option.map_eq_some_iff.1 hid
  exact hrecord

/-! ## Orders that come in -/

/-- The lines of an order that comes in are written one after another. -/
theorem addLines_accounted {entries : List (OrderLineId × LineRecord)}
    (hbooks : P.books.Below bound) (hindexed : P.books.Indexed)
    (hnew : ∀ entry ∈ entries, P.line entry.1 = none) (hnodup : (entries.map (·.1)).Nodup)
    (hlt : ∀ entry ∈ entries, entry.1.ulid < bound ∧ entry.2.orderId.ulid < bound) :
    let Q := entries.foldl (fun P entry => P.addLine entry.1 entry.2) P
    Q.floor = P.floor ∧ Q.books.Below bound ∧ Q.books.Indexed ∧
      Q.ledger = P.ledger.sellAll (entries.map fun entry => (entry.1, entry.2.sale)) := by
  induction entries generalizing P with
  | nil => exact ⟨rfl, hbooks, hindexed, rfl⟩
  | cons first rest ih =>
    obtain ⟨hfirst, hrest⟩ := nodup_cons.1 hnodup
    have hfree := hnew first mem_cons_self
    have hone : (P.addLine first.1 first.2).books = P.books.addLine first.1 first.2 :=
      books_addLine hfree
    obtain ⟨hid, horder⟩ := hlt first mem_cons_self
    obtain ⟨hfloor, hbelow, hidx, hledger⟩ := ih (P := P.addLine first.1 first.2)
      (hone ▸ hbooks.addLine hid horder) (hone ▸ hindexed.addLine hfree)
      (fun entry hentry => by
        have hne : first.1 ≠ entry.1 := fun heq => hfirst (mem_map.2 ⟨entry, hentry, heq.symm⟩)
        show (P.addLine first.1 first.2).books.lines[entry.1]? = none
        rw [hone, Books.addLine, Keyed.get_insert, if_neg hne]
        exact hnew entry (mem_cons_of_mem _ hentry))
      hrest fun entry hentry => hlt entry (mem_cons_of_mem _ hentry)
    refine ⟨hfloor.trans floor_addLine, hbelow, hidx, hledger.trans ?_⟩
    rw [ledger_addLine hfree]
    rfl

/-- The order a guest's lines join was there before. -/
theorem Projection.joinableOrderAt_lt {session : EdgeSession} {tableId : TableId}
    {excluding : Option OrderId} (hfloor : P.floor.Below bound)
    (h : P.joinableOrderAt session tableId excluding = some target) :
    target.ulid < bound ∧ some target ≠ excluding := by
  have hfound := find?_some h
  simp only [Bool.and_eq_true, decide_eq_true_eq] at hfound
  refine ⟨?_, hfound.1⟩
  rcases mem_append.1 (mem_of_find?_eq_some h) with hmem | hmem
  · exact hfloor.tables tableId target (Option.mem_toList.1 hmem)
  · exact floor_below_isAtTable hfloor (mem_filter.1 hmem).2

theorem Env.orderJoinedOnArrival_lt {holdsForStaff : Bool} (hfloor : P.floor.Below bound)
    (h : env.orderJoinedOnArrival P channel tableId holdsForStaff = some target) :
    target.ulid < bound := by
  unfold orderJoinedOnArrival at h
  split at h
  · obtain ⟨table, _, hjoin⟩ := Option.bind_eq_some_iff.1 h
    exact (joinableOrderAt_lt hfloor hjoin).1
  · contradiction

theorem Env.orderJoinedOnConfirm_some (hfloor : P.floor.Below bound)
    (h : env.orderJoinedOnConfirm P orderId = some target) :
    target.ulid < bound ∧ target ≠ orderId ∧ P.billForOrder orderId = none := by
  unfold orderJoinedOnConfirm at h
  split at h
  next hjoin =>
    obtain ⟨table, _, htarget⟩ := Option.bind_eq_some_iff.1 h
    obtain ⟨hlt, hne⟩ := joinableOrderAt_lt hfloor htarget
    exact ⟨hlt, fun heq => hne (congrArg some heq), hjoin.2⟩
  next => contradiction

/-- Two orders are joined; the one that ends has no bill. -/
theorem mergeOrder_accounted {merged : OrderId} (hfloor : P.floor.Below bound)
    (hbooks : P.books.Below bound) (hindexed : P.books.Indexed) (hne : target ≠ merged)
    (htarget : target.ulid < bound) :
    let Q := P.mergeOrder target merged
    Q.floor.Below bound ∧ Q.books.Below bound ∧ Q.books.Indexed ∧
      Q.ledger = P.ledger.move merged target := by
  have heq := books_mergeOrder (P := P) hne
  exact ⟨floor_below_mergeOrder hfloor htarget,
    heq ▸ hbooks.mergeOrder hindexed htarget, heq ▸ hindexed.mergeOrder hne,
    (congrArg Books.ledger heq).trans (Books.ledger_mergeOrder hindexed)⟩

theorem accounted_confirmInboundOrder (hP : P.WellFormed bound) (hle : bound ≤ bound')
    (hplan : env.confirmInboundOrder ids P actor orderId = .ok plan)
    (happly : plan.apply P = .ok P') :
    Accounted (.confirmInboundOrder actor orderId) bound' P P' := by
  obtain ⟨ctx, joins, payloads, _, hjoins, _, rfl⟩ := confirmInboundOrder_ok hplan
  cases happly
  let Q := P.recordStaffDecision orderId .confirmed
  have hfloor : Q.floor.Below bound := floor_below_recordStaffDecision hP.floor
  have heq : Q.books = P.books := books_recordStaffDecision
  have hledger : Q.ledger = P.ledger := congrArg Books.ledger heq
  cases joins with
  | none =>
    refine ⟨hfloor.mono hle, heq ▸ hP.books.mono hle, heq ▸ hP.indexed, ?_⟩
    show P.ledger.Step _ Q.ledger
    exact .confirm
  | some target =>
    obtain ⟨hlt, hne, hbill⟩ := orderJoinedOnConfirm_some hP.floor hjoins.symm
    obtain ⟨hfloor', hbooks', hindexed', hledger'⟩ :=
      mergeOrder_accounted (P := Q) (hfloor.mono hle) (heq ▸ hP.books.mono hle)
        (heq ▸ hP.indexed) hne (hlt.trans_le hle)
    refine ⟨hfloor', hbooks', hindexed', ?_⟩
    show P.ledger.Step _ (Q.mergeOrder target orderId).ledger
    rw [hledger', hledger]
    exact .confirmAndJoin (unbilled_of_billForOrder hP.indexed hbill)

/-- Where a guest's order comes in. -/
def Projection.arrivedOrder (P : Projection) (orderId : OrderId) (channel : Option SalesChannel)
    (tableId : Option TableId) : Projection :=
  (match tableId with
    | some tableId => P.seatGuestOrder tableId orderId
    | none => P).openOrderOrigin orderId channel tableId

theorem Projection.books_arrivedOrder :
    (P.arrivedOrder orderId channel tableId).books = P.books := by
  cases tableId <;> rfl

theorem Projection.floor_below_arrivedOrder (hP : P.floor.Below bound)
    (horder : orderId.ulid < bound) :
    (P.arrivedOrder orderId channel tableId).floor.Below bound := by
  cases tableId with
  | none => exact floor_below_openOrderOrigin hP horder
  | some tableId =>
    exact floor_below_openOrderOrigin (P := P.seatGuestOrder tableId orderId)
      (floor_below_openOrder (P := P.setTable tableId .occupied) tableId hP horder) horder

/-- The lines of an order that comes in, as the projection takes them. -/
def Env.inboundEntries (ids : Nat → Nat) (orderId : OrderId) (lines : List (PricedLine × Bool)) :
    List (OrderLineId × LineRecord) :=
  (inboundLines ids orderId lines).map fun line => (line.orderLineId, .ofAdded line)

theorem Env.mem_inboundEntries
    (h : entry ∈ inboundEntries ids orderId lines) :
    ∃ i < lines.length, entry.1 = ⟨ids (2 + 2 * i)⟩ ∧ entry.2.orderId = orderId := by
  obtain ⟨line, hline, rfl⟩ := mem_map.1 h
  obtain ⟨i, hi, rfl⟩ := mem_mapIdx.1 hline
  exact ⟨i, hi, rfl, rfl⟩

theorem Env.nodup_inboundEntries (hids : StrictMono ids) :
    ((inboundEntries ids orderId lines).map (·.1)).Nodup := by
  have hkeys : (inboundEntries ids orderId lines).map (·.1) =
      (List.range lines.length).map fun i => ⟨ids (2 + 2 * i)⟩ := by
    refine ext_getElem (by simp [inboundEntries, inboundLines]) fun i hi hi' => ?_
    simp [inboundEntries, inboundLines, lineAdded]
  rw [hkeys]
  refine nodup_range.map fun i j hij => ?_
  have heq := hids.injective (congrArg ResourceId.ulid hij)
  omega

/-- A guest's order is in the books, with its lines. -/
theorem arrived_accounted {taken : Nat} (hP : P.WellFormed bound)
    (hids : TakesIds ids bound taken bound') (htaken : 2 + 2 * lines.length ≤ taken) :
    let entries := inboundEntries ids ⟨ids 0⟩ lines
    let Q := entries.foldl (fun P entry => P.addLine entry.1 entry.2)
      (P.arrivedOrder ⟨ids 0⟩ channel tableId)
    Q.floor.Below bound' ∧ Q.books.Below bound' ∧ Q.books.Indexed ∧
      Q.ledger = P.ledger.sellAll (entries.map fun entry => (entry.1, entry.2.sale)) ∧
      P.ledger.Arrives ⟨ids 0⟩ (entries.map fun entry => (entry.1, entry.2.sale)) := by
  let orderId : OrderId := ⟨ids 0⟩
  let R := P.arrivedOrder orderId channel tableId
  intro entries Q
  have horder : orderId.ulid < bound' := hids.gone 0 (by omega)
  have hR : R.books = P.books := books_arrivedOrder
  have hfloor : R.floor.Below bound' :=
    floor_below_arrivedOrder (hP.floor.mono hids.le) horder
  have hnew : ∀ entry ∈ entries, P.line entry.1 = none := by
    intro entry hentry
    obtain ⟨i, _, hid, _⟩ := mem_inboundEntries hentry
    rw [hid]
    exact line_eq_none_of_le hP (hids.new _)
  have hnodup : (entries.map (·.1)).Nodup := nodup_inboundEntries hids.increasing
  -- the lines are written on the order that was opened, whose books are those before it
  obtain ⟨hQfloor, hQbooks, hQindexed, hQledger⟩ :
      Q.floor = R.floor ∧ Q.books.Below bound' ∧ Q.books.Indexed ∧
        Q.ledger = R.ledger.sellAll (entries.map fun entry => (entry.1, entry.2.sale)) := by
    refine addLines_accounted (hR ▸ hP.books.mono hids.le) (hR ▸ hP.indexed)
      (fun entry hentry => ?_) hnodup fun entry hentry => ?_
    · show R.books.lines[_]? = none
      rw [hR]
      exact hnew entry hentry
    · obtain ⟨i, hi, hid, hentryOrder⟩ := mem_inboundEntries hentry
      rw [hid, hentryOrder]
      exact ⟨hids.gone _ (by omega), horder⟩
  rw [show R.ledger = P.ledger from congrArg Books.ledger hR] at hQledger
  refine ⟨hQfloor ▸ hfloor, hQbooks, hQindexed, hQledger, ?_⟩
  obtain ⟨hempty, hunbilled⟩ := order_new_of_le hP (hids.new 0)
  refine ⟨hempty, hunbilled, fun sold hsold => ?_, ?_⟩
  · obtain ⟨entry, hentry, rfl⟩ := mem_map.1 hsold
    rw [sale_ledger, hnew entry hentry]
    rfl
  · rwa [map_map]

theorem accounted_openInboundOrder {deviceId : DeviceId} {channel : Open SalesChannel}
    (hP : P.WellFormed bound) (hids : TakesIds ids bound plan.minted bound')
    (hplan : env.openInboundOrder ids P deviceId channel tableId lines = .ok plan)
    (happly : plan.apply P = .ok P') :
    Accounted (.openInboundOrder deviceId channel tableId lines) bound' P P' := by
  obtain ⟨businessDate, joins, prepare, hjoins, _, rfl⟩ := openInboundOrder_ok hplan
  cases happly
  let orderId : OrderId := ⟨ids 0⟩
  let Q := (inboundEntries ids orderId lines).foldl (fun P entry => P.addLine entry.1 entry.2)
    (P.arrivedOrder orderId channel.require? tableId)
  obtain ⟨hQfloor, hQbooks, hQindexed, hQledger, harrives⟩ :=
    @arrived_accounted P bound bound' ids channel.require? tableId lines _ hP hids
      (Nat.le_add_right ..)
  cases joins with
  | none =>
    refine ⟨hQfloor, hQbooks, hQindexed, ?_⟩
    show P.ledger.Step _ Q.ledger
    rw [hQledger]
    exact .arrive harrives
  | some target =>
    have htarget : target.ulid < bound := orderJoinedOnArrival_lt hP.floor hjoins.symm
    have hne : target ≠ orderId := fun heq =>
      Nat.not_lt.2 (hids.new 0) (show orderId.ulid < bound from heq ▸ htarget)
    obtain ⟨hfloor', hbooks', hindexed', hledger'⟩ := mergeOrder_accounted (P := Q)
      hQfloor hQbooks hQindexed hne (htarget.trans_le hids.le)
    refine ⟨hfloor', hbooks', hindexed', ?_⟩
    show P.ledger.Step _ (Q.mergeOrder target orderId).ledger
    rw [hledger', hQledger]
    exact .arriveAndJoin harrives

end PosFramework
