import PosFramework.Edge.Ledger.Steps

set_option autoImplicit false

/-! # The hall

What a party meets: the state of each table, the order it points at, where each order is, which
orders have ended, and which bills are open on which table. Every command moves the hall by one of
the steps below. A table points at an order that trades there; and a table waits for the payment of
every open bill that names it, as long as nobody takes the table over meanwhile. -/

namespace PosFramework

open Function Option

/-- A bill as the hall sees it: its order, its table and its state. -/
structure Tab where
  orderId : OrderId
  tableId : Option TableId
  state : BillState

/-- The tables, the orders and their bills, as a party meets them. -/
@[ext] structure Hall where
  state : TableId → TableState
  /-- The order a table points at. -/
  order : TableId → Option OrderId
  /-- The orders that were opened, each with the table it is at. -/
  place : OrderId → Option (Option TableId)
  ended : Set OrderId
  refused : Set OrderId
  tab : BillId → Option Tab

namespace Hall

section Operations

variable (H : Hall)

def setState (tableId : TableId) (state : TableState) : Hall :=
  { H with state := update H.state tableId state }

def point (tableId : TableId) (orderId : Option OrderId) : Hall :=
  { H with order := update H.order tableId orderId }

def put (orderId : OrderId) (tableId : Option TableId) : Hall :=
  { H with place := update H.place orderId (some tableId) }

/-- An order comes to a table, which is occupied by it. -/
def seat (tableId : TableId) (orderId : OrderId) : Hall :=
  ((H.setState tableId .occupied).point tableId (some orderId)).put orderId (some tableId)

/-- An order ends, and no table points at it. -/
def finish (orderId : OrderId) : Hall :=
  { H with
    ended := insert orderId H.ended
    order := fun tableId => if H.order tableId = some orderId then none else H.order tableId }

/-- An order ends in another, which its tables point at. -/
def join (target merged : OrderId) : Hall :=
  { H with
    ended := insert merged H.ended
    order := fun tableId =>
      if H.order tableId = some merged then some target else H.order tableId }

def refuse (orderId : OrderId) : Hall := { H with refused := insert orderId H.refused }

def issue (billId : BillId) (tab : Tab) : Hall :=
  { H with tab := update H.tab billId (some tab) }

/-- The parts of a bill are opened where it is. -/
def issueAll (parts : List BillId) (tab : Tab) : Hall :=
  { H with tab := fun billId => if billId ∈ parts then some tab else H.tab billId }

/-- Bills move to a state. -/
def restateAll (bills : List BillId) (state : BillState) : Hall :=
  { H with
    tab := fun billId =>
      if billId ∈ bills then (H.tab billId).map ({ · with state := state }) else H.tab billId }

/-- A table, where there is one, waits for a payment. -/
def await : Option TableId → Hall
  | some tableId => H.setState tableId .awaitingPayment
  | none => H

/-- No bill of an order is open, but perhaps for one. -/
def NoneOpenBut (orderId : OrderId) (but : Option BillId) : Prop :=
  ∀ billId tab, H.tab billId = some tab → some billId ≠ but → tab.orderId = orderId →
    tab.state ≠ .open

/-- An open bill names the table. -/
def Owes (tableId : TableId) (billId : BillId) (tab : Tab) : Prop :=
  H.tab billId = some tab ∧ tab.state = .open ∧ tab.tableId = some tableId

end Operations

variable {H H' : Hall}

theorem state_setState {tableId other : TableId} {state : TableState} :
    (H.setState tableId state).state other = if other = tableId then state else H.state other :=
  update_apply ..

theorem order_point {tableId other : TableId} {orderId : Option OrderId} :
    (H.point tableId orderId).order other = if other = tableId then orderId else H.order other :=
  update_apply ..

theorem place_put {orderId other : OrderId} {tableId : Option TableId} :
    (H.put orderId tableId).place other =
      if other = orderId then some tableId else H.place other :=
  update_apply ..

variable {billId other : BillId} {tab : Tab} {state : BillState} {rest : List BillId}

theorem tab_issue :
    (H.issue billId tab).tab other = if other = billId then some tab else H.tab other :=
  update_apply ..

theorem tab_issueAll {parts : List BillId} :
    (H.issueAll parts tab).tab other = if other ∈ parts then some tab else H.tab other := rfl

theorem tab_restateAll {bills : List BillId} :
    (H.restateAll bills state).tab other =
      if other ∈ bills then (H.tab other).map ({ · with state := state }) else H.tab other := rfl

/-! ## Bills one after another -/

theorem restateAll_nil : H.restateAll [] state = H :=
  Hall.ext rfl rfl rfl rfl rfl <| funext fun _ => tab_restateAll.trans (if_neg List.not_mem_nil)

theorem restateAll_singleton (htab : H.tab billId = some tab) :
    H.restateAll [billId] state = H.issue billId { tab with state } := by
  refine Hall.ext rfl rfl rfl rfl rfl (funext fun other => ?_)
  grind [tab_issue, tab_restateAll]

theorem restateAll_cons :
    (H.restateAll [billId] state).restateAll rest state = H.restateAll (billId :: rest) state := by
  refine Hall.ext rfl rfl rfl rfl rfl (funext fun other => ?_)
  rw [tab_restateAll, tab_restateAll, tab_restateAll]
  by_cases heq : other = billId
  · subst heq
    simp only [List.mem_cons, true_or, if_true, map_map, comp_def, ite_self]
  · rw [if_neg fun hmem => heq (List.mem_singleton.1 hmem)]
    simp only [List.mem_cons, heq, false_or]

theorem issueAll_nil : H.issueAll [] tab = H :=
  Hall.ext rfl rfl rfl rfl rfl <| funext fun _ => tab_issueAll.trans (if_neg List.not_mem_nil)

theorem issueAll_cons :
    (H.issue billId tab).issueAll rest tab = H.issueAll (billId :: rest) tab := by
  refine Hall.ext rfl rfl rfl rfl rfl (funext fun other => ?_)
  grind [tab_issueAll, tab_issue]

end Hall

/-- The commands that leave the hall as it is. -/
def Command.leavesHall : Command → Bool
  | addLine .. | addLineToOrder .. | voidLine .. | setLineQuantity .. => true
  | fireLine .. | fireOrder .. | fireCourse .. | setItemSoldOut .. => true
  | discountBill .. | waiveFee .. | reprintReceipt .. => true
  | openShift .. | countShift .. | closeShift .. | closeShifts .. => true
  | recordCashMovement .. | recordSafeDrop .. | openDrawerNoSale .. => true
  | seatTable .. | cleanTable .. | releaseTable .. | transferTable .. => false
  | openInboundOrder .. | openCounterOrder .. | confirmInboundOrder .. => false
  | rejectInboundOrder .. | openBill .. | openBillForOrder .. | splitBill .. => false
  | mergeBills .. | settleBill .. | voidBill .. | voidSettledBill .. => false

/-- The bill a command pays or voids, and the states it moves it between. -/
def Command.closesBill : Command → Option (BillId × BillState × BillState)
  | settleBill _ _ billId _ _ _ => some (billId, .open, .settled)
  | voidBill _ billId _ _ => some (billId, .open, .voided)
  | voidSettledBill _ _ billId _ _ => some (billId, .settled, .voided)
  | _ => none

namespace Hall

/-- What each command does to the hall. -/
inductive Step (H : Hall) : Command → Hall → Prop
  | quiet {command : Command} (hquiet : command.leavesHall = true) : H.Step command H
  | seat {actor : Actor} {tableId : TableId} {orderId : OrderId} (hfree : H.state tableId = .free)
      (hnew : H.place orderId = none) : H.Step (.seatTable actor tableId) (H.seat tableId orderId)
  | clean {actor : Actor} {tableId : TableId} (hstate : H.state tableId = .needsCleaning) :
      H.Step (.cleanTable actor tableId) (H.setState tableId .free)
  | release {actor : Actor} {tableId : TableId} {orderId : OrderId}
      (hstate : H.state tableId = .occupied) (horder : H.order tableId = some orderId)
      (hnone : H.NoneOpenBut orderId none) :
      H.Step (.releaseTable actor tableId) ((H.finish orderId).setState tableId .free)
  | releaseEmpty {actor : Actor} {tableId : TableId} (hstate : H.state tableId = .occupied)
      (horder : H.order tableId = none) :
      H.Step (.releaseTable actor tableId) (H.setState tableId .free)
  | transfer {actor : Actor} {fromTableId toTableId : TableId} {orderId : OrderId}
      (horder : H.order fromTableId = some orderId) (hoccupied : H.state fromTableId = .occupied)
      (hfree : H.state toTableId = .free) :
      H.Step (.transferTable actor fromTableId toTableId)
        (((H.setState fromTableId .needsCleaning).point fromTableId none).seat toTableId orderId)
  | counter {actor : Actor} {channel : SalesChannel} {orderId : OrderId}
      (hnew : H.place orderId = none) :
      H.Step (.openCounterOrder actor channel) (H.put orderId none)
  | arrive {deviceId : DeviceId} {channel : Open SalesChannel} {lines : List (PricedLine × Bool)}
      {orderId : OrderId} (hnew : H.place orderId = none) :
      H.Step (.openInboundOrder deviceId channel none lines) (H.put orderId none)
  | arriveAt {deviceId : DeviceId} {channel : Open SalesChannel} {lines : List (PricedLine × Bool)}
      {tableId : TableId} {orderId : OrderId} (hnew : H.place orderId = none) :
      H.Step (.openInboundOrder deviceId channel (some tableId) lines) (H.seat tableId orderId)
  | arriveAndJoin {deviceId : DeviceId} {channel : Open SalesChannel}
      {lines : List (PricedLine × Bool)} {tableId : TableId} {orderId target : OrderId}
      (hnew : H.place orderId = none) (hplace : H.place target = some (some tableId))
      (htarget : target ∉ H.ended) :
      H.Step (.openInboundOrder deviceId channel (some tableId) lines)
        ((H.seat tableId orderId).join target orderId)
  | confirm {actor : Actor} {orderId : OrderId} : H.Step (.confirmInboundOrder actor orderId) H
  | confirmAndJoin {actor : Actor} {tableId : TableId} {orderId target : OrderId}
      (hplace : H.place orderId = some (some tableId)) (hne : target ≠ orderId)
      (hnone : H.NoneOpenBut orderId none) (hthere : H.place target = some (some tableId))
      (htarget : target ∉ H.ended) :
      H.Step (.confirmInboundOrder actor orderId) (H.join target orderId)
  | reject {actor : Actor} {orderId : OrderId} {reasonCodeId : ReasonCodeId}
      (hplace : (H.place orderId).isSome = true)
      (hnone : ∀ tableId, H.order tableId ≠ some orderId) :
      H.Step (.rejectInboundOrder actor orderId reasonCodeId) ((H.refuse orderId).finish orderId)
  | rejectAt {actor : Actor} {tableId : TableId} {orderId : OrderId} {reasonCodeId : ReasonCodeId}
      {back : Option OrderId} {state : TableState} (horder : H.order tableId = some orderId)
      (hback : ∀ other, back = some other → other ≠ orderId ∧
        H.place other = some (some tableId) ∧ other ∉ H.ended) :
      H.Step (.rejectInboundOrder actor orderId reasonCodeId)
        ((((H.refuse orderId).finish orderId).point tableId back).setState tableId state)
  | openBill {command : Command} {billId : BillId} {orderId : OrderId} {tableId : Option TableId}
      (hcommand : command.opensBill = true) (hnew : H.tab billId = none)
      (htable : ∀ t, tableId = some t → H.order t = some orderId ∧ H.state t = .occupied) :
      H.Step command ((H.issue billId ⟨orderId, tableId, .open⟩).await tableId)
  | splitBill {actor : Actor} {billId : BillId} {lines : List (List OrderLineId)} {tab : Tab}
      {parts : List BillId} (htab : H.tab billId = some tab) (hopen : tab.state = .open)
      (hnew : ∀ part ∈ parts, H.tab part = none) :
      H.Step (.splitBill actor billId lines)
        ((H.issueAll parts tab).issue billId { tab with state := .split })
  | mergeBills {actor : Actor} {billId : BillId} {absorbed : List BillId} :
      H.Step (.mergeBills actor billId absorbed) (H.restateAll absorbed .merged)
  | close {command : Command} {billId : BillId} {before after : BillState} {tab : Tab}
      (hcommand : command.closesBill = some (billId, before, after))
      (htab : H.tab billId = some tab) (hbefore : tab.state = before) :
      H.Step command (H.issue billId { tab with state := after })
  | closeLast {command : Command} {billId : BillId} {before after : BillState} {tab : Tab}
      {tableId : TableId} {state : TableState}
      (hcommand : command.closesBill = some (billId, before, after))
      (htab : H.tab billId = some tab) (hbefore : tab.state = before)
      (htable : tab.tableId = some tableId) (hwaits : H.state tableId = .awaitingPayment)
      (hlast : H.NoneOpenBut tab.orderId (some billId)) :
      H.Step command ((H.issue billId { tab with state := after }).setState tableId state)

/-! ## Tables point at orders that trade there -/

/-- An order is at the table that points at it. -/
def Placed (H : Hall) : Prop :=
  ∀ tableId orderId, H.order tableId = some orderId → H.place orderId = some (some tableId)

/-- Tables point at orders that trade there; a refused order has ended. -/
structure Sound (H : Hall) : Prop where
  placed : H.Placed
  trading : ∀ tableId orderId, H.order tableId = some orderId → orderId ∉ H.ended
  opened : ∀ orderId ∈ H.ended, (H.place orderId).isSome = true
  refused_ended : H.refused ⊆ H.ended

variable {H H' : Hall} {command : Command} {tableId : TableId} {orderId : OrderId}
  {billId other : BillId} {tab paid : Tab}

theorem Placed.table_eq (hH : H.Placed) {other : TableId} (h : H.order tableId = some orderId)
    (h' : H.order other = some orderId) : tableId = other :=
  some.inj (some.inj ((hH _ _ h).symm.trans (hH _ _ h')))

theorem Sound.not_ended_of_new (hH : H.Sound) (hnew : H.place orderId = none) :
    orderId ∉ H.ended := by
  intro hended
  have hsome := hH.opened orderId hended
  rw [hnew] at hsome
  contradiction

/-- The hall stays sound where only tables' states and bills change. -/
theorem Sound.congr (hH : H.Sound) (horder : H'.order = H.order) (hplace : H'.place = H.place)
    (hended : H'.ended = H.ended) (hrefused : H'.refused = H.refused) : H'.Sound where
  placed := by
    rw [Placed, horder, hplace]
    exact hH.placed
  trading := horder ▸ hended ▸ hH.trading
  opened := hended ▸ hplace ▸ hH.opened
  refused_ended := hrefused ▸ hended ▸ hH.refused_ended

theorem Sound.setState (hH : H.Sound) (tableId : TableId) (state : TableState) :
    (H.setState tableId state).Sound := hH.congr rfl rfl rfl rfl

theorem Sound.issue (hH : H.Sound) (billId : BillId) (tab : Tab) : (H.issue billId tab).Sound :=
  hH.congr rfl rfl rfl rfl

theorem Sound.await (hH : H.Sound) (tableId : Option TableId) : (H.await tableId).Sound := by
  cases tableId with
  | none => exact hH
  | some tableId => exact hH.setState tableId _

/-- A table that points at nothing, or at an order that trades there. -/
theorem Sound.point (hH : H.Sound) {orderId : Option OrderId}
    (hthere : ∀ other, orderId = some other →
      H.place other = some (some tableId) ∧ other ∉ H.ended) :
    (H.point tableId orderId).Sound := by
  have hread : ∀ other order, (H.point tableId orderId).order other = some order →
      H.place order = some (some other) ∧ order ∉ H.ended := by
    intro other order h
    rw [order_point] at h
    split at h
    · next heq =>
      exact heq ▸ hthere order h
    · exact ⟨hH.placed other order h, hH.trading other order h⟩
  exact ⟨fun t o h => (hread t o h).1, fun t o h => (hread t o h).2, hH.opened, hH.refused_ended⟩

/-- An order no table points at is put somewhere. -/
theorem Sound.put (hH : H.Sound) {tableId : Option TableId}
    (hnone : ∀ other, H.order other ≠ some orderId) : (H.put orderId tableId).Sound where
  placed := by
    intro other order h
    have hne : order ≠ orderId := by
      rintro rfl
      exact hnone other h
    rw [place_put, if_neg hne]
    exact hH.placed other order h
  trading := hH.trading
  opened := by
    intro order hended
    rw [place_put]
    split
    · rfl
    · exact hH.opened order hended
  refused_ended := hH.refused_ended

theorem Sound.order_ne_of_new (hH : H.Sound) (hnew : H.place orderId = none) (tableId : TableId) :
    H.order tableId ≠ some orderId := by
  intro h
  rw [hH.placed tableId orderId h] at hnew
  contradiction

theorem Sound.seat (hH : H.Sound) (hnone : ∀ other, H.order other ≠ some orderId)
    (htrading : orderId ∉ H.ended) :
    (H.seat tableId orderId).Sound := by
  -- the order is placed first, so that the table may point at it
  have hput : (H.put orderId (some tableId)).Sound := hH.put hnone
  have hpoint : ((H.put orderId (some tableId)).point tableId (some orderId)).Sound := by
    refine hput.point ?_
    rintro other ⟨⟩
    exact ⟨update_self .., htrading⟩
  exact hpoint.congr rfl rfl rfl rfl

/-- An order that was opened ends: each table points at an order of its own that trades on. -/
theorem Sound.end_order (hH : H.Sound) (hplace : (H.place orderId).isSome = true)
    {order : TableId → Option OrderId} (hread : ∀ other kept, order other = some kept →
      kept ≠ orderId ∧ H.place kept = some (some other) ∧ kept ∉ H.ended) :
    Sound { H with ended := insert orderId H.ended, order := order } where
  placed := fun t o h => (hread t o h).2.1
  trading := by
    rintro t o h (rfl | hended)
    · exact (hread t o h).1 rfl
    · exact (hread t o h).2.2 hended
  opened := by
    rintro o (rfl | hended)
    · exact hplace
    · exact hH.opened o hended
  refused_ended := hH.refused_ended.trans (Set.subset_insert _ _)

theorem Sound.finish (hH : H.Sound) (hplace : (H.place orderId).isSome = true) :
    (H.finish orderId).Sound := by
  refine hH.end_order hplace fun other order h => ?_
  split at h
  · contradiction
  next hne =>
    refine ⟨?_, hH.placed other order h, hH.trading other order h⟩
    rintro rfl
    exact hne h

theorem Sound.join (hH : H.Sound) {target merged : OrderId}
    (hplace : H.place merged = some (some tableId)) (hne : target ≠ merged)
    (hthere : H.place target = some (some tableId)) (htarget : target ∉ H.ended) :
    (H.join target merged).Sound := by
  refine hH.end_order (by rw [hplace]; rfl) fun other order h => ?_
  split at h
  next hmerged =>
    -- the table that pointed at the merged order is where both orders are
    obtain rfl := some.inj h
    obtain rfl := some.inj (some.inj ((hH.placed _ _ hmerged).symm.trans hplace))
    exact ⟨hne, hthere, htarget⟩
  next hother =>
    refine ⟨?_, hH.placed other order h, hH.trading other order h⟩
    rintro rfl
    exact hother h

theorem Sound.refuse_finish (hH : H.Sound) (hplace : (H.place orderId).isSome = true) :
    ((H.refuse orderId).finish orderId).Sound := by
  have hfinished := hH.finish hplace
  exact ⟨hfinished.placed, hfinished.trading, hfinished.opened,
    Set.insert_subset_insert hH.refused_ended⟩

theorem Step.sound (hstep : H.Step command H') (hH : H.Sound) : H'.Sound := by
  cases hstep with
  | quiet _ => exact hH
  | confirm => exact hH
  | seat _ hnew | arriveAt hnew =>
    exact hH.seat (hH.order_ne_of_new hnew) (hH.not_ended_of_new hnew)
  | clean _ => exact hH.setState _ _
  | release _ horder _ =>
    refine (hH.finish ?_).setState _ _
    rw [hH.placed _ _ horder]
    rfl
  | releaseEmpty _ _ => exact hH.setState _ _
  | @transfer actor fromTableId toTableId orderId horder _ _ =>
    have hleft : ((H.setState fromTableId .needsCleaning).point fromTableId none).Sound :=
      (hH.setState _ _).point fun _ h => nomatch h
    refine hleft.seat (fun other hother => ?_) (hH.trading _ _ horder)
    -- the order's one table has just been left
    rw [order_point] at hother
    split at hother
    · contradiction
    · next heq =>
      exact heq (hH.placed.table_eq hother horder)
  | counter hnew | arrive hnew => exact hH.put (hH.order_ne_of_new hnew)
  | @arriveAndJoin deviceId channel lines tableId orderId target hnew hplace htarget =>
    have hseated : (H.seat tableId orderId).Sound :=
      hH.seat (hH.order_ne_of_new hnew) (hH.not_ended_of_new hnew)
    have hne : target ≠ orderId := by
      rintro rfl
      rw [hnew] at hplace
      contradiction
    refine hseated.join (update_self ..) hne ?_ htarget
    exact (update_of_ne hne ..).trans hplace
  | confirmAndJoin hplace hne _ hthere htarget => exact hH.join hplace hne hthere htarget
  | reject hplace _ => exact hH.refuse_finish hplace
  | rejectAt horder hback =>
    have hplace := hH.placed _ _ horder
    refine ((hH.refuse_finish (by rw [hplace]; rfl)).point fun other hother => ?_).setState _ _
    obtain ⟨hne, hthere, htrading⟩ := hback other hother
    exact ⟨hthere, fun hended => hended.elim hne htrading⟩
  | openBill => exact (hH.issue _ _).await _
  | splitBill _ _ _ | mergeBills => exact hH.congr rfl rfl rfl rfl
  | close => exact hH.issue _ _
  | closeLast => exact (hH.issue _ _).setState _ _

theorem Step.ended_subset (hstep : H.Step command H') : H.ended ⊆ H'.ended := by
  cases hstep with
  | release | arriveAndJoin | confirmAndJoin | reject | rejectAt => exact Set.subset_insert _ _
  | @openBill command billId orderId tableId _ _ _ => cases tableId <;> exact subset_rfl
  | _ => exact subset_rfl

/-! ## Tables wait for the bills that name them -/

/-- A table waits for the payment of every open bill that names it, and these are of one order. -/
structure Waits (H : Hall) : Prop where
  awaits : ∀ tableId billId tab, H.Owes tableId billId tab → H.state tableId = .awaitingPayment
  same_order : ∀ tableId billId other tab tab', H.Owes tableId billId tab →
    H.Owes tableId other tab' → tab.orderId = tab'.orderId

/-- Nobody takes over a table that an open bill names: no guest's order comes to it, the table waits
    on when the order it points at is rejected, and no paid bill of an order that has none open is
    voided there. -/
def LeavesWaiting (H H' : Hall) : Command → Prop
  | .openInboundOrder _ _ (some tableId) _ => ∀ billId tab, ¬ H.Owes tableId billId tab
  | .rejectInboundOrder _ _ _ =>
    ∀ tableId billId tab, H.Owes tableId billId tab → H'.state tableId = .awaitingPayment
  | .voidSettledBill _ _ billId _ _ =>
    ∀ paid, H.tab billId = some paid → H.NoneOpenBut paid.orderId (some billId) →
      ∀ tableId, paid.tableId = some tableId → ∀ other tab, ¬ H.Owes tableId other tab
  | _ => True

/-- No bill opens and the tables that open bills name stay. -/
theorem Waits.congr (hW : H.Waits) (htab : ∀ tableId billId tab, H'.Owes tableId billId tab →
      H.Owes tableId billId tab)
    (hsame : ∀ tableId billId tab, H'.Owes tableId billId tab →
      H'.state tableId = H.state tableId) : H'.Waits where
  awaits := by
    intro tableId billId tab howes
    rw [hsame tableId billId tab howes]
    exact hW.awaits tableId billId tab (htab tableId billId tab howes)
  same_order := by
    intro tableId billId other tab tab' howes howes'
    exact hW.same_order tableId billId other tab tab' (htab _ _ _ howes) (htab _ _ _ howes')

/-- Only a table that no open bill names moves. -/
theorem Waits.move (hW : H.Waits) (htab : H'.tab = H.tab) {moved : TableId}
    (hfree : ∀ billId tab, ¬ H.Owes moved billId tab)
    (hsame : ∀ tableId ≠ moved, H'.state tableId = H.state tableId) : H'.Waits := by
  have hback : ∀ tableId billId tab, H'.Owes tableId billId tab → H.Owes tableId billId tab := by
    intro tableId billId tab howes
    rwa [Owes, htab] at howes
  refine hW.congr hback fun tableId billId tab howes => hsame tableId ?_
  rintro rfl
  exact hfree billId tab (hback _ _ _ howes)

theorem Waits.not_owes (hW : H.Waits) (hstate : H.state tableId ≠ .awaitingPayment)
    (billId : BillId) (tab : Tab) :
    ¬ H.Owes tableId billId tab :=
  fun howes => hstate (hW.awaits tableId billId tab howes)

theorem owes_of_issue (hclosed : paid.state ≠ .open)
    (howes : (H.issue billId paid).Owes tableId other tab) :
    other ≠ billId ∧ H.Owes tableId other tab := by
  obtain ⟨htab, hopen, htable⟩ := howes
  rw [tab_issue] at htab
  split at htab
  · obtain rfl := some.inj htab
    exact absurd hopen hclosed
  · next heq =>
    exact ⟨heq, htab, hopen, htable⟩

theorem closesBill_after {command : Command} {before after : BillState}
    (h : command.closesBill = some (billId, before, after)) : after ≠ .open := by
  cases command <;> simp only [Command.closesBill, some.injEq, Prod.mk.injEq,
    reduceCtorEq] at h
  all_goals
    obtain ⟨_, _, rfl⟩ := h
    decide

/-- The last open bill of an order at a table is closed: no other open bill names the table. -/
theorem Waits.not_owes_of_last (hW : H.Waits) {before after : BillState}
    (hcommand : command.closesBill = some (billId, before, after))
    (hleaves : H.LeavesWaiting H' command) (htab : H.tab billId = some paid)
    (hbefore : paid.state = before) (htable : paid.tableId = some tableId)
    (hlast : H.NoneOpenBut paid.orderId (some billId)) (hne : other ≠ billId) :
    ¬ H.Owes tableId other tab := by
  intro howes
  -- a bill that is open at the table itself is of the order all its open bills are of
  have hopen : before ≠ .open := by
    rintro rfl
    have horder := hW.same_order tableId other billId tab paid howes ⟨htab, hbefore, htable⟩
    exact hlast other tab howes.1 (fun heq => hne (some.inj heq)) horder howes.2.1
  cases command <;> simp only [Command.closesBill, some.injEq, Prod.mk.injEq,
    reduceCtorEq] at hcommand
  case settleBill => exact hopen hcommand.2.1.symm
  case voidBill => exact hopen hcommand.2.1.symm
  case voidSettledBill =>
    obtain ⟨rfl, _⟩ := hcommand
    exact hleaves paid htab hlast tableId htable other tab howes

/-- A bill opens at a table that was occupied: no other open bill names it, and it waits. -/
theorem Waits.openBill (hW : H.Waits) {tableId : Option TableId}
    (hstate : ∀ t, tableId = some t → H.state t = .occupied) :
    ((H.issue billId ⟨orderId, tableId, .open⟩).await tableId).Waits := by
  let opened : Tab := ⟨orderId, tableId, .open⟩
  have hread : ∀ other owed tab, ((H.issue billId opened).await tableId).Owes other owed tab →
      (owed = billId ∧ tab = opened ∧ tableId = some other) ∨
        (H.Owes other owed tab ∧ tableId ≠ some other) := by
    intro other owed tab howes
    have hissued : (H.issue billId opened).tab owed = some tab := by
      cases tableId <;> exact howes.1
    rw [tab_issue] at hissued
    split at hissued
    · next heq =>
      obtain rfl := some.inj hissued
      exact .inl ⟨heq, rfl, howes.2.2⟩
    · have hbefore : H.Owes other owed tab := ⟨hissued, howes.2⟩
      refine .inr ⟨hbefore, fun htable => ?_⟩
      have hoccupied := hstate other htable
      rw [hW.awaits other owed tab hbefore] at hoccupied
      contradiction
  refine ⟨fun other owed tab howes => ?_, fun other owed owed' tab tab' howes howes' => ?_⟩
  · rcases hread other owed tab howes with ⟨_, _, rfl⟩ | ⟨hbefore, hne⟩
    · exact update_self ..
    · cases tableId with
      | none => exact hW.awaits other owed tab hbefore
      | some moved =>
        have hother : other ≠ moved := fun heq => hne (congrArg some heq.symm)
        exact (update_of_ne hother ..).trans (hW.awaits other owed tab hbefore)
  · rcases hread other owed tab howes with ⟨_, rfl, htable⟩ | ⟨hbefore, hne⟩
    · rcases hread other owed' tab' howes' with ⟨_, rfl, _⟩ | ⟨_, hne'⟩
      · rfl
      · exact absurd htable hne'
    · rcases hread other owed' tab' howes' with ⟨_, _, htable'⟩ | ⟨hbefore', _⟩
      · exact absurd htable' hne
      · exact hW.same_order other owed owed' tab tab' hbefore hbefore'

/-- The parts of a bill are owed where it was. -/
theorem Waits.splitBill (hW : H.Waits) {parts : List BillId} (htab : H.tab billId = some tab)
    (hopen : tab.state = .open) :
    ((H.issueAll parts tab).issue billId { tab with state := .split }).Waits := by
  have hread : ∀ tableId other part,
      ((H.issueAll parts tab).issue billId { tab with state := .split }).Owes tableId other part →
      ∃ before, H.Owes tableId before part := by
    intro tableId other part howes
    obtain ⟨_, hother, hpart, htable⟩ := owes_of_issue (by simp) howes
    rw [tab_issueAll] at hother
    split at hother
    · obtain rfl := some.inj hother
      exact ⟨billId, htab, hopen, htable⟩
    · exact ⟨other, hother, hpart, htable⟩
  refine ⟨fun tableId other part howes => ?_,
    fun tableId other other' part part' howes howes' => ?_⟩
  · obtain ⟨before, hbefore⟩ := hread tableId other part howes
    exact hW.awaits tableId before part hbefore
  · obtain ⟨before, hbefore⟩ := hread tableId other part howes
    obtain ⟨before', hbefore'⟩ := hread tableId other' part' howes'
    exact hW.same_order tableId before before' part part' hbefore hbefore'

theorem Waits.mergeBills (hW : H.Waits) {absorbed : List BillId} :
    (H.restateAll absorbed .merged).Waits := by
  refine hW.congr (fun tableId other tab howes => ?_) fun _ _ _ _ => rfl
  obtain ⟨htab, hopen, htable⟩ := howes
  rw [tab_restateAll] at htab
  split at htab
  · obtain ⟨before, _, rfl⟩ := map_eq_some_iff.1 htab
    contradiction
  · exact ⟨htab, hopen, htable⟩

/-- Where only tables and orders change, the tables that open bills name wait on. -/
theorem Waits.of_awaits (hW : H.Waits) (htab : H'.tab = H.tab)
    (hawaits : ∀ tableId billId tab, H.Owes tableId billId tab →
      H'.state tableId = .awaitingPayment) : H'.Waits := by
  refine hW.congr (fun tableId billId tab howes => ?_) fun tableId billId tab howes => ?_
  · rwa [Owes, htab] at howes
  · rw [Owes, htab] at howes
    rw [hawaits tableId billId tab howes, hW.awaits tableId billId tab howes]

theorem Step.waits (hstep : H.Step command H') (hW : H.Waits)
    (hleaves : H.LeavesWaiting H' command) : H'.Waits := by
  cases hstep with
  | quiet _ => exact hW
  | confirm => exact hW
  | seat hfree _ =>
    exact hW.move rfl (hW.not_owes (by rw [hfree]; decide)) fun _ hne =>
      update_of_ne hne ..
  | clean hstate | releaseEmpty hstate _ | release hstate _ _ =>
    exact hW.move rfl (hW.not_owes (by rw [hstate]; decide)) fun _ hne =>
      update_of_ne hne ..
  | @transfer actor fromTableId toTableId orderId _ hoccupied hfree =>
    have hleft : ((H.setState fromTableId .needsCleaning).point fromTableId none).Waits :=
      hW.move rfl (hW.not_owes (by rw [hoccupied]; decide)) fun _ hne =>
        update_of_ne hne ..
    exact hleft.move rfl (hW.not_owes (by rw [hfree]; decide)) fun _ hne =>
      update_of_ne hne ..
  | counter _ | arrive _ | confirmAndJoin _ _ _ _ _ =>
    exact hW.congr (fun _ _ _ h => h) fun _ _ _ _ => rfl
  | arriveAt _ | arriveAndJoin _ _ _ =>
    exact hW.move rfl hleaves fun _ hne => update_of_ne hne ..
  | reject _ _ | rejectAt _ _ => exact hW.of_awaits rfl hleaves
  | openBill _ _ htable => exact hW.openBill fun t ht => (htable t ht).2
  | splitBill htab hopen _ => exact hW.splitBill htab hopen
  | mergeBills => exact hW.mergeBills
  | close hcommand _ _ =>
    exact hW.congr (fun _ _ _ howes => (owes_of_issue (closesBill_after hcommand) howes).2)
      fun _ _ _ _ => rfl
  | closeLast hcommand htab hbefore htable _ hlast =>
    have hclosed := closesBill_after hcommand
    refine hW.congr (fun _ _ _ howes => (owes_of_issue hclosed howes).2) ?_
    intro other owed tab howes
    obtain ⟨hne, howed⟩ := owes_of_issue hclosed howes
    refine update_of_ne ?_ ..
    rintro rfl
    exact hW.not_owes_of_last hcommand hleaves htab hbefore htable hlast hne howed

end Hall

end PosFramework
