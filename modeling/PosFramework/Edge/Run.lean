import PosFramework.Edge.Commands.Bills
import PosFramework.Edge.Commands.Orders
import PosFramework.Edge.Commands.Shifts
import PosFramework.Edge.IdGen
import PosFramework.Lib.Transition

set_option autoImplicit false

/-! # The edge

The edge's state is its projection, its log and how many ids it has taken. A command that is not
refused appends its events to the log, changes the projection and answers; a store's history is a
run of such commands, each in an environment of its own. -/

namespace PosFramework

open Fallible Transition

/-- The commands, with what a device sends. -/
inductive Command
  | seatTable (actor : Actor) (tableId : TableId)
  | cleanTable (actor : Actor) (tableId : TableId)
  | releaseTable (actor : Actor) (tableId : TableId)
  | transferTable (actor : Actor) (fromTableId toTableId : TableId)
  | addLine (actor : Actor) (tableId : TableId) (draft : Env.LineDraft) (hasNote : Bool)
  | addLineToOrder (actor : Actor) (orderId : OrderId) (choice : Env.OrderLineChoice)
      (hasNote : Bool)
  | voidLine (actor : Actor) (orderLineId : OrderLineId) (reasonCodeId : ReasonCodeId)
      (approval : Option Approval)
  | setLineQuantity (actor : Actor) (orderLineId : OrderLineId) (quantity : Quantity)
  | fireLine (actor : Actor) (orderLineId : OrderLineId) (stationId : Option StationId)
  | fireOrder (actor : Actor) (orderId : OrderId) (stationId : Option StationId)
  | fireCourse (actor : Actor) (orderId : OrderId) (courseId : CourseId)
      (stationId : Option StationId)
  | openInboundOrder (deviceId : DeviceId) (channel : Open SalesChannel)
      (tableId : Option TableId) (lines : List (PricedLine × Bool))
  | openCounterOrder (actor : Actor) (channel : SalesChannel)
  | confirmInboundOrder (actor : Actor) (orderId : OrderId)
  | rejectInboundOrder (actor : Actor) (orderId : OrderId) (reasonCodeId : ReasonCodeId)
  | setItemSoldOut (actor : Actor) (menuItemId : MenuItemId) (soldOut : Bool)
  | openBill (actor : Actor) (tableId : TableId)
  | openBillForOrder (actor : Actor) (orderId : OrderId)
  | discountBill (actor : Actor) (billId : BillId) (amount : Money) (reasonCodeId : ReasonCodeId)
      (approval : Option Approval)
  | waiveFee (actor : Actor) (billId : BillId) (feeId : FeeId) (reasonCodeId : ReasonCodeId)
      (approval : Option Approval)
  | splitBill (actor : Actor) (billId : BillId) (parts : List (List OrderLineId))
  | mergeBills (actor : Actor) (billId : BillId) (absorbed : List BillId)
  | settleBill (actor : Actor) (scope : TillScope) (billId : BillId) (payments : List Payment)
      (hasBuyer : Bool) (approval : Option Approval)
  | voidBill (actor : Actor) (billId : BillId) (reasonCodeId : ReasonCodeId)
      (approval : Option Approval)
  | voidSettledBill (actor : Actor) (scope : TillScope) (billId : BillId)
      (reasonCodeId : ReasonCodeId) (approval : Option Approval)
  | reprintReceipt (actor : Actor) (billId : BillId)
  | openShift (actor : Actor) (scope : TillScope) (openingFloat : Money)
      (breakdown : CountBreakdown) (approval : Option Approval) (assignee : Option EmployeeId)
      (handedOverFrom : Option ShiftId)
  | countShift (actor : Actor) (scope : TillScope) (shiftId : ShiftId) (countedMinor : I64)
      (breakdown : CountBreakdown) (approval : Option Approval)
  | closeShift (actor : Actor) (scope : TillScope) (shiftId : ShiftId)
      (approval : Option Approval) (reason : Option ReasonCodeId)
  | closeShifts (actor : Actor) (scope : TillScope) (shiftIds : List ShiftId)
      (approval : Option Approval) (reasons : List (ShiftId × ReasonCodeId))
  | recordCashMovement (actor : Actor) (scope : TillScope) (shiftId : ShiftId)
      (movement : CashMovement) (amount : Money) (reasonCodeId : ReasonCodeId)
      (approval : Option Approval)
  | recordSafeDrop (actor : Actor) (scope : TillScope) (shiftId : ShiftId) (amount : Money)
      (breakdown : CountBreakdown) (reasonCodeId : Option ReasonCodeId)
      (approval : Option Approval)
  | openDrawerNoSale (actor : Actor) (scope : TillScope) (reasonCodeId : ReasonCodeId)
      (approval : Option Approval)

/-- What a command decides on a projection. -/
def Command.plan (command : Command) (env : Env) (ids : Nat → Nat) (P : Projection) :
    Except AppError Plan :=
  match command with
  | seatTable actor tableId => env.seatTable ids P actor tableId
  | cleanTable actor tableId => env.cleanTable ids P actor tableId
  | releaseTable actor tableId => env.releaseTable ids P actor tableId
  | transferTable actor fromTableId toTableId => env.transferTable ids P actor fromTableId toTableId
  | addLine actor tableId draft hasNote => env.addLine ids P actor tableId draft hasNote
  | addLineToOrder actor orderId choice hasNote =>
    env.addLineToOrder ids P actor orderId choice hasNote
  | voidLine actor orderLineId reasonCodeId approval =>
    env.voidLine ids P actor orderLineId reasonCodeId approval
  | setLineQuantity actor orderLineId quantity =>
    env.setLineQuantity ids P actor orderLineId quantity
  | fireLine actor orderLineId stationId => env.fireLine ids P actor orderLineId stationId
  | fireOrder actor orderId stationId => env.fireOrder ids P actor orderId stationId
  | fireCourse actor orderId courseId stationId =>
    env.fireCourse ids P actor orderId courseId stationId
  | openInboundOrder deviceId channel tableId lines =>
    env.openInboundOrder ids P deviceId channel tableId lines
  | openCounterOrder actor channel => env.openCounterOrder ids P actor channel
  | confirmInboundOrder actor orderId => env.confirmInboundOrder ids P actor orderId
  | rejectInboundOrder actor orderId reasonCodeId =>
    env.rejectInboundOrder ids P actor orderId reasonCodeId
  | setItemSoldOut actor menuItemId soldOut => env.setItemSoldOut ids P actor menuItemId soldOut
  | openBill actor tableId => env.openBill ids P actor tableId
  | openBillForOrder actor orderId => env.openBillForOrder ids P actor orderId
  | discountBill actor billId amount reasonCodeId approval =>
    env.discountBill ids P actor billId amount reasonCodeId approval
  | waiveFee actor billId feeId reasonCodeId approval =>
    env.waiveFee ids P actor billId feeId reasonCodeId approval
  | splitBill actor billId parts => env.splitBill ids P actor billId parts
  | mergeBills actor billId absorbed => env.mergeBills ids P actor billId absorbed
  | settleBill actor scope billId payments hasBuyer approval =>
    env.settleBill ids P actor scope billId payments hasBuyer approval
  | voidBill actor billId reasonCodeId approval =>
    env.voidBill ids P actor billId reasonCodeId approval
  | voidSettledBill actor scope billId reasonCodeId approval =>
    env.voidSettledBill ids P actor scope billId reasonCodeId approval
  | reprintReceipt actor billId => env.reprintReceipt ids P actor billId
  | openShift actor scope openingFloat breakdown approval assignee handedOverFrom =>
    env.openShift ids P actor scope openingFloat breakdown approval assignee handedOverFrom
  | countShift actor scope shiftId countedMinor breakdown approval =>
    env.countShift ids P actor scope shiftId countedMinor breakdown approval
  | closeShift actor scope shiftId approval reason =>
    env.closeShift ids P actor scope shiftId approval reason
  | closeShifts actor scope shiftIds approval reasons =>
    env.closeShifts ids P actor scope shiftIds approval reasons
  | recordCashMovement actor scope shiftId movement amount reasonCodeId approval =>
    env.recordCashMovement ids P actor scope shiftId movement amount reasonCodeId approval
  | recordSafeDrop actor scope shiftId amount breakdown reasonCodeId approval =>
    env.recordSafeDrop ids P actor scope shiftId amount breakdown reasonCodeId approval
  | openDrawerNoSale actor scope reasonCodeId approval =>
    env.openDrawerNoSale ids P actor scope reasonCodeId approval

/-- The projection and the log it came from. -/
structure Edge where
  projection : Projection
  log : List Event
  /-- How many ids have been taken. -/
  minted : Nat

namespace Edge

/-- A store with no history. -/
def initial : Edge := ⟨.empty, [], 0⟩

variable (ids : IdSource)

/-- The ids that have not been taken. -/
def freshIds (edge : Edge) : Nat → Nat := fun i => ids.mint (edge.minted + i)

/-- Decide, append, fold and answer. -/
def step (input : Env × Command) (edge : Edge) : Except AppError Edge := do
  let plan ← input.2.plan input.1 (edge.freshIds ids) edge.projection
  let projection ← liftDomain (plan.apply edge.projection)
  plan.answer projection
  pure ⟨projection, edge.log ++ plan.events, edge.minted + plan.minted⟩

/-- A history of the store: commands that are taken one after another, each one allowed in the state
    it meets. -/
abbrev Run (allowed : Edge → Env × Command → Prop) : Edge → List (Env × Command) → Edge → Prop :=
  Transition.Run (step ids) allowed

/-- What a taken command did. -/
theorem step_eq_ok {input : Env × Command} {edge edge' : Edge} :
    edge.step ids input = .ok edge' ↔
      ∃ plan projection,
        input.2.plan input.1 (edge.freshIds ids) edge.projection = .ok plan ∧
        plan.apply edge.projection = .ok projection ∧ plan.answer projection = .ok () ∧
        edge' = ⟨projection, edge.log ++ plan.events, edge.minted + plan.minted⟩ := by
  simp only [step, bind_eq_ok, liftDomain_eq_ok, pure_eq_ok]
  constructor
  · rintro ⟨plan, hplan, projection, happly, _, hanswer, rfl⟩
    exact ⟨plan, projection, hplan, happly, hanswer, rfl⟩
  · rintro ⟨plan, projection, hplan, happly, hanswer, rfl⟩
    exact ⟨plan, hplan, projection, happly, (), hanswer, rfl⟩

end Edge

/-! ## A small store

One table waiter with every permission, one tax class at ten percent, one reason code for
everything, guest orders that stay apart and no fees: enough to run commands on. -/

namespace Trial

def actor : Actor := ⟨⟨1⟩, ⟨1⟩⟩

def table : TableId := ⟨7⟩

def reason : ReasonCodeId := ⟨1⟩

def session : EdgeSession where
  granted := .all
  capabilities := ⟨fun _ => true⟩
  currency := .vnd
  recipes := ∅
  taxRates := ⟨[⟨⟨1⟩, .fromKnown .dineIn, .tenth, []⟩]⟩
  pricesIncludeTax := false
  cashRoundingIncrement := none
  taxRounding := .halfUp
  menu := .empty
  menuBook := ⟨[], .empty⟩
  salesChannel := .dineIn
  staff := ⟨[("1", ⟨some ⟨1⟩, .all, .empty, none, none⟩)]⟩
  permissionsEnforced := true
  stations := ⟨[], some ⟨1⟩⟩
  devices := []
  shift := .absent
  qr := ⟨.fromKnown .separate⟩
  enabledChannels := none
  settledVoidWindow := .fromKnown .businessDate
  qrStaffConfirmationRequired := false
  reasonCodes :=
    ⟨[⟨reason, [.fromKnown .discount, .fromKnown .voidLine, .fromKnown .voidBill], true⟩]⟩
  fees := ⟨[]⟩

def env : Env where
  session := session
  now := ⟨0⟩
  businessDate := some ⟨0⟩
  isSuperseded := false
  authenticate := fun _ _ _ => .ok
  unmetGuard := fun _ _ => none
  receiptNumber := some 1
  chainHead := none

def ids : IdSource := ⟨id, strictMono_id⟩

/-- An amount that fits. -/
def dong (n : Int) (h : |n| ≤ 1000000) : Money :=
  .dong n (by have := neg_le_of_abs_le h; omega) (by have := le_of_abs_le h; omega)

/-- One of an item, at a price. -/
def line (price : Money) : Env.LineDraft where
  menuItemId := ⟨1⟩
  displayName := ⟨"Pho"⟩
  quantity := .one
  unitPrice := price
  lineTotal := price
  taxClassId := ⟨1⟩
  taxRate := TaxRate.tenth.asRatio
  seat := none
  courseId := none
  modifierMenuItemIds := []
  notePresent := false

/-- Commands in the store's one environment. -/
def inputs (commands : List Command) : List (Env × Command) :=
  commands.map fun command => (env, command)

/-- Where commands take the store, if they are all taken. -/
def after (commands : List Command) : Option Edge :=
  execute (Edge.step ids) (fun _ _ => true) (inputs commands) .initial

variable {commands : List Command} {command : Command}

/-- Commands that were all taken are a history. -/
theorem run_of_after {p : Edge → Bool} (h : (after commands).any p = true) :
    ∃ edge, Edge.Run ids (fun _ _ => True) .initial (inputs commands) edge ∧ p edge = true := by
  obtain ⟨edge, hafter, hp⟩ := (Option.any_eq_true _ _).1 h
  exact ⟨edge, (run_of_execute hafter).mono fun _ _ _ => trivial, hp⟩

/-- One more command after others, with what a property says of the projection it met, of the ids it
    took and of the projection it left. -/
def next (commands : List Command) (command : Command)
    (property : Projection → (Nat → Nat) → Projection → Bool) : Bool :=
  (after commands).any fun edge =>
    succeedsWith (command.plan env (edge.freshIds ids) edge.projection) fun plan =>
      succeedsWith (plan.apply edge.projection) (property edge.projection (edge.freshIds ids))

theorem exists_of_next
    {property : Projection → (Nat → Nat) → Projection → Bool}
    (h : next commands command property = true) :
    ∃ edge plan projection, Edge.Run ids (fun _ _ => True) .initial (inputs commands) edge ∧
      command.plan env (edge.freshIds ids) edge.projection = .ok plan ∧
      plan.apply edge.projection = .ok projection ∧
      property edge.projection (edge.freshIds ids) projection = true := by
  obtain ⟨edge, hrun, hedge⟩ := run_of_after h
  obtain ⟨plan, hplan, hnext⟩ := exists_of_succeedsWith hedge
  obtain ⟨projection, happly, hproperty⟩ := exists_of_succeedsWith hnext
  exact ⟨edge, plan, projection, hrun, hplan, happly, hproperty⟩

/-- One more command after others, with what a property says of the states before and after it. -/
theorem exists_step {p : Edge → Edge → Bool} (h : ((after commands).any fun edge =>
      succeedsWith (edge.step ids (env, command)) (p edge)) = true) :
    ∃ edge edge', Edge.Run ids (fun _ _ => True) .initial (inputs commands) edge ∧
      edge.step ids (env, command) = .ok edge' ∧ p edge edge' = true := by
  obtain ⟨edge, hrun, hedge⟩ := run_of_after h
  obtain ⟨edge', hstep, hp⟩ := exists_of_succeedsWith hedge
  exact ⟨edge, edge', hrun, hstep, hp⟩

/-- A party of two orders, asks for the bill, splits it, and one of them pays. -/
def splitAndPay : List Command :=
  [.seatTable actor table,
    .addLine actor table (line (.few 5)) false,
    .addLine actor table (line (.few 9)) false,
    .openBill actor table,
    .splitBill actor ⟨7⟩ [[⟨3⟩], [⟨5⟩]],
    .settleBill actor ⟨none, none⟩ ⟨9⟩
      [⟨.cash, .few 6, .few 6, .few 0⟩] false none]

end Trial

end PosFramework
