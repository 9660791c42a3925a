import PosFramework.Core.Billing.Settle
import PosFramework.Core.Inventory
import PosFramework.Core.Machines
import PosFramework.Core.Permission

set_option autoImplicit false

/-! # The decisions

What a command on a line, a bill, a shift or a table does, from the state it finds and the actor's
authority. A decision reads nothing and writes nothing: it is refused, or it answers the next state
and the effects to carry out. -/

namespace PosFramework

open Fallible

/-! ## The context of a decision -/

/-- Who gives a command, and on which device. -/
structure Actor where
  employeeId : EmployeeId
  deviceId : DeviceId

/-- What a decision is taken in. -/
structure DecisionCtx where
  now : Timestamp
  businessDate : BusinessDate
  actor : Actor
  /-- What the actor may do, an approver's permission included. -/
  granted : PermissionSet
  /-- What the actor may do without a PIN. -/
  grantedDirectly : PermissionSet
  capabilities : CapabilityContext
  currency : CurrencyCode

namespace DecisionCtx

/-- The actor needs a permission; whoever has it without a PIN needs none. -/
def require (ctx : DecisionCtx) (permission : Permission) : Except DomainError Grant := do
  let grant ← PosFramework.require permission ctx.granted
  pure ⟨grant.pinRequired && !ctx.grantedDirectly.contains permission⟩

/-- The store needs a capability. -/
def requireCapability (ctx : DecisionCtx) (capability : Capability) : Except DomainError Unit :=
  ctx.capabilities.require capability

/-- A permission whose PIN, where it asks for one, has been verified. -/
def requireWithPin (ctx : DecisionCtx) (permission : Permission) (pinVerified : Bool) :
    Except DomainError Unit := do
  let grant ← ctx.require permission
  refuseIf (grant.pinRequired && !pinVerified) permission.denied

end DecisionCtx

/-- What a decision asks for outside the log. -/
inductive Effect
  | printVoidTicket
  | recheckAvailability
  | printReceipt
  | printVoidBillSlip
  | printShiftReport

/-! ## Lines -/

/-- What is decided on a line. -/
structure LineDecision where
  nextState : OrderLineState
  stockMovements : List StockMovement
  effects : List Effect

/-- What may be asked of a line. -/
inductive LineCommand
  | hold
  | resume
  | fire (baseItem : MenuItemId) (modifiers : List MenuItemId) (quantity : Quantity)
      (course : Option CourseId)
  | void (pinVerified : Bool)
  | setQuantity (quantity : Quantity)

/-- A move of the line and nothing else. -/
def transitionOnly (current : OrderLineState) (trigger : LineTrigger) :
    Except DomainError LineDecision := do
  let nextState ← orderLineMachine.step current trigger
  pure { nextState, stockMovements := [], effects := [] }

/-- Firing by course needs the store to serve courses. -/
def DecisionCtx.requireCourses (ctx : DecisionCtx) (course : Option CourseId) :
    Except DomainError Unit :=
  if course.isSome then ctx.requireCapability .courses else .ok ()

/-- Who may void a line: a line the kitchen has started on is the fraud-sensitive case. -/
def DecisionCtx.requireVoidLine (ctx : DecisionCtx) (current : OrderLineState)
    (pinVerified : Bool) : Except DomainError Unit :=
  if current = .fired then ctx.requireWithPin .voidFiredLine pinVerified
  else (fun _ => ()) <$> ctx.require .addLine

/-- Whether a line may do what is asked: its state first, then the actor. -/
def decideLine (current : OrderLineState) (command : LineCommand) (ctx : DecisionCtx)
    (book : RecipeBook) : Except DomainError LineDecision :=
  match command with
  | .hold => do
    let decision ← transitionOnly current .hold
    let _ ← ctx.require .fireLines
    pure decision
  | .resume => do
    let decision ← transitionOnly current .resume
    let _ ← ctx.require .fireLines
    pure decision
  | .fire baseItem modifiers quantity course => do
    ctx.requireCourses course
    let nextState ← orderLineMachine.step current .fire
    let _ ← ctx.require .fireLines
    let stockMovements ← liftMoney (consumptionForFire baseItem modifiers quantity book .halfUp)
    pure { nextState, stockMovements, effects := [.recheckAvailability] }
  | .setQuantity _ => do
    let decision ← transitionOnly current .amend
    let _ ← ctx.require .addLine
    pure decision
  | .void pinVerified => do
    let nextState ← orderLineMachine.step current .void
    ctx.requireVoidLine current pinVerified
    pure { nextState, stockMovements := [],
           effects := if current = .fired then [.printVoidTicket] else [] }

/-! ## Bills -/

/-- What is decided on a bill. -/
structure BillDecision where
  nextState : BillState
  settlement : Option Settlement
  effects : List Effect

/-- A decision with nothing to settle and nothing to print. -/
def BillDecision.quiet (nextState : BillState) : BillDecision := ⟨nextState, none, []⟩

/-- What a void of a paid bill is decided on. -/
structure SettledVoid where
  pinVerified : Bool
  window : SettledVoidWindow
  billBusinessDate : BusinessDate
  takingShiftOpen : Bool
  eInvoiceIssued : Bool

/-- What may be asked of a bill. -/
inductive BillCommand
  | settle (totalDue : Money) (payments : List Payment)
  | void (pinVerified : Bool)
  | voidSettled (void : SettledVoid)
  | split (covers : List OrderLineId) (parts : List (List OrderLineId))
  | merge
  | reduce (kind : ReductionKind) (amount applied reducible : Money) (ceiling : Option Money)
      (pinVerified : Bool)
  | waiveFee (pinVerified : Bool)

/-- Whether the parts divide the lines a bill covers, and what is wrong where they do not. -/
def checkPartition (covers : List OrderLineId) (parts : List (List OrderLineId)) :
    Except DomainError Unit := do
  refuseIf (parts.length < 2) (.notAPartition .tooFewParts)
  refuseIf (parts.any List.isEmpty) (.notAPartition .emptyPart)
  let claimed := parts.flatten.insertionSort (· ≤ ·)
  let source := covers.insertionSort (· ≤ ·)
  -- before the comparison, so that a line of another bill is named as such
  refuseIf (∃ line ∈ claimed, line ∉ source) (.notAPartition .lineNotOnTheBill)
  refuseIf (claimed ≠ source) (.notAPartition .linesDoNotPartition)

/-- Whether an amount passes the ceiling; with no ceiling every amount does. -/
def overCeiling (amount : Money) (ceiling : Option Money) : Except DomainError Bool :=
  match ceiling with
  | none => .ok (!amount.isZero)
  | some ceiling => (·.isNegative) <$> liftMoney (ceiling.checkedSub amount)

/-- The permission a reduction needs; a void is none. -/
def reductionPermission (kind : ReductionKind) : Except DomainError Permission :=
  match kind with
  | .discount => .ok .applyDiscount
  | .comp => .ok .applyComp
  | .void | .unspecified => .error (.permissionDenied "billing.reduction.void")

/-- A discount past its ceiling also needs the permission to pass it. -/
def DecisionCtx.requireCeiling (ctx : DecisionCtx) (kind : ReductionKind) (amount : Money)
    (ceiling : Option Money) (pinVerified : Bool) : Except DomainError Unit :=
  if kind = .discount then do
    let passes ← overCeiling amount ceiling
    if passes then ctx.requireWithPin .overrideDiscountCeiling pinVerified else pure ()
  else .ok ()

/-- A reduction needs its permission, and an approval past the ceiling. -/
def requireReduction (ctx : DecisionCtx) (kind : ReductionKind) (amount : Money)
    (ceiling : Option Money) (pinVerified : Bool) : Except DomainError Unit := do
  let permission ← reductionPermission kind
  ctx.requireWithPin permission pinVerified
  ctx.requireCeiling kind amount ceiling pinVerified

/-- Reductions may take off a bill what its lines come to, and no more. -/
def refuseReductionsPast (applied amount reducible : Money) : Except DomainError Unit := do
  let total ← liftMoney (applied.checkedAdd amount)
  let left ← liftMoney (reducible.checkedSub total)
  refuseIf left.isNegative (.reductionExceedsBill total.amountMinor reducible.amountMinor)

/-- A tip needs the store to take tips; an untipped tender does not ask. -/
def DecisionCtx.requireTips (ctx : DecisionCtx) (payments : List Payment) :
    Except DomainError Unit :=
  if payments.any fun payment => !payment.tip.isZero then ctx.requireCapability .tips else .ok ()

/-- A bill is paid. -/
def decideSettle (current : BillState) (totalDue : Money) (payments : List Payment)
    (ctx : DecisionCtx) : Except DomainError BillDecision := do
  let nextState ← billMachine.step current .settle
  let _ ← ctx.require .takePayment
  ctx.requireTips payments
  let settlement ← settle totalDue payments
  pure { nextState, settlement := some settlement, effects := [.printReceipt] }

/-- Whether a paid bill may still be voided. -/
def withinSettledVoidWindow (window : SettledVoidWindow) (billBusinessDate today : BusinessDate)
    (takingShiftOpen : Bool) : Bool :=
  match window with
  | .shift => takingShiftOpen
  | .unspecified | .businessDate => decide (billBusinessDate = today)

/-- A paid bill is voided, within its window and before its e-invoice. -/
def decideSettledVoid (current : BillState) (void : SettledVoid) (ctx : DecisionCtx) :
    Except DomainError BillDecision := do
  let nextState ← billMachine.step current .voidSettled
  refuseIf
    (withinSettledVoidWindow void.window void.billBusinessDate ctx.businessDate
      void.takingShiftOpen = false)
    (.settledVoidWindowClosed void.window)
  refuseIf void.eInvoiceIssued .eInvoiceIssued
  ctx.requireWithPin .voidSettledBill void.pinVerified
  pure { nextState, settlement := none, effects := [.printVoidBillSlip] }

/-- Whether a bill may do what is asked. -/
def decideBill (current : BillState) (command : BillCommand) (ctx : DecisionCtx) :
    Except DomainError BillDecision :=
  match command with
  | .settle totalDue payments => decideSettle current totalDue payments ctx
  | .reduce kind amount applied reducible ceiling pinVerified => do
    let nextState ← billMachine.step current .reduce
    requireReduction ctx kind amount ceiling pinVerified
    refuseReductionsPast applied amount reducible
    pure (.quiet nextState)
  | .split covers parts => do
    let nextState ← billMachine.step current .split
    let _ ← ctx.require .splitBill
    checkPartition covers parts
    pure (.quiet nextState)
  | .merge => do
    let nextState ← billMachine.step current .merge
    let _ ← ctx.require .splitBill
    pure (.quiet nextState)
  | .void pinVerified => do
    let nextState ← billMachine.step current .void
    ctx.requireWithPin .voidBill pinVerified
    pure { nextState, settlement := none, effects := [.printVoidBillSlip] }
  | .voidSettled void => decideSettledVoid current void ctx
  | .waiveFee pinVerified => do
    let nextState ← billMachine.step current .reduce
    ctx.requireWithPin .waiveFee pinVerified
    pure (.quiet nextState)

/-! ## Shifts -/

/-- What is decided on a shift. -/
structure ShiftDecision where
  nextState : ShiftState
  effects : List Effect

/-- What may be asked of a shift. -/
inductive ShiftCommand
  | count (countedMinor : I64)
  | close

/-- Whether a shift may be counted or closed. -/
def decideShift (current : ShiftState) (command : ShiftCommand) (ctx : DecisionCtx) :
    Except DomainError ShiftDecision := do
  let _ ← ctx.require .closeShift
  match command with
  -- the decision does not read the counted figure, which is what keeps the close blind
  | .count _ => do
    let nextState ← shiftMachine.step current .count
    pure { nextState, effects := [] }
  | .close => do
    let nextState ← shiftMachine.step current .close
    pure { nextState, effects := [.printShiftReport] }

/-! ## Tables -/

/-- What is decided on a table. -/
structure TableDecision where
  nextState : TableState
  effects : List Effect

/-- What may be asked of a table. -/
inductive TableCommand
  | seat
  | requestBill
  | settle
  | clean
  | transfer
  | release

/-- The transition a command asks for. -/
def TableCommand.trigger : TableCommand → TableTrigger
  | .seat => .seat
  | .requestBill => .requestBill
  | .settle => .settle
  | .clean => .clean
  | .transfer => .transfer
  | .release => .release

/-- The permission a move of a table asks for; asking for the bill and paying it ask for none. -/
def TableCommand.permission : TableCommand → Option Permission
  | .transfer => some .transferOrder
  | .seat | .clean | .release => some .manageTables
  | .requestBill | .settle => none

/-- A table's command needs its permission, if it has one. -/
def DecisionCtx.requireForTable (ctx : DecisionCtx) (command : TableCommand) :
    Except DomainError Unit :=
  match command.permission with
  | some permission => (fun _ => ()) <$> ctx.require permission
  | none => .ok ()

/-- Whether a table may do what is asked. -/
def decideTable (current : TableState) (command : TableCommand) (ctx : DecisionCtx) :
    Except DomainError TableDecision := do
  ctx.requireCapability .tables
  let nextState ← tableMachine.step current command.trigger
  ctx.requireForTable command
  pure { nextState, effects := [] }

end PosFramework
