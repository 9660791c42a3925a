import PosFramework.Edge.Plan

set_option autoImplicit false

/-! # Commands on shifts and drawers

A drawer's shift opens with a float, takes cash, is counted and is closed. Cash moves in and out of
an open shift only. -/

namespace PosFramework

open Fallible

namespace Env

variable (env : Env) (ids : Nat → Nat) (P : Projection)

/-- Events that may carry step-ups: the act's own and one for each approver, on one shift. -/
def approvedPayloads (payload : Payload) (stepUps : List (Permission × Option EmployeeId)) :
    List Payload :=
  payload :: overridePayloads stepUps

/-! ## Opening -/

/-- A shift is opened on a drawer, which may be handed over. -/
def openShift (actor : Actor) (scope : TillScope) (openingFloat : Money)
    (breakdown : CountBreakdown) (approval : Option Approval) (assignee : Option EmployeeId)
    (handedOverFrom : Option ShiftId) : Except AppError Plan := do
  refuseIf (breakdown.addsUpTo openingFloat = false) .countDoesNotAddUp
  env.refuseIfSuperseded
  let (till, another) ← P.drawerNamed env scope
  refuseIf ((P.openShiftOf till).isSome = true) .shiftAlreadyOpen
  refuseIf (handedOverFrom ≠ none ∧ handedOverFrom ≠ P.lastClosedOf till) .notTheShiftHandedOver
  let owner ← env.ownerOfStart actor another assignee
  let ctx ← env.decisionCtx actor
  let (approver, ctx) ← env.manageOtherTill ctx another approval
  let _ ← liftDomain (ctx.require .openShift)
  let opened : CashShiftOpened :=
    { openedShiftId := ⟨ids 0⟩
      openingFloat
      terminalDeviceId := till
      assignedEmployeeId := owner
      breakdown
      handedOverFromShiftId := handedOverFrom }
  let payloads := approvedPayloads (.cashShiftOpened opened) [(.manageOtherTill, approver)]
  pure
    { events := prepareAll ctx (idsFrom ids 1) P.currentShiftId payloads
      minted := 1 + payloads.length
      apply := fun P => .ok (P.openShiftRecord opened.openedShiftId
        (.ofOpened opened env.session.currency ctx.now ctx.businessDate)) }

/-! ## Counting -/

/-- Whether a shift is another till's than the device's own. -/
def anotherTill (scope : TillScope) (record : ShiftRecord) : Bool :=
  record.till.isSome && decide (scope.own ≠ record.till)

/-- A drawer is counted, blind. -/
def countShift (actor : Actor) (scope : TillScope) (shiftId : ShiftId) (countedMinor : I64)
    (breakdown : CountBreakdown) (approval : Option Approval) : Except AppError Plan := do
  let countedAmount : Money := ⟨env.session.currency, countedMinor⟩
  refuseIf (breakdown.addsUpTo countedAmount = false) .countDoesNotAddUp
  let ctx ← env.decisionCtx actor
  let record ← okOr .unknownShift (P.shift shiftId)
  let (approver, ctx) ← env.manageOtherTill ctx (anotherTill scope record) approval
  let (overrider, ctx) ← env.overrideAssignment ctx (some record) approval
  let decision ← liftDomain (decideShift record.state (.count countedMinor) ctx)
  let payloads := approvedPayloads
    (.cashShiftCounted shiftId countedAmount ctx.now breakdown)
    [(.manageOtherTill, approver), (.overrideDrawerAssignment, overrider)]
  pure
    { events := prepareAll ctx ids (some shiftId) payloads
      minted := payloads.length
      apply := fun P =>
        .ok (P.recordShiftCount shiftId countedAmount breakdown decision.nextState) }

/-! ## Closing -/

/-- What a shift's close records: what the drawer should hold, what was counted and the
    difference. -/
def closing (shiftId : ShiftId) (record : ShiftRecord) : Except DomainError CashShiftClosed := do
  let countedAmount := record.counted.getD (Money.zero env.session.currency)
  let expectedAmount ← record.expected
  let variance ← liftMoney (countedAmount.checkedSub expectedAmount)
  pure
    { closedShiftId := shiftId
      expectedAmount
      countedAmount
      variance
      terminalDeviceId := record.till
      reasonCodeId := none }

/-- Whether a drawer is over or short beyond the limit, at a store that has a reason to give. -/
def owesVarianceReason (variance : Money) : Bool :=
  let limit := env.session.shift.varianceReasonMinorInForce
  decide (0 < limit) && decide (limit < |variance.minor|) &&
    !(env.session.reasonCodes.forAction .cashVariance).isEmpty

/-- A reason for a variance, where the store accepts it. -/
def varianceReason (reason : ReasonCodeId) : Except AppError ReasonCodeId := do
  refuseIf (env.session.reasonCodes.accepts reason .cashVariance = false) .cashReasonNotValid
  pure reason

/-- A close with the reason its variance owes; nothing where it owes one and none is given. -/
def withVarianceReason (closed : CashShiftClosed) (reason : Option ReasonCodeId) :
    Except AppError (Option CashShiftClosed) :=
  if env.owesVarianceReason closed.variance then
    match reason with
    | none => .ok none
    | some reason => do
      let accepted ← env.varianceReason reason
      pure (some { closed with reasonCodeId := some accepted })
  else .ok (some closed)

/-- The head of the chain, recorded after a close, where the log has one. -/
def anchorChain (ctx : DecisionCtx) (id : Nat) : Except AppError (List Event) := do
  let head ← okOr .port env.chainHead
  pure <| (head.map fun anchor =>
    P.prepare ctx id (.storeChainAnchored anchor.seq anchor.head anchor.unchained)).toList

/-- A counted shift is closed, with a reason where it is off. -/
def closeShift (actor : Actor) (scope : TillScope) (shiftId : ShiftId)
    (approval : Option Approval) (reason : Option ReasonCodeId) : Except AppError Plan := do
  let ctx ← env.decisionCtx actor
  let record ← okOr .unknownShift (P.shift shiftId)
  let (approver, ctx) ← env.manageOtherTill ctx (anotherTill scope record) approval
  let (overrider, ctx) ← env.overrideAssignment ctx (some record) approval
  let _ ← liftDomain (decideShift record.state .close ctx)
  let closed ← liftDomain (env.closing shiftId record)
  let reasoned ← env.withVarianceReason closed reason
  let closed ← okOr (.varianceReasonRequired [shiftId]) reasoned
  let payloads := approvedPayloads (.cashShiftClosed closed)
    [(.manageOtherTill, approver), (.overrideDrawerAssignment, overrider)]
  let anchor ← env.anchorChain P ctx (ids payloads.length)
  pure
    { events := prepareAll ctx ids (some shiftId) payloads ++ anchor
      minted := payloads.length + anchor.length
      apply := fun P => .ok (P.closeShiftRecord shiftId) }

/-- The shifts a request names, each once, with their records. -/
def namedShifts (shiftIds : List ShiftId) : Except AppError (List (ShiftId × ShiftRecord)) :=
  (shiftIds.foldl (fun named id => if id ∈ named then named else named ++ [id]) []).mapM
    fun id => do
      let record ← okOr .unknownShift (P.shift id)
      pure (id, record)

/-- One of the closes of a batch: nothing where it still owes a reason. -/
def decideClose (ctx : DecisionCtx) (reasons : List (ShiftId × ReasonCodeId))
    (named : ShiftId × ShiftRecord) : Except AppError (Option CashShiftClosed) := do
  let _ ← liftDomain (decideShift named.2.state .close ctx)
  let closed ← liftDomain (env.closing named.1 named.2)
  env.withVarianceReason closed
    ((reasons.find? fun entry => decide (entry.1 = named.1)).map (·.2))

/-- The payloads of one of a batch's closes, with the shift they are stamped with. -/
def closePayloads (actor : Actor) (scope : TillScope) (approver overrider : Option EmployeeId)
    (named : (ShiftId × ShiftRecord) × CashShiftClosed) : List (ShiftId × Payload) :=
  let otherTill := if anotherTill scope named.1.2 then approver else none
  let assigned := if someoneElses actor named.1.2 then overrider else none
  (approvedPayloads (.cashShiftClosed named.2)
    [(.manageOtherTill, otherTill), (.overrideDrawerAssignment, assigned)]).map
      fun payload => (named.1.1, payload)

/-- The anchor after a batch of closes; a batch of none writes none. -/
def anchorBatch (ctx : DecisionCtx) (payloads : List (ShiftId × Payload)) :
    Except AppError (List Event) :=
  if payloads = [] then .ok [] else env.anchorChain P ctx (ids payloads.length)

/-- Shifts are closed together. -/
def closeShifts (actor : Actor) (scope : TillScope) (shiftIds : List ShiftId)
    (approval : Option Approval) (reasons : List (ShiftId × ReasonCodeId)) :
    Except AppError Plan := do
  let ctx ← env.decisionCtx actor
  let named ← namedShifts P shiftIds
  let (approver, ctx) ← env.manageOtherTill ctx
    (named.any fun entry => anotherTill scope entry.2) approval
  let (overrider, ctx) ← env.overrideAssignment ctx
    ((named.map (·.2)).find? (someoneElses actor)) approval
  let decided ← named.mapM (env.decideClose ctx reasons)
  let owing := (named.zip decided).filterMap fun entry =>
    if entry.2.isNone then some entry.1.1 else none
  refuseIf (owing ≠ []) (.varianceReasonRequired owing)
  let payloads := (named.zip (decided.filterMap id)).flatMap
    (closePayloads actor scope approver overrider)
  let anchor ← env.anchorBatch ids P ctx payloads
  pure
    { events :=
        (payloads.mapIdx fun i entry => prepareOn ctx (ids i) entry.2 (some entry.1)) ++ anchor
      minted := payloads.length + anchor.length
      apply := fun P => .ok (named.foldl (fun P entry => P.closeShiftRecord entry.1) P) }

/-! ## Cash -/

/-- The event of a movement; a paid in or out always carries its reason. -/
def movementPayload (movement : CashMovement) (amount : Money) (till : Option DeviceId)
    (reason : Option ReasonCodeId) (breakdown : CountBreakdown) : Option Payload :=
  match movement, reason with
  | .paidIn, some reason => some (.cashDrawerPaidIn amount reason till)
  | .paidOut, some reason => some (.cashDrawerPaidOut amount reason till)
  | .dropped, reason => some (.cashDrawerDropped amount till reason breakdown.denominationCounts)
  | .paidIn, none | .paidOut, none => none

/-- Cash goes into a drawer or out of it. -/
def moveCash (actor : Actor) (scope : TillScope) (shiftId : ShiftId) (movement : CashMovement)
    (amount : Money) (reason : Option ReasonCodeId) (breakdown : CountBreakdown)
    (approval : Option Approval) : Except AppError Plan := do
  let ctx ← env.decisionCtx actor
  let _ ← liftDomain (ctx.require .recordCashMovement)
  refuseIf (reason.any fun reason =>
    !env.session.reasonCodes.accepts reason movement.reasonAction) .cashReasonNotValid
  let drawer ← P.cashDrawer env scope
  let record ← okOr .unknownShift (P.shift shiftId)
  refuseIf (P.openShiftOf record.till ≠ some shiftId ∨ record.state ≠ .open ∨ record.till ≠ drawer)
    .shiftNotOpen
  env.refuseAfterDayEnd record
  let (overrider, ctx) ← env.overrideAssignment ctx (some record) approval
  let payload ← okOr .cashReasonNotValid
    (movementPayload movement amount record.till reason breakdown)
  let payloads := approvedPayloads payload [(.overrideDrawerAssignment, overrider)]
  pure
    { events := prepareAll ctx ids (some shiftId) payloads
      minted := payloads.length
      apply := fun P => P.recordMovement shiftId movement amount }

/-- Cash is paid in or out. -/
def recordCashMovement (actor : Actor) (scope : TillScope) (shiftId : ShiftId)
    (movement : CashMovement) (amount : Money) (reasonCodeId : ReasonCodeId)
    (approval : Option Approval) : Except AppError Plan :=
  env.moveCash ids P actor scope shiftId movement amount (some reasonCodeId) .none approval

/-- Counted cash goes to the safe. -/
def recordSafeDrop (actor : Actor) (scope : TillScope) (shiftId : ShiftId) (amount : Money)
    (breakdown : CountBreakdown) (reasonCodeId : Option ReasonCodeId)
    (approval : Option Approval) : Except AppError Plan := do
  refuseIf (breakdown.uncountedAmount ≠ none ∨ breakdown.addsUpTo amount = false)
    .countDoesNotAddUp
  env.moveCash ids P actor scope shiftId .dropped amount reasonCodeId breakdown approval

/-- A drawer is opened without a sale. -/
def openDrawerNoSale (actor : Actor) (scope : TillScope) (reasonCodeId : ReasonCodeId)
    (approval : Option Approval) : Except AppError Plan := do
  let ctx ← env.decisionCtx actor
  refuseIf (env.session.reasonCodes.accepts reasonCodeId .drawerOpen = false) .cashReasonNotValid
  let drawer ← P.cashDrawer env scope
  let (approver, ctx) ← env.resolveStepUp ctx .openDrawerNoSale approval
  let _ ← liftDomain (ctx.require .openDrawerNoSale)
  let shift := P.openShiftOf drawer
  let (overrider, ctx) ← env.overrideAssignment ctx (shift.bind P.shift) approval
  let payloads := approvedPayloads (.cashDrawerOpened true (some reasonCodeId) drawer)
    [(.openDrawerNoSale, approver), (.overrideDrawerAssignment, overrider)]
  pure
    { events := prepareAll ctx ids shift payloads
      minted := payloads.length
      apply := fun P => .ok P }

end Env

end PosFramework
