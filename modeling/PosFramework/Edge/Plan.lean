import PosFramework.Edge.Projection.Bills

set_option autoImplicit false

/-! # Plans

A command reads the projection and decides; it then appends its events in one transaction, changes
the projection and answers. What it decided is a `Plan`: the events, how many ids it took for them
and for what they name, the change and what the answer still has to compute. Ids are taken from
`ids` in the order the source takes them.

The drawer a command acts on and the shift an event is stamped with are read here as well. -/

namespace PosFramework

open Fallible

/-- What a command that is not refused does. -/
structure Plan where
  events : List Event
  /-- How many ids the command took. -/
  minted : Nat
  /-- The change to the projection, once the events are in the log. -/
  apply : Projection → Except DomainError Projection
  /-- What the answer computes from the changed projection, where that can fail. -/
  answer : Projection → Except AppError Unit := fun _ => .ok ()

/-! ## Events -/

/-- An event of the actor's, stamped with a shift. -/
def prepareOn (ctx : DecisionCtx) (id : Nat) (payload : Payload) (shift : Option ShiftId) :
    Event where
  eventId := ⟨id⟩
  eventTime := ctx.now
  businessDate := ctx.businessDate
  deviceId := ctx.actor.deviceId
  employeeId := some ctx.actor.employeeId
  shiftId := shift
  payload := payload

/-- The shift of the store's one drawer. -/
def Projection.currentShiftId (P : Projection) : Option ShiftId := P.openShiftOf none

/-- An event of the actor's, stamped with the shift of the store's one drawer. -/
def Projection.prepare (P : Projection) (ctx : DecisionCtx) (id : Nat) (payload : Payload) :
    Event :=
  prepareOn ctx id payload P.currentShiftId

/-- An event no employee is behind. -/
def Projection.systemPrepare (P : Projection) (deviceId : DeviceId) (now : Timestamp)
    (businessDate : BusinessDate) (id : Nat) (payload : Payload) : Event where
  eventId := ⟨id⟩
  eventTime := now
  businessDate := businessDate
  deviceId := deviceId
  employeeId := none
  shiftId := P.currentShiftId
  payload := payload

/-- What is recorded of an approval. -/
def overrideRecord (permission : Permission) (approver : EmployeeId) (exceededBy : Option Money) :
    Payload :=
  .securityPermissionOverridden permission.meta.id approver exceededBy

/-- The records of the step-ups that had an approver. -/
def overridePayloads (stepUps : List (Permission × Option EmployeeId)) : List Payload :=
  stepUps.filterMap fun stepUp => stepUp.2.map fun approver => overrideRecord stepUp.1 approver none

/-- The record of a step-up. -/
def Payload.isOverride : Payload → Bool
  | .securityPermissionOverridden _ _ _ => true
  | _ => false

theorem isOverride_of_mem_overridePayloads {stepUps : List (Permission × Option EmployeeId)}
    {payload : Payload} (h : payload ∈ overridePayloads stepUps) : payload.isOverride = true := by
  obtain ⟨stepUp, _, hstepUp⟩ := List.mem_filterMap.1 h
  obtain ⟨approver, _, rfl⟩ := Option.map_eq_some_iff.1 hstepUp
  rfl

/-- Events of the actor's on one shift, one id after another. -/
def prepareAll (ctx : DecisionCtx) (ids : Nat → Nat) (shift : Option ShiftId)
    (payloads : List Payload) : List Event :=
  payloads.mapIdx fun i payload => prepareOn ctx (ids i) payload shift

theorem mem_prepareAll {ctx : DecisionCtx} {ids : Nat → Nat} {shift : Option ShiftId}
    {payloads : List Payload} {event : Event} (h : event ∈ prepareAll ctx ids shift payloads) :
    event.payload ∈ payloads ∧ event.shiftId = shift := by
  obtain ⟨i, hi, rfl⟩ := List.mem_mapIdx.1 h
  exact ⟨List.getElem_mem hi, rfl⟩

/-- The ids from the `n`-th on. -/
def idsFrom (ids : Nat → Nat) (n : Nat) : Nat → Nat := fun i => ids (n + i)

/-! ## Drawers -/

/-- The till a device is, and the till a request names. -/
structure TillScope where
  own : Option DeviceId
  named : Option DeviceId

namespace Projection

variable (P : Projection) (env : Env)

/-- The model the open drawers were opened under, or the one in force. -/
def drawerModel : DrawerModel := P.openModel.getD env.session.shift.drawerModelInForce

/-- The shift a device's takings go to. -/
def drawerShift (scope : TillScope) : Option ShiftId :=
  if P.drawerModel env = .perTerminal then
    match scope.own with
    | some till => P.openShiftOf (some till)
    | none => none
  else P.openShiftOf none

/-- Whether a device is a till of the store. -/
def isPublishedTill (session : EdgeSession) (till : DeviceId) : Bool :=
  session.devices.any fun device => decide (device.deviceId = till) && device.isTill

/-- The drawer a device's cash goes to: its till's, or the store's one. -/
def cashDrawer (scope : TillScope) : Except AppError (Option DeviceId) :=
  if P.drawerModel env ≠ .perTerminal then .ok none
  else
    match scope.own with
    | some till => if isPublishedTill env.session till then .ok (some till) else .error .notATill
    | none => .error .notATill

/-- The drawer a request opens a shift on, and whether it is another till's. -/
def drawerNamed (scope : TillScope) : Except AppError (Option DeviceId × Bool) :=
  if P.drawerModel env ≠ .perTerminal then .ok (none, false)
  else do
    let till ← okOr .notATill (scope.named.or scope.own)
    refuseIf (isPublishedTill env.session till = false) .notATill
    pure (some till, decide (scope.own ≠ some till))

/-- Where the store says so, nothing is sold without an open shift. -/
def refuseWithoutOpenShift : Except AppError Unit :=
  refuseIf (env.session.shift.noShiftSellingInForce = .refuse ∧ P.openShifts.isEmpty = true)
    .openShiftRequired

/-- Where the store says so, a drawer takes no cash without one. -/
def refuseWithoutOpenDrawer (drawer : Option DeviceId) : Except AppError Unit :=
  refuseIf (env.session.shift.noShiftSellingInForce = .refuse ∧ P.openShiftOf drawer = none)
    .openShiftRequired

/-- The shift a drawer trades on, with its record. -/
def openShiftRecordOf (drawer : Option DeviceId) : Option (ShiftId × ShiftRecord) := do
  let shiftId ← P.openShiftOf drawer
  let record ← P.shift shiftId
  pure (shiftId, record)

end Projection

namespace Env

variable (env : Env)

/-- Whether a shift is still open past the business day it opened on. -/
def dayEnded (record : ShiftRecord) : Bool :=
  match env.businessDate with
  | none => false
  | some today => decide (record.state ≠ .closed) && decide (record.businessDate.day < today.day)

/-- Where the store says so, a drawer is closed at the end of its day. -/
def refuseAfterDayEnd (record : ShiftRecord) : Except AppError Unit :=
  refuseIf (env.session.shift.drawerDayEndInForce = .requireClose ∧ env.dayEnded record = true)
    .drawerDayEnded

/-- The approval to act on another till's drawer. -/
def manageOtherTill (ctx : DecisionCtx) (another : Bool) (approval : Option Approval) :
    Except AppError (Option EmployeeId × DecisionCtx) :=
  if another then do
    let (approver, ctx) ← env.resolveStepUp ctx .manageOtherTill approval
    let _ ← liftDomain (ctx.require .manageOtherTill)
    pure (approver, ctx)
  else .ok (none, ctx)

/-- Whether a drawer is assigned to somebody else than the actor. -/
def someoneElses (actor : Actor) (record : ShiftRecord) : Bool :=
  record.owner.any fun owner => decide (owner ≠ actor.employeeId)

/-- The approval to act on a drawer that is assigned to somebody else. -/
def overrideAssignment (ctx : DecisionCtx) (record : Option ShiftRecord)
    (approval : Option Approval) : Except AppError (Option EmployeeId × DecisionCtx) :=
  if record.any (someoneElses ctx.actor) then do
    refuseIf (approval = none ∧ ctx.grantedDirectly.contains .overrideDrawerAssignment = false)
      .drawerAssignedToAnother
    let (approver, ctx) ← env.resolveStepUp ctx .overrideDrawerAssignment approval
    let _ ← liftDomain (ctx.require .overrideDrawerAssignment)
    pure (approver, ctx)
  else .ok (none, ctx)

/-- Who a drawer's shift is assigned to, where the store assigns drawers. -/
def ownerOfStart (actor : Actor) (another : Bool) (assignee : Option EmployeeId) :
    Except AppError (Option EmployeeId) :=
  if env.session.shift.drawerAccessInForce ≠ .assigned then .ok none
  else if another = false then .ok (some actor.employeeId)
  else
    match assignee with
    | some person =>
      if (env.session.staff.permissionsFor person).isSome then .ok (some person)
      else .error .assigneeRequired
    | none => .error .assigneeRequired

/-- A drawer's open shift takes cash: not once it is counted, nor past its day, nor from somebody
    the drawer is not assigned to. -/
def openShiftTakesCash (ctx : DecisionCtx) (record : ShiftRecord) (approval : Option Approval) :
    Except AppError (Option EmployeeId × DecisionCtx) := do
  refuseIf (record.state = .counted) .drawerCounted
  env.refuseAfterDayEnd record
  env.overrideAssignment ctx (some record) approval

/-- Whoever let cash into a drawer that is not the actor's, where its shift is open. -/
def cashOverrider (ctx : DecisionCtx) (record : Option ShiftRecord) (approval : Option Approval) :
    Except AppError (Option EmployeeId × DecisionCtx) :=
  match record with
  | some record => env.openShiftTakesCash ctx record approval
  | none => .ok (none, ctx)

/-- The drawer cash is taken into, the shift it is stamped with and whoever approved it. -/
structure SettleDrawer where
  drawer : Option DeviceId
  shift : Option ShiftId
  overrider : Option EmployeeId

/-- The drawer that takes the cash. -/
def cashDrawerFor (P : Projection) (ctx : DecisionCtx) (scope : TillScope)
    (approval : Option Approval) : Except AppError (SettleDrawer × DecisionCtx) := do
  let drawer ← P.cashDrawer env scope
  P.refuseWithoutOpenDrawer env drawer
  let (overrider, ctx) ←
    env.cashOverrider ctx ((P.openShiftRecordOf drawer).map (·.2)) approval
  pure ({ drawer, shift := P.drawerShift env scope, overrider }, ctx)

/-- Cash needs a drawer; other tenders go to the open shift, if there is one. -/
def settleDrawer (P : Projection) (ctx : DecisionCtx) (scope : TillScope) (payments : List Payment)
    (approval : Option Approval) : Except AppError (SettleDrawer × DecisionCtx) :=
  if payments.any fun payment => decide (payment.method = .cash) then
    env.cashDrawerFor P ctx scope approval
  else do
    P.refuseWithoutOpenShift env
    pure ({ drawer := none, shift := P.drawerShift env scope, overrider := none }, ctx)

end Env

end PosFramework
