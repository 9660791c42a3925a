import PosFramework.Core.Decision
import PosFramework.Core.Menu
import PosFramework.Edge.Records

set_option autoImplicit false

/-! # The session and the surroundings of a command

`EdgeSession` is the configuration in force while a command runs. `Env` adds what a command reads
beside it and beside the projection: the clock, whether this machine still opens new work, the
answer to an approver's PIN, the store's flow guards, the receipt authority and the head of the
log's chain. Each command of a run has an `Env` of its own, so a publish between two commands is one
more choice of environments. -/

namespace PosFramework

open Fallible

/-! ## Errors -/

/-- Why a command is refused. -/
inductive AppError
  | domain (error : DomainError)
  | port
  | clock
  | noOpenOrder
  | unknownLine
  | unroutableLine
  | unknownOrder
  | billAlreadyOpen
  | orderNotEmpty
  | nothingToBill
  | notSettled
  | receiptFromAnotherDay
  | unknownBill
  | billsOnDifferentTables
  | billsOnDifferentOrders
  | unknownShift
  | shiftAlreadyOpen
  | notATill
  | openShiftRequired
  | awaitingStaffConfirmation
  | notAwaitingStaffConfirmation
  | reasonCodeNotValid
  | orderRejected
  | alreadyFired
  | approvalRequired
  | approvalRefused
  | approverLockedOut
  | superseded
  | flowPrerequisiteUnmet (flowId stepId : String)
  | voidReasonNotValid
  | cashReasonNotValid
  | varianceReasonRequired (shifts : List ShiftId)
  | shiftNotOpen
  | drawerDayEnded
  | drawerCounted
  | drawerAssignedToAnother
  | assigneeRequired
  | countDoesNotAddUp
  | notTheShiftHandedOver
  | modifierSelectionInvalid
  | channelNotAccepted
  | itemNotSellable

/-- A domain result in the application's error type. -/
def liftDomain {α : Type} (x : Except DomainError α) : Except AppError α :=
  x.mapError AppError.domain

@[simp] theorem liftDomain_eq_ok {α : Type} {x : Except DomainError α} {a : α} :
    liftDomain x = .ok a ↔ x = .ok a :=
  mapError_eq_ok

/-- What a caller is told of a line that cannot be priced. -/
def AppError.fromReprice : RepriceError → AppError
  | .missingRate taxClassId salesChannel => .domain (.taxRateNotConfigured taxClassId salesChannel)
  | .money error => .domain (.money error)
  | .unknownItem _ | .unavailable _ => .itemNotSellable

/-! ## The roster -/

/-- What a member of staff may do. -/
structure StaffAuth where
  employeeId : Option EmployeeId
  permissions : PermissionSet
  permissionsWithApproval : PermissionSet
  discountCeiling : Option Money
  pinPhc : Option String

/-- The store's staff, in the order of their badge codes. -/
structure StaffRoster where
  byCode : List (String × StaffAuth)

namespace StaffRoster

variable (roster : StaffRoster)

def get (code : String) : Option StaffAuth :=
  (roster.byCode.find? fun entry => decide (entry.1 = code)).map (·.2)

/-- An employee's entry. -/
def member (employeeId : EmployeeId) : Option StaffAuth :=
  (roster.byCode.map (·.2)).find? fun auth => decide (auth.employeeId = some employeeId)

def permissionsFor (employeeId : EmployeeId) : Option PermissionSet :=
  (roster.member employeeId).map (·.permissions)

def permissionsWithApprovalFor (employeeId : EmployeeId) : PermissionSet :=
  ((roster.member employeeId).map (·.permissionsWithApproval)).getD .empty

def discountCeilingFor (employeeId : EmployeeId) : Option Money :=
  (roster.member employeeId).bind (·.discountCeiling)

/-- Whoever a code names, where they may sign in: their id, PIN hash and permissions. -/
def approver (code : String) : Option (EmployeeId × String × PermissionSet) := do
  let auth ← roster.get code
  let employeeId ← auth.employeeId
  let phc ← auth.pinPhc
  pure (employeeId, phc, auth.permissions)

end StaffRoster

/-! ## The session -/

/-- The configuration in force. -/
structure EdgeSession where
  granted : PermissionSet
  capabilities : CapabilityContext
  currency : CurrencyCode
  recipes : RecipeBook
  taxRates : TaxRateTable
  pricesIncludeTax : Bool
  cashRoundingIncrement : Option I64
  taxRounding : TaxRounding
  menu : MenuCatalog
  menuBook : MenuBook
  salesChannel : SalesChannel
  staff : StaffRoster
  permissionsEnforced : Bool
  stations : StationPlan
  devices : List PublishedDevice
  shift : PublishedShift
  qr : PublishedQr
  enabledChannels : Option (List SalesChannel)
  settledVoidWindow : Open SettledVoidWindow
  qrStaffConfirmationRequired : Bool
  reasonCodes : PublishedReasonCodes
  fees : PublishedFees

namespace EdgeSession

variable (session : EdgeSession)

/-- The price book of a channel: the session's own for its channel, and for one nothing prices. -/
def menuFor (channel : SalesChannel) : MenuCatalog :=
  let pricedHere := session.menuBook.channels.any (·.prices channel)
  if channel = session.salesChannel ∨
      (pricedHere = false ∧ session.menuBook.fallback.isEmpty = true) then session.menu
  else session.menuBook.catalogFor channel

/-- An item's entry on any of the store's books. -/
def menuEntry (menuItemId : MenuItemId) : Option MenuEntry :=
  (session.menu.get menuItemId).or <|
    (session.menuBook.channels.findSome? (·.catalog.get menuItemId)).or
      (session.menuBook.fallback.get menuItemId)

/-- Whether the store sells on a channel. -/
def channelEnabled (channel : SalesChannel) : Bool :=
  session.enabledChannels.all fun set => decide (channel ∈ set)

/-- Whether an order waits for staff: a guest's order at a table, where the store asks for it. -/
def holdsForStaffConfirmation (channel : Option SalesChannel) (tableId : Option TableId) : Bool :=
  decide (channel = some .qr) && tableId.isSome && session.qrStaffConfirmationRequired

/-- The station of an item. -/
def resolveStation (menuItemId : MenuItemId) (courseId : Option CourseId) : Option StationId :=
  routeStation session.stations menuItemId courseId

/-- How long a paid bill may be voided: within its business date, unless the store says shift. -/
def settledVoidWindowInForce : SettledVoidWindow :=
  match session.settledVoidWindow.known with
  | .unspecified | .businessDate => .businessDate
  | .shift => .shift

end EdgeSession

/-! ## The environment of a command -/

/-- A colleague's badge code and PIN, given to approve one act. -/
structure Approval where
  code : String
  pin : String

/-- The answer to a PIN. -/
inductive SignIn
  | ok
  | wrong (remaining : Nat)
  | lockedOut (untilMs : Int)

/-- The head of the log's hash chain. -/
structure ChainAnchor where
  seq : Nat
  head : String
  unchained : Nat

/-- What a command reads beside the projection. -/
structure Env where
  session : EdgeSession
  now : Timestamp
  /-- The day `now` falls on, where the store's time zone gives one. -/
  businessDate : Option BusinessDate
  /-- Whether another machine has taken this one's place. -/
  isSuperseded : Bool
  /-- What the lockout answers to an approver's PIN: whose, its hash and what was typed. -/
  authenticate : EmployeeId → String → String → SignIn
  /-- The flow step that has to come before an action on an order, where one does. -/
  unmetGuard : String → OrderId → Option (String × String)
  /-- The receipt number the authority allocates, unless it fails. -/
  receiptNumber : Option Nat
  /-- The head of the chain: unreadable, not there, or as it stands. -/
  chainHead : Option (Option ChainAnchor)

namespace Env

variable (env : Env)

def refuseIfSuperseded : Except AppError Unit := refuseIf env.isSuperseded .superseded

/-- An action waits for the steps its flow puts before it. -/
def checkFlowGuard (actionId : String) (orderId : OrderId) : Except AppError Unit :=
  match env.unmetGuard actionId orderId with
  | some (flowId, stepId) => .error (.flowPrerequisiteUnmet flowId stepId)
  | none => .ok ()

/-- What the actor holds: their own set where the store enforces it, else the store-wide one, in
    which nothing is held directly. -/
def grantsOf (employeeId : EmployeeId) : PermissionSet × PermissionSet :=
  if env.session.permissionsEnforced then
    let own := (env.session.staff.permissionsFor employeeId).getD .empty
    (own, own)
  else (env.session.granted, .empty)

/-- What the domain decides by. -/
def decisionCtx (actor : Actor) : Except AppError DecisionCtx := do
  let businessDate ← okOr .clock env.businessDate
  pure
    { now := env.now
      businessDate
      actor
      granted := (env.grantsOf actor.employeeId).1
      grantedDirectly := (env.grantsOf actor.employeeId).2
      capabilities := env.session.capabilities
      currency := env.session.currency }

/-- Whether an act needs an approver: not one held directly or, where the store does not enforce
    each person's set, one the catalogue flags no PIN for. -/
def needsApprover (ctx : DecisionCtx) (permission : Permission) : Except AppError Bool :=
  if env.session.permissionsEnforced then
    if ctx.grantedDirectly.contains permission then .ok false
    else do
      refuseIf ((env.session.staff.permissionsWithApprovalFor ctx.actor.employeeId).contains
        permission = false) (.domain permission.denied)
      pure true
  else .ok permission.meta.pinRequired

/-- The answer to the approver's PIN. -/
def checkPin (approver : EmployeeId) (phc pin : String) : Except AppError Unit :=
  match env.authenticate approver phc pin with
  | .ok => .ok ()
  | .wrong _ => .error .approvalRefused
  | .lockedOut _ => .error .approverLockedOut

/-- An approver's permission for one act. -/
def approve (ctx : DecisionCtx) (permission : Permission)
    (approval : Option Approval) : Except AppError EmployeeId := do
  let given ← okOr .approvalRequired approval
  let (approver, phc, held) ← okOr .approvalRefused (env.session.staff.approver given.code)
  env.checkPin approver phc given.pin
  refuseIf (held.contains permission = false) .approvalRefused
  -- approving is vouching for somebody else, once the store enforces each person's own set
  refuseIf (env.session.permissionsEnforced ∧ approver = ctx.actor.employeeId) .approvalRefused
  pure approver

/-- Resolve whether an act needs an approver, and who it was: with one, the act's context also holds
    the permission. -/
def resolveStepUp (ctx : DecisionCtx) (permission : Permission)
    (approval : Option Approval) : Except AppError (Option EmployeeId × DecisionCtx) := do
  let needed ← env.needsApprover ctx permission
  if needed then do
    let approver ← env.approve ctx permission approval
    pure (some approver, { ctx with granted := ctx.granted.insert permission })
  else pure (none, ctx)

end Env

end PosFramework
