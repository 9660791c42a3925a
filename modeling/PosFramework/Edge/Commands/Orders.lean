import PosFramework.Edge.Plan

set_option autoImplicit false

/-! # Commands on tables, orders and lines

Each command is a function from its environment, the ids to come, the projection it reads and its
arguments to its plan, or its refusal. Checks stand in the order the source makes them. -/

namespace PosFramework

open Fallible Payload

namespace Env

variable (env : Env) (ids : Nat → Nat) (P : Projection)

/-! ## Tables -/

/-- A party is seated, and an order opened for it. -/
def seatTable (actor : Actor) (tableId : TableId) : Except AppError Plan := do
  env.refuseIfSuperseded
  P.refuseWithoutOpenShift env
  let ctx ← env.decisionCtx actor
  let decision ← liftDomain (decideTable (P.tableState tableId) .seat ctx)
  let orderId : OrderId := ⟨ids 0⟩
  pure
    { events :=
        [P.prepare ctx (ids 1) (.salesTableOpened tableId orderId),
          P.prepare ctx (ids 2)
            (.salesOrderOpened orderId (.fromKnown .dineIn) (some tableId))]
      minted := 3
      apply := fun P =>
        .ok (((P.setTable tableId decision.nextState).openOrder tableId orderId).openOrderOrigin
          orderId (some .dineIn) (some tableId)) }

/-- A table is free again. -/
def cleanTable (actor : Actor) (tableId : TableId) : Except AppError Plan := do
  let ctx ← env.decisionCtx actor
  let decision ← liftDomain (decideTable (P.tableState tableId) .clean ctx)
  pure
    { events := [P.prepare ctx (ids 0) (.salesTableClosed tableId)]
      minted := 1
      apply := fun P => .ok (P.setTable tableId decision.nextState) }

/-- Whether an order has something sold on it or a bill open. -/
def orderHolds (orderId : OrderId) : Bool :=
  !(P.soldLineIds orderId).isEmpty || (P.latestBillIn orderId .open).isSome

/-- An order a released table points at ends with it. -/
def closeIfAny (P : Projection) (orderId : Option OrderId) : Projection :=
  match orderId with
  | some orderId => P.closeOrder orderId
  | none => P

/-- A table whose order holds nothing is given back. -/
def releaseTable (actor : Actor) (tableId : TableId) : Except AppError Plan := do
  let ctx ← env.decisionCtx actor
  let decision ← liftDomain (decideTable (P.tableState tableId) .release ctx)
  let order := P.orderForTable tableId
  refuseIf (order.any (orderHolds P)) .orderNotEmpty
  let payloads :=
    (order.map fun orderId => salesOrderClosed orderId).toList ++
      [.salesTableClosed tableId]
  pure
    { events := prepareAll ctx ids P.currentShiftId payloads
      minted := payloads.length
      apply := fun P => .ok ((closeIfAny P order).setTable tableId decision.nextState) }

/-- A party moves to another table with its order. -/
def transferTable (actor : Actor) (fromTableId toTableId : TableId) : Except AppError Plan := do
  let ctx ← env.decisionCtx actor
  let order := P.orderForTable fromTableId
  let left ← liftDomain (decideTable (P.tableState fromTableId) .transfer ctx)
  let seated ← liftDomain (decideTable (P.tableState toTableId) .seat ctx)
  let orderId ← okOr .noOpenOrder order
  refuseIf (P.awaitsStaffConfirmation env.session orderId) .awaitingStaffConfirmation
  pure
    { events := [P.prepare ctx (ids 0) (.salesTableTransferred orderId fromTableId toTableId)]
      minted := 1
      apply := fun P =>
        .ok (((P.setTable fromTableId left.nextState).setTable toTableId seated.nextState).moveOrder
          orderId fromTableId toTableId) }

/-! ## Adding lines -/

/-- A line as a device prices it from the session's book. -/
structure LineDraft where
  menuItemId : MenuItemId
  displayName : DisplayName
  quantity : Quantity
  unitPrice : Money
  lineTotal : Money
  taxClassId : TaxClassId
  taxRate : Ratio
  seat : Option Nat
  courseId : Option CourseId
  modifierMenuItemIds : List MenuItemId
  notePresent : Bool

/-- A line as a request names it, for the store to price. -/
structure OrderLineChoice where
  menuItemId : MenuItemId
  quantity : Quantity
  modifierMenuItemIds : List MenuItemId
  seat : Option Nat
  courseId : Option CourseId
  notePresent : Bool

/-- An item that attaches no group takes any modifier; one that does takes only its groups'. -/
def checkModifiers (menu : MenuCatalog) (menuItemId : MenuItemId)
    (modifiers : List MenuItemId) : Except AppError Unit :=
  let groups := menu.groupsFor menuItemId
  if groups = [] then .ok ()
  else do
    refuseIf (∃ group ∈ groups, group.satisfiedBy modifiers = false) .modifierSelectionInvalid
    refuseIf (∃ chosen ∈ modifiers, ∀ group ∈ groups, chosen ∉ group.memberMenuItemIds)
      .modifierSelectionInvalid

/-- The names of the modifiers, or none at all where one is not on the book. -/
def modifierNames (menu : MenuCatalog) (modifiers : List MenuItemId) : List DisplayName :=
  (modifiers.mapM fun id => (menu.get id).map (·.displayName)).getD []

/-- Nothing that is asked for may be sold out. -/
def refuseSoldOut (menuItemId : MenuItemId) (modifiers : List MenuItemId) : Except AppError Unit :=
  refuseIf (∃ id ∈ menuItemId :: modifiers, id ∈ P.soldOut) .itemNotSellable

/-- A line for a seat needs the store to keep seats. -/
def requireSeats (ctx : DecisionCtx) (seat : Option Nat) : Except AppError Unit :=
  if seat.isSome then liftDomain (ctx.requireCapability .seats) else .ok ()

/-- A line is put on an order. -/
def appendLine (ctx : DecisionCtx) (orderId : OrderId) (draft : LineDraft)
    (modifierDisplayNames : List DisplayName) (hasNote : Bool) : Plan :=
  let orderLineId : OrderLineId := ⟨ids 0⟩
  let added : SalesOrderLineAdded :=
    { orderId
      orderLineId
      menuItemId := draft.menuItemId
      displayName := draft.displayName
      quantity := draft.quantity
      unitPrice := draft.unitPrice
      lineTotal := draft.lineTotal
      taxClassId := draft.taxClassId
      taxRate := draft.taxRate
      seat := draft.seat
      courseId := draft.courseId
      modifierMenuItemIds := draft.modifierMenuItemIds
      modifierDisplayNames
      notePresent := draft.notePresent || hasNote }
  { events := [P.prepare ctx (ids 1) (.salesOrderLineAdded added)]
    minted := 2
    apply := fun P => .ok (P.addLine orderLineId (.ofAdded added)) }

/-- A line is put on the order of a table. -/
def addLine (actor : Actor) (tableId : TableId) (draft : LineDraft) (hasNote : Bool) :
    Except AppError Plan := do
  let ctx ← env.decisionCtx actor
  let _ ← liftDomain (ctx.require .addLine)
  requireSeats ctx draft.seat
  refuseSoldOut P draft.menuItemId draft.modifierMenuItemIds
  checkModifiers env.session.menu draft.menuItemId draft.modifierMenuItemIds
  let names := modifierNames env.session.menu draft.modifierMenuItemIds
  let orderId ← okOr .noOpenOrder (P.orderForTable tableId)
  env.checkFlowGuard "sales.line.add" orderId
  refuseIf ((P.billForOrder orderId).isSome = true) .billAlreadyOpen
  pure (appendLine ids P ctx orderId draft names hasNote)

/-- A line is put on an order, at the store's price. -/
def addLineToOrder (actor : Actor) (orderId : OrderId) (choice : OrderLineChoice)
    (hasNote : Bool) : Except AppError Plan := do
  let ctx ← env.decisionCtx actor
  let _ ← liftDomain (ctx.require .addLine)
  requireSeats ctx choice.seat
  refuseSoldOut P choice.menuItemId choice.modifierMenuItemIds
  let origin ← okOr .unknownOrder (P.orderOrigin orderId)
  refuseIf (P.staffDecision orderId = some .rejected) .orderRejected
  refuseIf ((P.billForOrder orderId).isSome = true) .billAlreadyOpen
  env.checkFlowGuard "sales.line.add" orderId
  let channel := origin.channel.getD env.session.salesChannel
  let menu := env.session.menuFor channel
  let priced ← (repriceLine menu env.session.taxRates channel
    { menuItemId := choice.menuItemId, quantity := choice.quantity,
      modifierMenuItemIds := choice.modifierMenuItemIds, quotedUnitPrice := none }).mapError
    .fromReprice
  checkModifiers menu priced.menuItemId priced.modifierMenuItemIds
  pure (appendLine ids P ctx orderId
    { menuItemId := priced.menuItemId, displayName := priced.displayName,
      quantity := priced.quantity, unitPrice := priced.unitPrice, lineTotal := priced.lineTotal,
      taxClassId := priced.taxClassId, taxRate := priced.taxRate, seat := choice.seat,
      courseId := choice.courseId, modifierMenuItemIds := priced.modifierMenuItemIds,
      notePresent := choice.notePresent }
    priced.modifierDisplayNames hasNote)

/-! ## Changing lines -/

/-- Only a fired line needs a step-up to void. -/
def voidStepUp (ctx : DecisionCtx) (wasFired : Bool) (approval : Option Approval) :
    Except AppError (Option EmployeeId × DecisionCtx) :=
  if wasFired then env.resolveStepUp ctx .voidFiredLine approval else .ok (none, ctx)

/-- A line is voided. -/
def voidLine (actor : Actor) (orderLineId : OrderLineId) (reasonCodeId : ReasonCodeId)
    (approval : Option Approval) : Except AppError Plan := do
  let ctx ← env.decisionCtx actor
  let record ← okOr .unknownLine (P.line orderLineId)
  refuseIf (env.session.reasonCodes.accepts reasonCodeId .voidLine = false) .voidReasonNotValid
  let wasFired := decide (record.state = .fired)
  let (approver, ctx) ← env.voidStepUp ctx wasFired approval
  let decision ← liftDomain
    (decideLine record.state (.void approver.isSome) ctx env.session.recipes)
  let payloads :=
    .salesOrderLineVoided record.orderId orderLineId reasonCodeId wasFired ::
      overridePayloads [(.voidFiredLine, approver)]
  pure
    { events := prepareAll ctx ids P.currentShiftId payloads
      minted := payloads.length
      apply := fun P => .ok (P.setLineState orderLineId decision.nextState) }

/-- A line takes another quantity, at its unit price. -/
def setLineQuantity (actor : Actor) (orderLineId : OrderLineId) (quantity : Quantity) :
    Except AppError Plan := do
  let ctx ← env.decisionCtx actor
  let record ← okOr .unknownLine (P.line orderLineId)
  let _ ← liftDomain
    (decideLine record.state (.setQuantity quantity) ctx env.session.recipes)
  let lineTotal ← liftDomain (liftMoney (record.unitPrice.mulQuantity quantity .halfUp))
  pure
    { events := [P.prepare ctx (ids 0)
        (.salesOrderLineUpdated record.orderId orderLineId quantity lineTotal)]
      minted := 1
      apply := fun P => .ok (P.setLineQuantity orderLineId quantity lineTotal) }

/-! ## The kitchen -/

/-- An order reaches the kitchen once staff have let it. -/
def refuseUnlessFireable (orderId : OrderId) : Except AppError Unit :=
  match P.staffStanding env.session orderId with
  | .waiting => .error .awaitingStaffConfirmation
  | .refused => .error .orderRejected
  | .fireable => .ok ()

/-- A line to fire, the station it goes to and the state it moves to. -/
structure FiredLine where
  orderLineId : OrderLineId
  orderId : OrderId
  stationId : StationId
  nextState : OrderLineState

/-- Decide one line's firing. -/
def decideFire (ctx : DecisionCtx) (stationId : Option StationId) (course : Option CourseId)
    (entry : OrderLineId × LineRecord) : Except AppError FiredLine := do
  let (orderLineId, record) := entry
  let station ← okOr .unroutableLine
    ((env.session.resolveStation record.menuItemId record.courseId).or stationId)
  let decision ← liftDomain (decideLine record.state
    (.fire record.menuItemId record.modifierMenuItemIds record.quantity course) ctx
    env.session.recipes)
  pure { orderLineId, orderId := record.orderId, stationId := station,
         nextState := decision.nextState }

/-- The change a fired line makes. -/
def applyFired (now : Timestamp) (P : Projection) (fired : FiredLine) : Projection :=
  (P.setLineState fired.orderLineId fired.nextState).setFiredTime fired.orderLineId now
    fired.stationId

/-- What is recorded of a fired line. -/
def firedPayload (now : Timestamp) (fired : FiredLine) : Payload :=
  .salesOrderLineFired fired.orderId fired.orderLineId fired.stationId now

/-- One line goes to the kitchen. -/
def fireLine (actor : Actor) (orderLineId : OrderLineId) (stationId : Option StationId) :
    Except AppError Plan := do
  let ctx ← env.decisionCtx actor
  let record ← okOr .unknownLine (P.line orderLineId)
  env.refuseUnlessFireable P record.orderId
  -- the course being fired is none, whichever one the line belongs to
  let fired ← env.decideFire ctx stationId none (orderLineId, record)
  pure
    { events := [P.prepare ctx (ids 0) (firedPayload ctx.now fired)]
      minted := 1
      apply := fun P => .ok (applyFired ctx.now P fired) }

/-- The lines of an order, or of one of its courses, that have not been sent. -/
def unsentLines (orderId : OrderId) (course : Option CourseId) : List (OrderLineId × LineRecord) :=
  (P.unfiredLinesForOrder orderId).filter fun entry =>
    course.all fun course => decide (entry.2.courseId = some course)

/-- What was not sent of an order, or of a course, goes to the kitchen. -/
def fireUnsent (actor : Actor) (orderId : OrderId) (stationId : Option StationId)
    (course : Option CourseId) : Except AppError Plan := do
  let ctx ← env.decisionCtx actor
  liftDomain (ctx.requireCourses course)
  env.refuseUnlessFireable P orderId
  let fired ← (unsentLines P orderId course).mapM (env.decideFire ctx stationId course)
  pure
    { events := prepareAll ctx ids P.currentShiftId (fired.map (firedPayload ctx.now))
      minted := fired.length
      apply := fun P => .ok (fired.foldl (applyFired ctx.now) P) }

/-- An order goes to the kitchen. -/
def fireOrder (actor : Actor) (orderId : OrderId) (stationId : Option StationId) :
    Except AppError Plan := do
  env.checkFlowGuard "sales.order.fire" orderId
  env.fireUnsent ids P actor orderId stationId none

/-- A course goes to the kitchen. -/
def fireCourse (actor : Actor) (orderId : OrderId) (courseId : CourseId)
    (stationId : Option StationId) : Except AppError Plan := do
  env.checkFlowGuard "sales.course.fire" orderId
  env.fireUnsent ids P actor orderId stationId (some courseId)

/-! ## Orders that come in -/

/-- The order a guest's lines join on arrival, where the store joins them and nobody has to confirm
    them first. -/
def orderJoinedOnArrival (channel : Option SalesChannel) (tableId : Option TableId)
    (holdsForStaff : Bool) : Option OrderId :=
  if channel = some .qr ∧ env.session.qr.tableOrderInForce = .join ∧ holdsForStaff = false then
    tableId.bind fun tableId => P.joinableOrderAt env.session tableId none
  else none

/-- A priced line as an event of its order. -/
def lineAdded (orderId : OrderId) (orderLineId : OrderLineId) (priced : PricedLine)
    (notePresent : Bool) : SalesOrderLineAdded where
  orderId := orderId
  orderLineId := orderLineId
  menuItemId := priced.menuItemId
  displayName := priced.displayName
  quantity := priced.quantity
  unitPrice := priced.unitPrice
  lineTotal := priced.lineTotal
  taxClassId := priced.taxClassId
  taxRate := priced.taxRate
  seat := none
  courseId := none
  modifierMenuItemIds := priced.modifierMenuItemIds
  modifierDisplayNames := priced.modifierDisplayNames
  notePresent := notePresent

/-- The lines of an order that comes in: ids are taken for a line and for its event in turn, after
    the order's and its opening's. -/
def inboundLines (orderId : OrderId) (lines : List (PricedLine × Bool)) :
    List SalesOrderLineAdded :=
  lines.mapIdx fun i entry => lineAdded orderId ⟨ids (2 + 2 * i)⟩ entry.1 entry.2

/-- An order comes in from outside, with its lines. -/
def openInboundOrder (deviceId : DeviceId) (channel : Open SalesChannel)
    (tableId : Option TableId) (lines : List (PricedLine × Bool)) : Except AppError Plan := do
  env.refuseIfSuperseded
  let businessDate ← okOr .clock env.businessDate
  let orderChannel := channel.require?
  let holdsForStaff := env.session.holdsForStaffConfirmation orderChannel tableId
  let joins := env.orderJoinedOnArrival P orderChannel tableId holdsForStaff
  let orderId : OrderId := ⟨ids 0⟩
  let added := inboundLines ids orderId lines
  let prepare := P.systemPrepare deviceId env.now businessDate
  pure
    { events :=
        prepare (ids 1) (.salesOrderOpened orderId channel tableId) ::
          (added.mapIdx fun i line => prepare (ids (3 + 2 * i)) (.salesOrderLineAdded line)) ++
          (joins.map fun target =>
            prepare (ids (2 + 2 * lines.length)) (.salesTableMerged target orderId)).toList
      minted := 2 + 2 * lines.length + joins.toList.length
      apply := fun P => .ok (P.foldInboundOrder orderId orderChannel tableId
        (added.map fun line => (line.orderLineId, .ofAdded line)) joins) }

/-- An order is opened at the counter. -/
def openCounterOrder (actor : Actor) (channel : SalesChannel) : Except AppError Plan := do
  env.refuseIfSuperseded
  P.refuseWithoutOpenShift env
  let ctx ← env.decisionCtx actor
  let _ ← liftDomain (ctx.require .addLine)
  refuseIf (env.session.channelEnabled channel = false) .channelNotAccepted
  let orderId : OrderId := ⟨ids 0⟩
  pure
    { events := [P.prepare ctx (ids 1) (.salesOrderOpened orderId (.fromKnown channel) none)]
      minted := 2
      apply := fun P => .ok (P.openOrderOrigin orderId (some channel) none) }

/-- The order a guest's confirmed lines join, where the store joins them and they have no bill. -/
def orderJoinedOnConfirm (orderId : OrderId) : Option OrderId :=
  if env.session.qr.tableOrderInForce = .join ∧ P.billForOrder orderId = none then
    ((P.orderOrigin orderId).bind (·.tableId)).bind fun tableId =>
      P.joinableOrderAt env.session tableId (some orderId)
  else none

/-- An order's lines join another's, where there is one. -/
def mergeIfAny (P : Projection) (joins : Option OrderId) (orderId : OrderId) : Projection :=
  match joins with
  | some target => P.mergeOrder target orderId
  | none => P

/-- Staff take an order, which may join the one at its table. -/
def confirmInboundOrder (actor : Actor) (orderId : OrderId) : Except AppError Plan := do
  let ctx ← env.decisionCtx actor
  let _ ← liftDomain (ctx.require .confirmQrOrder)
  refuseIf (P.awaitsStaffConfirmation env.session orderId = false) .notAwaitingStaffConfirmation
  let joins := env.orderJoinedOnConfirm P orderId
  let payloads :=
    .salesOrderConfirmedByStaff orderId ::
      (joins.map fun target => salesTableMerged target orderId).toList
  pure
    { events := prepareAll ctx ids P.currentShiftId payloads
      minted := payloads.length
      apply := fun P => .ok (mergeIfAny (P.recordStaffDecision orderId .confirmed) joins orderId) }

/-- Staff refuse an order. -/
def rejectInboundOrder (actor : Actor) (orderId : OrderId) (reasonCodeId : ReasonCodeId) :
    Except AppError Plan := do
  let ctx ← env.decisionCtx actor
  let _ ← liftDomain (ctx.require .confirmQrOrder)
  refuseIf (P.awaitsStaffConfirmation env.session orderId = false) .notAwaitingStaffConfirmation
  refuseIf (env.session.reasonCodes.accepts reasonCodeId .rejectOrder = false) .reasonCodeNotValid
  refuseIf ((P.linesForOrder orderId).any fun line => decide (line.state = .fired)) .alreadyFired
  pure
    { events :=
        [P.prepare ctx (ids 0) (.salesOrderRejectedByStaff orderId reasonCodeId),
          P.prepare ctx (ids 1) (.salesOrderClosed orderId)]
      minted := 2
      apply := fun P => .ok ((P.recordStaffDecision orderId .rejected).closeOrder orderId) }

/-! ## Items sold out -/

/-- Mark an item sold out, or restore it; one already so marked writes nothing. -/
def setItemSoldOut (actor : Actor) (menuItemId : MenuItemId) (soldOut : Bool) :
    Except AppError Plan := do
  let ctx ← env.decisionCtx actor
  let _ ← liftDomain (ctx.require .markItemUnavailable)
  refuseIf (env.session.menuEntry menuItemId = none) .itemNotSellable
  let payloads :=
    if decide (menuItemId ∈ P.soldOut) = soldOut then []
    else [if soldOut then inventoryItemSoldOut menuItemId false
      else .inventoryItemRestored menuItemId]
  pure
    { events := prepareAll ctx ids P.currentShiftId payloads
      minted := payloads.length
      apply := fun P => .ok (if payloads = [] then P else P.setSoldOut menuItemId soldOut) }

end Env

end PosFramework
