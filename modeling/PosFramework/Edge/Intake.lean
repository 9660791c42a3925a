import PosFramework.Edge.Run
import PosFramework.Lib.Slots
import PosFramework.Lib.Transition

set_option autoImplicit false

/-! # Orders from outside

An order that comes in from a marketplace, the public API or a guest is priced from the store's own
menu and opened in one transaction with a row of the intake ledger, whose key is the channel and the
caller's reference. A tableless order is then given a number of the day. A repeat is answered from
the ledger's row, with the number the order was given.

The order and its row are one transaction, its number another. A repeat that reads between the two
is answered without a number; so is every repeat, if the first submit is cut off there. -/

namespace PosFramework

open Fallible List Trial Function

/-! ## The order and its answer -/

/-- A line as it is submitted. -/
structure InboundOrderLine where
  menuItemId : MenuItemId
  quantity : Quantity
  modifierMenuItemIds : List MenuItemId
  quotedUnitPrice : Option Money
  /-- Whether there is a note for the kitchen. -/
  hasNote : Bool

/-- An order as it is submitted. -/
structure InboundOrder where
  externalReference : String
  salesChannel : Open SalesChannel
  storeId : StoreId
  tableId : Option TableId
  lines : List InboundOrderLine

/-- What a submit is answered. -/
structure OrderAcceptance where
  orderId : OrderId
  created : Bool
  queueNumber : Option Nat
  total : Money
  repriced : Bool
  awaitingStaffConfirmation : Bool

/-- A row of the intake ledger. -/
structure IntakeRecord where
  orderId : OrderId
  businessDate : BusinessDate
  total : Money
  repriced : Bool
  awaitingStaffConfirmation : Bool

/-- Why a submit is refused. -/
inductive IntakeError
  | noLines
  | otherStore
  | channelNotAccepted
  | qrOrderingOff
  | unknownItem (menuItemId : MenuItemId)
  | unavailable (menuItemId : MenuItemId)
  | missingRate
  | notPriced
  | totalOverflowed
  | recordMissing
  | app (error : AppError)

def SalesChannel.asWire : SalesChannel → String
  | .unspecified => "SALES_CHANNEL_UNSPECIFIED"
  | .dineIn => "SALES_CHANNEL_DINE_IN"
  | .takeaway => "SALES_CHANNEL_TAKEAWAY"
  | .delivery => "SALES_CHANNEL_DELIVERY"
  | .qr => "SALES_CHANNEL_QR"
  | .api => "SALES_CHANNEL_API"

/-- The token a channel came as. -/
def Open.channelToken : Open SalesChannel → String
  | .fromKnown channel => channel.asWire
  | .unrecognised raw => raw

/-- What a caller's order is recognised by: the channel's token and the caller's reference. -/
structure IntakeKey where
  salesChannel : String
  externalReference : String
deriving DecidableEq

def InboundOrder.key (order : InboundOrder) : IntakeKey :=
  ⟨order.salesChannel.channelToken, order.externalReference⟩

/-! ## Pricing -/

def intakeErrorOfReprice : RepriceError → IntakeError
  | .unknownItem menuItemId => .unknownItem menuItemId
  | .unavailable menuItemId => .unavailable menuItemId
  | .missingRate _ _ => .missingRate
  | .money _ => .notPriced

/-- Of an item and its modifiers the first that staff marked sold out. -/
def Projection.firstSoldOut (P : Projection) (menuItemId : MenuItemId)
    (modifierMenuItemIds : List MenuItemId) : Option MenuItemId :=
  (menuItemId :: modifierMenuItemIds).find? fun id => P.soldOut.contains id

/-- What was priced so far. -/
structure PricedOrder where
  lines : List (PricedLine × Bool)
  total : Money
  repriced : Bool

/-- One line more: it is priced, refused if something of it is sold out, and joins the total. -/
def priceLine (session : EdgeSession) (P : Projection) (channel : SalesChannel)
    (priced : PricedOrder) (line : InboundOrderLine) : Except IntakeError PricedOrder := do
  let requested : RequestedLine :=
    ⟨line.menuItemId, line.quantity, line.modifierMenuItemIds, line.quotedUnitPrice⟩
  let pricedLine ← (repriceLine (session.menuFor channel) session.taxRates channel
    requested).mapError intakeErrorOfReprice
  match P.firstSoldOut line.menuItemId line.modifierMenuItemIds with
  | some soldOut => .error (.unavailable soldOut)
  | none =>
    let total ← (priced.total.checkedAdd pricedLine.lineTotal).mapError fun _ => .totalOverflowed
    pure
      { lines := priced.lines ++ [(pricedLine, line.hasNote)]
        total := total
        repriced := priced.repriced || pricedLine.repriced }

/-- Every line at the store's price. -/
def priceLines (session : EdgeSession) (P : Projection) (channel : SalesChannel)
    (order : InboundOrder) : Except IntakeError PricedOrder :=
  order.lines.foldlM (priceLine session P channel) ⟨[], .zero session.currency, false⟩

/-- An order names lines and this store. -/
def refuseMisaddressed (order : InboundOrder) (storeId : StoreId) : Except IntakeError Unit := do
  refuseIf (order.lines.isEmpty) .noLines
  refuseIf (order.storeId ≠ storeId) .otherStore

/-- `switchedOff` says whether the store's configuration switches QR ordering off. -/
def refuseClosedChannel (session : EdgeSession) (switchedOff : Bool) (channel : SalesChannel) :
    Except IntakeError Unit := do
  refuseIf (session.channelEnabled channel = false) .channelNotAccepted
  refuseIf (channel = .qr ∧ switchedOff) .qrOrderingOff

/-! ## The day's numbers -/

/-- The tables `queue_counter` and `queue_allocations`. A day's counter begins at one. -/
structure QueueNumbers where
  nextNumber : BusinessDate → Nat
  queueNumberFor : OrderId → Option Nat

namespace QueueNumbers

def empty : QueueNumbers := ⟨fun _ => 1, fun _ => none⟩

/-- The order's number, or the day's next one if it has none. -/
def allocateQueueNumber (queue : QueueNumbers) (businessDate : BusinessDate) (orderId : OrderId) :
    Nat × QueueNumbers :=
  match queue.queueNumberFor orderId with
  | some number => (number, queue)
  | none =>
    let number := queue.nextNumber businessDate
    (number,
      { nextNumber := update queue.nextNumber businessDate (number + 1)
        queueNumberFor := update queue.queueNumberFor orderId (some number) })

/-- The number is the order's from then on. -/
theorem queueNumberFor_allocate (queue : QueueNumbers) (businessDate : BusinessDate)
    (orderId : OrderId) :
    (queue.allocateQueueNumber businessDate orderId).2.queueNumberFor orderId =
      some (queue.allocateQueueNumber businessDate orderId).1 := by
  unfold allocateQueueNumber
  cases hnumber : queue.queueNumberFor orderId with
  | some => exact hnumber
  | none => exact update_self _ _ _

/-- A number that was given stays. -/
theorem queueNumberFor_allocate_of_some {queue : QueueNumbers} {another : OrderId} {number : Nat}
    (h : queue.queueNumberFor another = some number) (businessDate : BusinessDate)
    (orderId : OrderId) :
    (queue.allocateQueueNumber businessDate orderId).2.queueNumberFor another = some number := by
  unfold allocateQueueNumber
  cases hnumber : queue.queueNumberFor orderId with
  | some held => exact h
  | none =>
    have hne : another ≠ orderId := by
      rintro rfl
      rw [hnumber] at h
      contradiction
    exact (update_of_ne hne _ _).trans h

end QueueNumbers

/-- A number as the answer carries it. -/
def queueNumberOf (number : Nat) : Nat := min number 4294967295

/-! ## Submits that overlap -/

/-- Where a submit is. -/
inductive SubmitPhase
  /-- About to look for the reference's row. -/
  | lookingUp
  /-- There was none: about to price and open the order. -/
  | opening
  /-- Another submit opened it first: about to look for its row. -/
  | lost
  /-- About to read the number of the order a row names. -/
  | reading (record : IntakeRecord)
  /-- Has opened the order, and is about to number it. -/
  | numbering (record : IntakeRecord)
  | answered (acceptance : OrderAcceptance)
  | refused (error : IntakeError)
  | cutOff

/-- A submit under way. -/
structure Submit where
  order : InboundOrder
  phase : SubmitPhase

namespace Submit

/-- The order that the submit has opened and not numbered yet. -/
def numbers (submit : Submit) : Option OrderId :=
  match submit.phase with
  | .numbering record => some record.orderId
  | .lookingUp | .opening | .lost | .reading _ | .answered _ | .refused _ | .cutOff => none

/-- The order whose number the submit is about to read. -/
def reads (submit : Submit) : Option OrderId :=
  match submit.phase with
  | .reading record => some record.orderId
  | .lookingUp | .opening | .lost | .numbering _ | .answered _ | .refused _ | .cutOff => none

def answer? (submit : Submit) : Option OrderAcceptance :=
  match submit.phase with
  | .answered acceptance => some acceptance
  | .lookingUp | .opening | .lost | .reading _ | .numbering _ | .refused _ | .cutOff => none

end Submit

/-- The intake of one store: its log, the ledger, the day's numbers, the orders opened so far with
    the references they were opened for, and the submits. -/
structure IntakeDesk where
  storeId : StoreId
  log : List Event
  ledger : List (IntakeKey × IntakeRecord)
  queue : QueueNumbers
  opened : List (IntakeKey × OrderId)
  submits : List Submit

/-- One transaction of a submit, or its end. -/
inductive IntakeCall
  | submit (order : InboundOrder)
  | lookUp (i : Nat)
  /-- Price the order and open it, in the store as it is then. -/
  | openOrder (i : Nat) (env : Env) (P : Projection) (ids : Nat → Nat) (deviceId : DeviceId)
      (switchedOff : Bool)
  | readNumber (i : Nat)
  | allocate (i : Nat)
  /-- The submit goes no further: its next step fails, or the machine stops. -/
  | cutOff (i : Nat)

namespace IntakeDesk

def started (storeId : StoreId) : IntakeDesk := ⟨storeId, [], [], .empty, [], []⟩

variable (desk : IntakeDesk)

/-- The row of a key. -/
def lookUpIntake (key : IntakeKey) : Option IntakeRecord :=
  (desk.ledger.find? (·.1 = key)).map (·.2)

/-- Let a submit go on in another phase. -/
def advance (i : Nat) (order : InboundOrder) (phase : SubmitPhase) : IntakeDesk :=
  { desk with submits := desk.submits.set i ⟨order, phase⟩ }

/-- The events and the row in one transaction. A row that is there already undoes it. -/
def commitInbound (key : IntakeKey) (record : IntakeRecord) (events : List Event) :
    Option IntakeDesk :=
  if key ∈ desk.ledger.map (·.1) then none
  else some { desk with
    log := desk.log ++ events
    ledger := desk.ledger ++ [(key, record)]
    opened := desk.opened ++ [(key, record.orderId)] }

/-- What a submit decides before it writes: the events and the row. -/
def prepareInbound (order : InboundOrder) (env : Env) (P : Projection) (ids : Nat → Nat)
    (deviceId : DeviceId) (switchedOff : Bool) :
    Except IntakeError (IntakeRecord × List Event) := do
  let channel := order.salesChannel.known
  refuseClosedChannel env.session switchedOff channel
  let priced ← priceLines env.session P channel order
  let plan ← (env.openInboundOrder ids P deviceId order.salesChannel order.tableId
    priced.lines).mapError .app
  let businessDate ← okOr (.app .clock) env.businessDate
  pure
    ({ orderId := ⟨ids 0⟩
       businessDate := businessDate
       total := priced.total
       repriced := priced.repriced
       awaitingStaffConfirmation :=
        env.session.holdsForStaffConfirmation order.salesChannel.require? order.tableId },
      plan.events)

/-- The acceptance a row stands for. -/
def acceptanceFromRecord (record : IntakeRecord) (created : Bool) : OrderAcceptance where
  orderId := record.orderId
  created := created
  queueNumber := (desk.queue.queueNumberFor record.orderId).map queueNumberOf
  total := record.total
  repriced := record.repriced
  awaitingStaffConfirmation := record.awaitingStaffConfirmation

/-- What a call does. -/
def step : IntakeCall → IntakeDesk
  | .submit order =>
    let phase := match refuseMisaddressed order desk.storeId with
      | .ok () => .lookingUp
      | .error error => .refused error
    { desk with submits := desk.submits ++ [⟨order, phase⟩] }
  | .lookUp i =>
    match desk.submits[i]? with
    | some ⟨order, .lookingUp⟩ =>
      match desk.lookUpIntake order.key with
      | some record => desk.advance i order (.reading record)
      | none => desk.advance i order .opening
    | some ⟨order, .lost⟩ =>
      match desk.lookUpIntake order.key with
      | some record => desk.advance i order (.reading record)
      | none => desk.advance i order (.refused .recordMissing)
    | _ => desk
  | .openOrder i env P ids deviceId switchedOff =>
    match desk.submits[i]? with
    | some ⟨order, .opening⟩ =>
      match prepareInbound order env P ids deviceId switchedOff with
      | .error error => desk.advance i order (.refused error)
      | .ok (record, events) =>
        match desk.commitInbound order.key record events with
        | some desk => desk.advance i order (.numbering record)
        | none => desk.advance i order .lost
    | _ => desk
  | .readNumber i =>
    match desk.submits[i]? with
    | some ⟨order, .reading record⟩ =>
      desk.advance i order (.answered (desk.acceptanceFromRecord record false))
    | _ => desk
  | .allocate i =>
    match desk.submits[i]? with
    | some ⟨order, .numbering record⟩ =>
      let acceptance := fun number : Option Nat => SubmitPhase.answered
        ⟨record.orderId, true, number.map queueNumberOf, record.total, record.repriced,
          record.awaitingStaffConfirmation⟩
      match order.tableId with
      | some _ => desk.advance i order (acceptance none)
      | none =>
        let (number, queue) :=
          desk.queue.allocateQueueNumber record.businessDate record.orderId
        { desk with queue := queue }.advance i order (acceptance (some number))
    | _ => desk
  | .cutOff i =>
    match desk.submits[i]? with
    | some ⟨order, .answered acceptance⟩ => desk.advance i order (.answered acceptance)
    | some ⟨order, _⟩ => desk.advance i order .cutOff
    | none => desk

abbrev Run (allowed : IntakeDesk → IntakeCall → Prop) :
    IntakeDesk → List IntakeCall → IntakeDesk → Prop :=
  Transition.Run (ε := Empty) (fun call desk => .ok (desk.step call)) allowed

/-- The orders that come in name no table. -/
def Tableless (_ : IntakeDesk) : IntakeCall → Prop
  | .submit order => order.tableId = none
  | .lookUp _ | .openOrder _ _ _ _ _ _ | .readNumber _ | .allocate _ | .cutOff _ => True

instance (desk : IntakeDesk) : (call : IntakeCall) → Decidable (desk.Tableless call)
  | .submit order => inferInstanceAs (Decidable (order.tableId = none))
  | .lookUp _ | .openOrder _ _ _ _ _ _ | .readNumber _ | .allocate _ | .cutOff _ =>
    inferInstanceAs (Decidable True)

/-- No submit is cut off between opening its order and numbering it, and none reads an order's
    number while another is there with that order. -/
def NumberedWhole : IntakeCall → Prop
  | .cutOff i => ∀ submit ∈ desk.submits[i]?, submit.numbers = none
  | .readNumber i => ∀ submit ∈ desk.submits[i]?, ∀ orderId ∈ submit.reads,
      ∀ another ∈ desk.submits, another.numbers ≠ some orderId
  | .submit _ | .lookUp _ | .openOrder _ _ _ _ _ _ | .allocate _ => True

instance (desk : IntakeDesk) : (call : IntakeCall) → Decidable (desk.NumberedWhole call)
  | .cutOff i => inferInstanceAs (Decidable (∀ submit ∈ desk.submits[i]?, submit.numbers = none))
  | .readNumber i => inferInstanceAs (Decidable (∀ submit ∈ desk.submits[i]?,
      ∀ orderId ∈ submit.reads, ∀ another ∈ desk.submits, another.numbers ≠ some orderId))
  | .submit _ | .lookUp _ | .openOrder _ _ _ _ _ _ | .allocate _ => inferInstanceAs (Decidable True)

end IntakeDesk

/-! ## What a run keeps -/

/-- What a submit has in hand is what the tables say. -/
def Submit.Holds (ledger : List (IntakeKey × IntakeRecord)) (queue : QueueNumbers)
    (submit : Submit) :
    Prop :=
  submit.order.tableId = none ∧
    match submit.phase with
    | .reading record | .numbering record => (submit.order.key, record) ∈ ledger
    | .answered acceptance => ∃ record, (submit.order.key, record) ∈ ledger ∧
        acceptance.orderId = record.orderId ∧ acceptance.total = record.total ∧
        ∃ number, queue.queueNumberFor record.orderId = some number ∧
          acceptance.queueNumber = some (queueNumberOf number)
    | .lookingUp | .opening | .lost | .refused _ | .cutOff => True

/-- The tables only grow. -/
theorem Submit.Holds.mono {ledger ledger' : List (IntakeKey × IntakeRecord)}
    {queue queue' : QueueNumbers} {submit : Submit} (h : submit.Holds ledger queue)
    (hledger : ledger ⊆ ledger')
    (hqueue : ∀ orderId number, queue.queueNumberFor orderId = some number →
      queue'.queueNumberFor orderId = some number) : submit.Holds ledger' queue' := by
  obtain ⟨htableless, hphase⟩ := h
  refine ⟨htableless, ?_⟩
  obtain ⟨order, phase⟩ := submit
  cases phase with
  | lookingUp | opening | lost | refused error | cutOff => trivial
  | reading record | numbering record => exact hledger hphase
  | answered =>
    obtain ⟨record, hmem, horder, htotal, number, hnumber, hanswer⟩ := hphase
    exact ⟨record, hledger hmem, horder, htotal, number, hqueue _ _ hnumber, hanswer⟩

namespace IntakeDesk

/-- One order to a reference; every order is numbered, or a submit is about to number it. -/
structure Consistent (desk : IntakeDesk) : Prop where
  keys : (desk.ledger.map (·.1)).Nodup
  opened : desk.opened = desk.ledger.map fun row => (row.1, row.2.orderId)
  numbered : ∀ row ∈ desk.ledger, desk.queue.queueNumberFor row.2.orderId ≠ none ∨
    ∃ submit ∈ desk.submits, submit.numbers = some row.2.orderId
  phases : ∀ submit ∈ desk.submits, submit.Holds desk.ledger desk.queue

namespace Consistent

variable {desk : IntakeDesk} {i : Nat} {submit : Submit} {order : InboundOrder}
    {phase : SubmitPhase}
  {record : IntakeRecord} {key : IntakeKey}

/-- A submit goes on. If it was about to number an order, the order is numbered. -/
theorem advance (h : desk.Consistent) (hget : desk.submits[i]? = some submit)
    (hholds : Submit.Holds desk.ledger desk.queue ⟨order, phase⟩)
    (hnumbers : ∀ orderId, submit.numbers = some orderId →
      desk.queue.queueNumberFor orderId ≠ none) : (desk.advance i order phase).Consistent where
  keys := h.keys
  opened := h.opened
  numbered row hrow := by
    rcases h.numbered row hrow with hnumber | ⟨another, hanother, hnumbering⟩
    · exact .inl hnumber
    · by_cases hsame : another = submit
      · exact .inl (hnumbers _ (hsame ▸ hnumbering))
      · exact .inr ⟨another, Slots.mem_set_of_ne hget hanother hsame, hnumbering⟩
  phases := Slots.forall_mem_set h.phases hholds

theorem tableless (h : desk.Consistent) (hget : desk.submits[i]? = some ⟨order, phase⟩) :
    order.tableId = none :=
  (h.phases _ (mem_of_getElem? hget)).1

/-- Nothing is known of a submit that begins, except that it names no table. -/
theorem arrive (h : desk.Consistent) (htableless : order.tableId = none)
    (hphase : phase = .lookingUp ∨ ∃ error, phase = .refused error) :
    Consistent { desk with submits := desk.submits ++ [⟨order, phase⟩] } where
  keys := h.keys
  opened := h.opened
  numbered row hrow := by
    rcases h.numbered row hrow with hnumber | ⟨another, hanother, hnumbering⟩
    · exact .inl hnumber
    · exact .inr ⟨another, mem_append_left _ hanother, hnumbering⟩
  phases another hanother := by
    rcases mem_append.1 hanother with hold | hnew
    · exact h.phases another hold
    · obtain rfl := mem_singleton.1 hnew
      rcases hphase with rfl | ⟨error, rfl⟩ <;> exact ⟨htableless, trivial⟩

theorem mem_ledger_of_lookUpIntake (h : desk.lookUpIntake key = some record) :
    (key, record) ∈ desk.ledger := by
  obtain ⟨row, hrow, rfl⟩ := Option.map_eq_some_iff.1 h
  have hkey : row.1 = key := by simpa using find?_some hrow
  rw [← hkey]
  exact mem_of_find?_eq_some hrow

/-- A submit that finds its reference's row reads the order's number next. -/
theorem lookUp (h : desk.Consistent) (hget : desk.submits[i]? = some ⟨order, phase⟩)
    (hphase : phase = .lookingUp ∨ phase = .lost) {absent : SubmitPhase}
    (habsent : absent = .opening ∨ absent = .refused .recordMissing) :
    (match desk.lookUpIntake order.key with
      | some record => desk.advance i order (.reading record)
      | none => desk.advance i order absent).Consistent := by
  have hnumbers : ∀ orderId, Submit.numbers ⟨order, phase⟩ = some orderId →
      desk.queue.queueNumberFor orderId ≠ none := by
    intro orderId hnumbering
    rcases hphase with rfl | rfl <;> cases hnumbering
  cases hrecord : desk.lookUpIntake order.key with
  | some =>
    exact h.advance hget ⟨h.tableless hget, mem_ledger_of_lookUpIntake hrecord⟩ hnumbers
  | none =>
    rcases habsent with rfl | rfl <;> exact h.advance hget ⟨h.tableless hget, trivial⟩ hnumbers

/-- An order is opened with its row, by a submit that is then about to number it. -/
theorem openOrder (h : desk.Consistent) (hget : desk.submits[i]? = some ⟨order, .opening⟩)
    {events : List Event} {after : IntakeDesk}
    (hcommit : desk.commitInbound order.key record events = some after) :
    (after.advance i order (.numbering record)).Consistent := by
  unfold commitInbound at hcommit
  split at hcommit
  · contradiction
  · rename_i hnew
    obtain rfl := Option.some.inj hcommit
    have hmono : desk.ledger ⊆ desk.ledger ++ [(order.key, record)] := subset_append_left _ _
    refine ⟨?_, ?_, fun row hrow => ?_, Slots.forall_mem_set (fun submit hsubmit => ?_) ?_⟩
    · change ((desk.ledger ++ [(order.key, record)]).map (·.1)).Nodup
      rw [map_append]
      refine h.keys.append (nodup_singleton _) fun key hkey hsame => ?_
      rw [map_singleton, mem_singleton] at hsame
      obtain rfl : key = order.key := hsame
      exact hnew hkey
    · change desk.opened ++ _ = (desk.ledger ++ _).map _
      rw [h.opened, map_append]
      rfl
    · rcases mem_append.1 hrow with hold | hlast
      · rcases h.numbered row hold with hnumber | ⟨another, hanother, hnumbering⟩
        · exact .inl hnumber
        · refine .inr ⟨another, Slots.mem_set_of_ne hget hanother ?_, hnumbering⟩
          rintro rfl
          cases hnumbering
      · obtain rfl := mem_singleton.1 hlast
        exact .inr ⟨_, Slots.mem_set_self hget, rfl⟩
    · exact (h.phases submit hsubmit).mono hmono fun _ _ hnumber => hnumber
    · exact ⟨h.tableless hget, mem_append_right _ mem_cons_self⟩

/-- The number a repeat reads is there, unless some submit is about to give it. -/
theorem readNumber (h : desk.Consistent) (hget : desk.submits[i]? = some ⟨order, .reading record⟩)
    (hwhole : desk.NumberedWhole (.readNumber i)) :
    (desk.advance i order (.answered (desk.acceptanceFromRecord record false))).Consistent := by
  have hmem : (order.key, record) ∈ desk.ledger := (h.phases _ (mem_of_getElem? hget)).2
  refine h.advance hget ⟨h.tableless hget, record, hmem, rfl, rfl, ?_⟩ fun _ hnumbering => by
    cases hnumbering
  rcases h.numbered _ hmem with hnumber | ⟨another, hanother, hnumbering⟩
  · obtain ⟨number, hnumber⟩ := Option.ne_none_iff_exists'.1 hnumber
    exact ⟨number, hnumber, by rw [acceptanceFromRecord, hnumber, Option.map_some]⟩
  · exact absurd hnumbering (hwhole _ hget _ rfl another hanother)

/-- The submit that opened the order gives it its number. -/
theorem allocate (h : desk.Consistent) (hget : desk.submits[i]? = some ⟨order, .numbering record⟩)
    (created : Bool) :
    (IntakeDesk.advance
      { desk with queue := (desk.queue.allocateQueueNumber record.businessDate record.orderId).2 } i
      order (.answered ⟨record.orderId, created,
        some (queueNumberOf (desk.queue.allocateQueueNumber record.businessDate record.orderId).1),
        record.total, record.repriced, record.awaitingStaffConfirmation⟩)).Consistent := by
  have hmem : (order.key, record) ∈ desk.ledger := (h.phases _ (mem_of_getElem? hget)).2
  have hkeeps : ∀ orderId number, desk.queue.queueNumberFor orderId = some number →
      (desk.queue.allocateQueueNumber record.businessDate record.orderId).2.queueNumberFor orderId =
        some number :=
    fun orderId number hnumber => QueueNumbers.queueNumberFor_allocate_of_some hnumber _ _
  have hgiven := desk.queue.queueNumberFor_allocate record.businessDate record.orderId
  have hqueue : Consistent
      { desk with
        queue := (desk.queue.allocateQueueNumber record.businessDate record.orderId).2 } := by
    refine ⟨h.keys, h.opened, fun row hrow => ?_, fun submit hsubmit => ?_⟩
    · rcases h.numbered row hrow with hnumber | hnumbering
      · obtain ⟨number, hnumber⟩ := Option.ne_none_iff_exists'.1 hnumber
        exact .inl (by simp [hkeeps _ _ hnumber])
      · exact .inr hnumbering
    · exact (h.phases submit hsubmit).mono (List.Subset.refl _) hkeeps
  refine hqueue.advance hget ⟨h.tableless hget, record, hmem, rfl, rfl, _, hgiven, rfl⟩ ?_
  intro orderId hnumbering
  obtain rfl := Option.some.inj hnumbering
  rw [hgiven]
  exact Option.some_ne_none _

theorem step (h : desk.Consistent) (call : IntakeCall) (htableless : desk.Tableless call)
    (hwhole : desk.NumberedWhole call) : (desk.step call).Consistent := by
  cases call with
  | submit order =>
    refine h.arrive htableless ?_
    cases refuseMisaddressed order desk.storeId with
    | ok _ => exact .inl rfl
    | error error => exact .inr ⟨error, rfl⟩
  | lookUp i =>
    rw [IntakeDesk.step]
    split
    · rename_i order hget
      exact h.lookUp hget (.inl rfl) (.inl rfl)
    · rename_i order hget
      exact h.lookUp hget (.inr rfl) (.inr rfl)
    · exact h
  | openOrder i env P ids deviceId switchedOff =>
    rw [IntakeDesk.step]
    split
    · rename_i order hget
      have hother : ∀ phase : SubmitPhase, (phase = .lost ∨ ∃ error, phase = .refused error) →
          (desk.advance i order phase).Consistent := by
        rintro phase (rfl | ⟨error, rfl⟩) <;>
          exact h.advance hget ⟨h.tableless hget, trivial⟩ fun _ hnumbering => by cases hnumbering
      split
      · exact hother _ (.inr ⟨_, rfl⟩)
      · split
        · rename_i hcommit
          exact h.openOrder hget hcommit
        · exact hother _ (.inl rfl)
    · exact h
  | readNumber i =>
    rw [IntakeDesk.step]
    split
    · rename_i order record hget
      exact h.readNumber hget hwhole
    · exact h
  | allocate i =>
    rw [IntakeDesk.step]
    split
    · rename_i order record hget
      simp only [h.tableless hget]
      exact h.allocate hget true
    · exact h
  | cutOff i =>
    rw [IntakeDesk.step]
    split
    · rename_i order acceptance hget
      exact h.advance hget (h.phases _ (mem_of_getElem? hget)) fun _ hnumbering => by
        cases hnumbering
    · rename_i order phase _ hget
      refine h.advance hget ⟨h.tableless hget, trivial⟩ fun orderId hnumbering => ?_
      rw [hwhole _ hget] at hnumbering
      cases hnumbering
    · exact h

theorem started (storeId : StoreId) : (IntakeDesk.started storeId).Consistent where
  keys := nodup_nil
  opened := rfl
  numbered _ hrow := absurd hrow not_mem_nil
  phases _ hsubmit := absurd hsubmit not_mem_nil

theorem record_unique (h : desk.Consistent) {another : IntakeRecord}
    (hrecord : (key, record) ∈ desk.ledger) (hanother : (key, another) ∈ desk.ledger) :
    another = record :=
  congrArg Prod.snd (inj_on_of_nodup_map h.keys hanother hrecord rfl)

end Consistent

/-- One order to a reference, and every acceptance of the reference names it, with one total and
    with one number, which is there. -/
structure Idempotent (desk : IntakeDesk) : Prop where
  oneOrder : (desk.opened.map (·.1)).Nodup
  names : ∀ submit ∈ desk.submits, ∀ acceptance, submit.phase = .answered acceptance →
    (submit.order.key, acceptance.orderId) ∈ desk.opened
  numbered : ∀ submit ∈ desk.submits, ∀ acceptance, submit.phase = .answered acceptance →
    acceptance.queueNumber ≠ none
  same : ∀ submit ∈ desk.submits, ∀ acceptance, submit.phase = .answered acceptance →
    ∀ another ∈ desk.submits, ∀ acceptance', another.phase = .answered acceptance' →
      another.order.key = submit.order.key → acceptance'.orderId = acceptance.orderId ∧
        acceptance'.total = acceptance.total ∧ acceptance'.queueNumber = acceptance.queueNumber

theorem Consistent.idempotent {desk : IntakeDesk} (h : desk.Consistent) : desk.Idempotent := by
  have hanswered : ∀ submit ∈ desk.submits, ∀ acceptance, submit.phase = .answered acceptance →
      ∃ record, (submit.order.key, record) ∈ desk.ledger ∧ acceptance.orderId = record.orderId ∧
        acceptance.total = record.total ∧
        ∃ number, desk.queue.queueNumberFor record.orderId = some number ∧
          acceptance.queueNumber = some (queueNumberOf number) := by
    rintro ⟨order, phase⟩ hsubmit acceptance rfl
    exact (h.phases _ hsubmit).2
  refine ⟨?_, ?_, ?_, ?_⟩
  · rw [h.opened, map_map]
    exact h.keys
  · intro submit hsubmit acceptance hphase
    obtain ⟨record, hmem, horder, -⟩ := hanswered submit hsubmit acceptance hphase
    rw [h.opened, horder]
    exact mem_map_of_mem hmem
  · intro submit hsubmit acceptance hphase
    obtain ⟨record, -, -, -, number, -, hnumber⟩ := hanswered submit hsubmit acceptance hphase
    rw [hnumber]
    exact Option.some_ne_none _
  · intro submit hsubmit acceptance hphase another hanother acceptance' hphase' hkey
    obtain ⟨record, hmem, horder, htotal, number, hgiven, hnumber⟩ :=
      hanswered submit hsubmit acceptance hphase
    obtain ⟨record', hmem', horder', htotal', number', hgiven', hnumber'⟩ :=
      hanswered another hanother acceptance' hphase'
    rw [hkey] at hmem'
    obtain rfl := h.record_unique hmem hmem'
    obtain rfl : number' = number := Option.some.inj (hgiven'.symm.trans hgiven)
    exact ⟨horder'.trans horder.symm, htotal'.trans htotal.symm, hnumber'.trans hnumber.symm⟩

/-- Where no submit is cut off between opening its order and numbering it, and no repeat reads the
    number in between, the intake of tableless orders is idempotent. -/
theorem order_intake_idempotent (storeId : StoreId) (calls : List IntakeCall) (desk : IntakeDesk)
    (hrun : Run (fun desk call => desk.Tableless call ∧ desk.NumberedWhole call) (started storeId)
      calls desk) : desk.Idempotent := by
  have hconsistent : desk.Consistent := by
    refine hrun.invariant (I := Consistent) ?_ (.started storeId)
    rintro before call after h ⟨htableless, hwhole⟩ hstep
    cases hstep
    exact h.step call htableless hwhole
  exact hconsistent.idempotent

end IntakeDesk

namespace Trial

/-- One of the item on the menu, to take away. -/
def takeaway : InboundOrder where
  externalReference := "A-1"
  salesChannel := .fromKnown .takeaway
  storeId := ⟨9⟩
  tableId := none
  lines := [⟨⟨1⟩, .one, [], none, false⟩]

def takeawayEnv : Env :=
  { env with
    session :=
      { session with
        taxRates := ⟨[⟨⟨1⟩, .fromKnown .takeaway, .tenth, []⟩]⟩
        menu := ⟨[⟨⟨1⟩, ⟨"Pho"⟩, .few 5, ⟨1⟩, [], true⟩], []⟩ } }

def openTakeaway (i n : Nat) : IntakeCall :=
  .openOrder i takeawayEnv .empty (fun k => n + k) ⟨8⟩ false

end Trial

namespace IntakeDesk

/-- Two submits of one order race; the one that loses, and a later retry, read the number given. -/
def racedCalls : List IntakeCall :=
  [.submit takeaway, .submit takeaway, .lookUp 0, .lookUp 1, openTakeaway 0 10,
    openTakeaway 1 20, .allocate 0, .lookUp 1, .readNumber 1, .submit takeaway, .lookUp 2,
    .readNumber 2]

theorem order_intake_idempotent_racedCalls :
    ∃ desk, Run (fun desk call => desk.Tableless call ∧ desk.NumberedWhole call)
      (started ⟨9⟩) racedCalls
        desk ∧
      (desk.submits.filterMap Submit.answer?).map (·.queueNumber) = [some 1, some 1, some 1] ∧
      desk.Idempotent := by
  obtain ⟨desk, hrun, hanswers⟩ : ∃ desk, Run (fun desk call =>
      desk.Tableless call ∧ desk.NumberedWhole call) (started ⟨9⟩) racedCalls desk ∧
      (desk.submits.filterMap Submit.answer?).map (·.queueNumber) = [some 1, some 1, some 1] :=
    ⟨_, Transition.run_of_allAllowed (by decide), by decide⟩
  exact ⟨desk, hrun, hanswers, order_intake_idempotent _ _ _ hrun⟩

/-- The first submit is cut off when it has opened the order; the retry is answered without a
    number. -/
def cutShortCalls : List IntakeCall :=
  [.submit takeaway, .lookUp 0, openTakeaway 0 10, .cutOff 0, .submit takeaway,
    .lookUp 1, .readNumber 1]

theorem cutShortCalls_unnumbered :
    ∃ desk, Run Tableless (started ⟨9⟩) cutShortCalls desk ∧
      (∃ submit ∈ desk.submits, ∃ acceptance, submit.phase = .answered acceptance ∧
        acceptance.queueNumber = none) ∧ ¬desk.Idempotent := by
  obtain ⟨desk, hrun, submit, hsubmit, acceptance, hphase, hnone⟩ :
      ∃ desk, Run Tableless (started ⟨9⟩) cutShortCalls desk ∧
        ∃ submit ∈ desk.submits, ∃ acceptance, submit.phase = .answered acceptance ∧
          acceptance.queueNumber = none :=
    ⟨_, Transition.run_of_allAllowed (by decide), _, mem_cons_of_mem _ mem_cons_self, _, rfl, rfl⟩
  exact ⟨desk, hrun, ⟨submit, hsubmit, acceptance, hphase, hnone⟩, fun hidempotent =>
    hidempotent.numbered submit hsubmit acceptance hphase hnone⟩

end IntakeDesk

end PosFramework
