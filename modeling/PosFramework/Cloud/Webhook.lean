import PosFramework.Lib.Cursor
import PosFramework.Lib.Redelivery
import PosFramework.Lib.Transition
import PosFramework.Proto.Envelope
import PosFramework.Proto.Samples
import PosFramework.Proto.Time

set_option autoImplicit false

/-! # Webhook deliveries

A webhook subscription is a cursor over a store's log. An attempt reads the page after the cursor,
sends it under an id made of the store and the page's first event, and moves the cursor only when
the receiver accepts it. A receiver drops what comes under an id it has processed.

The page is read again at every attempt. A page that was short when it was sent first is longer when
it is sent again, under the same id, if the log has grown in between; so the receiver is safe
exactly as long as the log does not grow behind a short page that is still being retried. -/

namespace PosFramework

open List Cursor Option

/-! ## The circuit breaker -/

/-- When a breaker opens, and for how long. -/
structure BreakerConfig where
  failureThreshold : Nat
  openCooldown : Int
  autoDisableAfter : Int

/-- Five strikes, a minute's cooldown, and disabled after a day of failures. -/
def BreakerConfig.standard : BreakerConfig := ⟨5, 60, 24 * 60 * 60⟩

/-- Whether attempts are let through. -/
inductive BreakerState
  | closed
  | opened
  | halfOpen
  | disabled
deriving DecidableEq

/-- The breaker of an endpoint. -/
structure CircuitBreaker where
  config : BreakerConfig
  state : BreakerState
  consecutiveFailures : Nat
  /-- Since when every outcome was a failure. -/
  failingSince : Option Timestamp
  openUntil : Option Timestamp

/-- Whole seconds between two instants; a clock that went back counts as none. -/
def elapsedSecs (since now : Timestamp) : Int :=
  max (i64Saturate (now.epochMs - since.epochMs) / 1000) 0

def plusSecs (now : Timestamp) (secs : Int) : Timestamp :=
  (Timestamp.fromMillisecondsSinceEpoch
    (i64Saturate (now.epochMs + i64Saturate (secs * 1000)))).getD now

namespace CircuitBreaker

def fresh (config : BreakerConfig) : CircuitBreaker := ⟨config, .closed, 0, none, none⟩

variable (breaker : CircuitBreaker)

/-- Whether an attempt may be made now. An open breaker whose cooldown is over lets one trial
    through. -/
def allow (now : Timestamp) : Bool × CircuitBreaker :=
  match breaker.state with
  | .disabled => (false, breaker)
  | .closed | .halfOpen => (true, breaker)
  | .opened =>
    let ready := breaker.openUntil.all fun ends => ends.epochMs ≤ now.epochMs
    if ready then (ready, { breaker with state := .halfOpen, openUntil := none })
    else (ready, breaker)

/-- An attempt was accepted. -/
def recordSuccess : CircuitBreaker :=
  { breaker with
    state := .closed, consecutiveFailures := 0, failingSince := none, openUntil := none }

/-- An attempt failed; enough of them open or disable the breaker. -/
def recordFailure (now : Timestamp) : CircuitBreaker :=
  let failures := min (breaker.consecutiveFailures + 1) 4294967295
  let since := breaker.failingSince.getD now
  let breaker := { breaker with consecutiveFailures := failures, failingSince := some since }
  if breaker.config.autoDisableAfter ≤ elapsedSecs since now then
    { breaker with state := .disabled, openUntil := none }
  else if breaker.state = .halfOpen ∨ breaker.config.failureThreshold ≤ failures then
    { breaker with state := .opened, openUntil := some (plusSecs now breaker.config.openCooldown) }
  else breaker

def enable : CircuitBreaker := fresh breaker.config

end CircuitBreaker

/-! ## An attempt -/

/-- A subscription's state. -/
structure WebhookEndpoint where
  storeId : StoreId
  cursor : Option EventId
  page : Nat
  page_pos : 0 < page
  breaker : CircuitBreaker

namespace WebhookEndpoint

def rehydrate (storeId : StoreId) (cursor : Option EventId) : WebhookEndpoint where
  storeId := storeId
  cursor := cursor
  page := 100
  page_pos := by decide
  breaker := .fresh .standard

def register (storeId : StoreId) : WebhookEndpoint := rehydrate storeId none

def setPage (endpoint : WebhookEndpoint) (page : Nat) (hpage : 0 < page) : WebhookEndpoint :=
  { endpoint with page := page, page_pos := hpage }

def enable (endpoint : WebhookEndpoint) : WebhookEndpoint :=
  { endpoint with breaker := endpoint.breaker.enable }

end WebhookEndpoint

/-- The idempotency key of a page: its store and its first event. -/
structure DeliveryId where
  storeId : StoreId
  firstEvent : EventId
deriving DecidableEq

/-- A page after a cursor. -/
structure EventQuery where
  storeId : StoreId
  after : Option EventId
  limit : Nat

/-- What came of an attempt. -/
inductive DeliveryOutcome
  | delivered (events : Nat)
  | idle
  | suppressed
  | failed

inductive WebhookError
  | store

abbrev StoredEvent := EventEnvelope RawPayload

section

variable {ω : Type} (read : EventQuery → Option (List StoredEvent))
  (deliver : DeliveryId → List StoredEvent → ω → Bool × ω)

/-- Attempt to deliver the next page. The log is read with `read`, which may fail; `deliver` is the
    transport, which acts on the world outside and says whether the receiver accepted. -/
def deliverNext (endpoint : WebhookEndpoint) (now : Timestamp) (world : ω) :
    Except WebhookError DeliveryOutcome × WebhookEndpoint × ω :=
  let (allowed, breaker) := endpoint.breaker.allow now
  let endpoint := { endpoint with breaker := breaker }
  if allowed then
    match read ⟨endpoint.storeId, endpoint.cursor, endpoint.page⟩ with
    | none => (.error .store, endpoint, world)
    | some [] => (.ok .idle, endpoint, world)
    | some (first :: rest) =>
      let batch := first :: rest
      match deliver ⟨endpoint.storeId, first.eventId⟩ batch world with
      | (true, world) =>
        let cursor := (batch.getLast?.map (·.eventId)).or endpoint.cursor
        let breaker := breaker.recordSuccess
        (.ok (.delivered (min batch.length 4294967295)),
          { endpoint with cursor := cursor, breaker := breaker }, world)
      | (false, world) =>
        (.ok .failed, { endpoint with breaker := breaker.recordFailure now }, world)
  else (.ok .suppressed, endpoint, world)

end

/-! ## Endpoint, log and receiver -/

/-- A body under its id. -/
structure WebhookDelivery where
  id : DeliveryId
  body : List StoredEvent
deriving DecidableEq

/-- The delivery a page makes, where it has an event. -/
def delivery? (storeId : StoreId) (batch : List StoredEvent) : Option WebhookDelivery :=
  batch.head?.map fun first => ⟨⟨storeId, first.eventId⟩, batch⟩

/-- The receiving side: every attempt that was sent its way, and the deliveries it has processed. -/
structure Receiver where
  sent : List WebhookDelivery
  processed : List WebhookDelivery

/-- What becomes of an attempt. -/
inductive Reception
  | accepted
  | lost
  | late
deriving DecidableEq

namespace Receiver

/-- The receiver processes the first body it gets under an id. -/
def deliver (reception : Reception) (id : DeliveryId) (body : List StoredEvent)
    (receiver : Receiver) : Bool × Receiver :=
  let sent := receiver.sent ++ [⟨id, body⟩]
  let processed := Redelivery.hear WebhookDelivery.id receiver.processed ⟨id, body⟩
  match reception with
  | .accepted => (true, ⟨sent, processed⟩)
  | .lost => (false, ⟨sent, receiver.processed⟩)
  | .late => (false, ⟨sent, processed⟩)

/-- The events the receiver has processed. -/
def events (receiver : Receiver) : List StoredEvent := receiver.processed.flatMap (·.body)

end Receiver

/-- A store's log, an endpoint that follows it, and its receiver. -/
structure Subscription where
  log : List StoredEvent
  endpoint : WebhookEndpoint
  receiver : Receiver

/-- What happens to a subscription. -/
inductive WebhookCall
  /-- The store's log takes an event in. -/
  | append (event : StoredEvent)
  /-- An attempt; `readable` says whether the log can be read for it. -/
  | attempt (now : Timestamp) (readable : Bool) (reception : Reception)
  /-- An operator enables the endpoint again. -/
  | enable

namespace Subscription

def started (endpoint : WebhookEndpoint) : Subscription := ⟨[], endpoint, ⟨[], []⟩⟩

def readLog (subscription : Subscription) (readable : Bool) (query : EventQuery) :
    Option (List StoredEvent) :=
  if readable then some (page (·.eventId) subscription.log query.after query.limit) else none

/-- What a call does. -/
def step (subscription : Subscription) : WebhookCall → Subscription
  | .append event => { subscription with log := subscription.log ++ [event] }
  | .attempt now readable reception =>
    let (_, endpoint, receiver) := deliverNext (subscription.readLog readable)
      (Receiver.deliver reception) subscription.endpoint now subscription.receiver
    { subscription with endpoint := endpoint, receiver := receiver }
  | .enable => { subscription with endpoint := subscription.endpoint.enable }

/-- The log takes events in in increasing order of their ids. -/
def InOrder (subscription : Subscription) : WebhookCall → Prop
  | .append event => ∀ earlier ∈ subscription.log, earlier.eventId < event.eventId
  | .attempt _ _ _ | .enable => True

instance (subscription : Subscription) : (call : WebhookCall) →
    Decidable (subscription.InOrder call)
  | .append event =>
    inferInstanceAs (Decidable (∀ earlier ∈ subscription.log, earlier.eventId < event.eventId))
  | .attempt _ _ _ | .enable => inferInstanceAs (Decidable True)

/-- The delivery was sent and the cursor has not passed it. -/
def Outstanding (subscription : Subscription) (delivery : WebhookDelivery) : Prop :=
  delivery ∈ subscription.receiver.sent ∧
    ∀ event ∈ delivery.body, Beyond (·.eventId) subscription.endpoint.cursor event

instance (subscription : Subscription) (delivery : WebhookDelivery) :
    Decidable (subscription.Outstanding delivery) := inferInstanceAs (Decidable (_ ∧ _))

/-- The log grows only where every page that is still being retried is full. -/
def GrowsBehindFullPages (subscription : Subscription) : WebhookCall → Prop
  | .append _ => ∀ delivery ∈ subscription.receiver.sent, subscription.Outstanding delivery →
      delivery.body.length = subscription.endpoint.page
  | .attempt _ _ _ | .enable => True

instance (subscription : Subscription) :
    (call : WebhookCall) → Decidable (subscription.GrowsBehindFullPages call)
  | .append _ => inferInstanceAs (Decidable (∀ delivery ∈ subscription.receiver.sent,
      subscription.Outstanding delivery → delivery.body.length = subscription.endpoint.page))
  | .attempt _ _ _ | .enable => inferInstanceAs (Decidable True)

abbrev Run (allowed : Subscription → WebhookCall → Prop) :
    Subscription → List WebhookCall → Subscription → Prop :=
  Transition.Run (ε := Empty) (fun call subscription => .ok (subscription.step call)) allowed

/-- Attempts under one id carry one body. -/
def IdsDetermineBodies (subscription : Subscription) : Prop :=
  ∀ one ∈ subscription.receiver.sent, ∀ two ∈ subscription.receiver.sent,
    one.id = two.id → one.body = two.body

/-- The receiver has processed each event up to the cursor once. -/
def ProcessedOnce (subscription : Subscription) : Prop :=
  ∀ event ∈ subscription.log, ¬Beyond (·.eventId) subscription.endpoint.cursor event →
    subscription.receiver.events.count event = 1

/-! ## What a run keeps -/

/-- The page an attempt would send next. -/
def nextPage (subscription : Subscription) : List StoredEvent :=
  page (·.eventId) subscription.log subscription.endpoint.cursor subscription.endpoint.page

/-- The delivery an attempt would make next, if the endpoint is behind. -/
def next? (subscription : Subscription) : Option WebhookDelivery :=
  delivery? subscription.endpoint.storeId subscription.nextPage

/-- An attempt sends the next delivery, and only its acceptance moves the cursor; or it sends
    nothing. -/
theorem step_attempt (subscription : Subscription) (now : Timestamp) (readable : Bool)
    (reception : Reception) :
    ∃ breaker, subscription.step (.attempt now readable reception) =
        { subscription with endpoint := { subscription.endpoint with breaker := breaker } } ∨
      ∃ delivery ∈ subscription.next?, ∃ last ∈ delivery.body.getLast?,
        subscription.step (.attempt now readable reception) =
          { subscription with
            endpoint :=
              { subscription.endpoint with
                breaker := breaker
                cursor := if reception = .accepted then some last.eventId
                  else subscription.endpoint.cursor }
            receiver :=
              (Receiver.deliver reception delivery.id delivery.body subscription.receiver).2 } := by
  obtain ⟨log, endpoint, receiver⟩ := subscription
  rcases hallow : endpoint.breaker.allow now with ⟨allowed, breaker⟩
  cases allowed with
  | false => exact ⟨breaker, .inl (by simp [step, deliverNext, hallow])⟩
  | true =>
    cases readable with
    | false => exact ⟨breaker, .inl (by simp [step, deliverNext, hallow, readLog])⟩
    | true =>
      rcases hpage : page (·.eventId) log endpoint.cursor endpoint.page with _ | ⟨first, rest⟩
      · exact ⟨breaker, .inl (by simp [step, deliverNext, hallow, readLog, hpage])⟩
      · have hnext : next? ⟨log, endpoint, receiver⟩ =
            some ⟨⟨endpoint.storeId, first.eventId⟩, first :: rest⟩ := by
          rw [next?, nextPage, hpage]
          rfl
        have hlast := getLast?_eq_some_getLast (cons_ne_nil first rest)
        cases reception with
        | accepted =>
          refine ⟨breaker.recordSuccess, .inr ⟨_, hnext, _, hlast, ?_⟩⟩
          simp [step, deliverNext, hallow, readLog, hpage, Receiver.deliver, hlast]
        | lost =>
          refine ⟨breaker.recordFailure now, .inr ⟨_, hnext, _, hlast, ?_⟩⟩
          simp [step, deliverNext, hallow, readLog, hpage, Receiver.deliver]
        | late =>
          refine ⟨breaker.recordFailure now, .inr ⟨_, hnext, _, hlast, ?_⟩⟩
          simp [step, deliverNext, hallow, readLog, hpage, Receiver.deliver]

variable {subscription : Subscription} {delivery : WebhookDelivery}

theorem mem_next?
    (h : delivery ∈ subscription.next?) :
    delivery.body = subscription.nextPage ∧
      ∃ first ∈ delivery.body.head?, delivery.id =
        ⟨subscription.endpoint.storeId, first.eventId⟩ := by
  obtain ⟨first, hfirst, rfl⟩ := map_eq_some_iff.1 h
  exact ⟨rfl, first, hfirst, rfl⟩

variable {event : StoredEvent}

theorem beyond_of_mem_next? (h : delivery ∈ subscription.next?) (hevent : event ∈ delivery.body) :
    event ∈ subscription.log ∧
      Beyond (·.eventId) subscription.endpoint.cursor event := by
  rw [(mem_next? h).1] at hevent
  exact mem_after.1 (mem_after_of_mem_page hevent)

/-- The deliveries accepted so far carry the log up to the cursor. What was sent beside them is the
    delivery that is next, and the receiver may have processed that too. -/
structure Settled (subscription : Subscription) (accepted : List WebhookDelivery) : Prop where
  ordered : Ordered (·.eventId) subscription.log
  cursor : ∀ cursor ∈ subscription.endpoint.cursor,
    ∃ event ∈ subscription.log, event.eventId = cursor
  bodies : accepted.flatMap (·.body) =
    upTo (·.eventId) subscription.log subscription.endpoint.cursor
  ids : ∀ delivery ∈ accepted, ∃ first ∈ delivery.body.head?,
    delivery.id = ⟨subscription.endpoint.storeId, first.eventId⟩
  sent : ∀ delivery ∈ subscription.receiver.sent,
    delivery ∈ accepted ∨ delivery ∈ subscription.next?
  processed : subscription.receiver.processed = accepted ∨
    ∃ delivery ∈ subscription.next?, delivery ∈ subscription.receiver.sent ∧
      subscription.receiver.processed = accepted ++ [delivery]

namespace Settled

variable {subscription : Subscription} {accepted : List WebhookDelivery}
    {delivery : WebhookDelivery}

theorem not_beyond (h : subscription.Settled accepted) (haccepted : delivery ∈ accepted)
    (hevent : event ∈ delivery.body) :
    event ∈ subscription.log ∧
      ¬Beyond (·.eventId) subscription.endpoint.cursor event := by
  refine mem_upTo.1 (h.bodies ▸ ?_)
  exact mem_flatMap.2 ⟨delivery, haccepted, hevent⟩

/-- The next delivery begins with an event of its own. -/
theorem next_id_notMem (h : subscription.Settled accepted) (hnext : delivery ∈ subscription.next?) :
    delivery.id ∉ accepted.map (·.id) := by
  intro hmem
  obtain ⟨earlier, hearlier, hid⟩ := mem_map.1 hmem
  obtain ⟨first, hfirst, hfirstId⟩ := (mem_next? hnext).2
  obtain ⟨first', hfirst', hfirstId'⟩ := h.ids earlier hearlier
  rw [hfirstId, hfirstId', DeliveryId.mk.injEq] at hid
  obtain ⟨-, hbeyond⟩ := beyond_of_mem_next? hnext (mem_of_mem_head? hfirst)
  obtain ⟨-, hnot⟩ := h.not_beyond hearlier (mem_of_mem_head? hfirst')
  refine hnot fun cursor hcursor => ?_
  change cursor < first'.eventId
  rw [hid.2]
  exact hbeyond cursor hcursor

/-- What the receiver keeps once it has the next delivery. -/
theorem hear_next (h : subscription.Settled accepted) (hnext : delivery ∈ subscription.next?) :
    Redelivery.hear WebhookDelivery.id subscription.receiver.processed delivery =
      accepted ++ [delivery] := by
  rcases h.processed with hprocessed | ⟨held, hheld, -, hprocessed⟩
  · rw [hprocessed]
    exact Redelivery.hear_of_new (h.next_id_notMem hnext)
  · obtain rfl := mem_unique hheld hnext
    rw [hprocessed]
    exact Redelivery.hear_of_mem (mem_append_right _ mem_cons_self)

theorem withBreaker (h : subscription.Settled accepted) (breaker : CircuitBreaker) :
    Settled { subscription with endpoint := { subscription.endpoint with breaker := breaker } }
      accepted :=
  ⟨h.ordered, h.cursor, h.bodies, h.ids, h.sent, h.processed⟩

/-- A delivery that failed, whether the receiver has it or not. -/
theorem failed (h : subscription.Settled accepted) (hnext : delivery ∈ subscription.next?)
    (breaker : CircuitBreaker) {processed : List WebhookDelivery}
    (hprocessed : processed = subscription.receiver.processed ∨
      processed = accepted ++ [delivery]) :
    Settled { subscription with
        endpoint := { subscription.endpoint with breaker := breaker }
        receiver := ⟨subscription.receiver.sent ++ [delivery], processed⟩ } accepted where
  ordered := h.ordered
  cursor := h.cursor
  bodies := h.bodies
  ids := h.ids
  sent earlier hearlier := by
    rcases mem_append.1 hearlier with hearlier | hearlier
    · exact h.sent earlier hearlier
    · rw [mem_singleton.1 hearlier]
      exact .inr hnext
  processed := by
    have hsent : delivery ∈ subscription.receiver.sent ++ [delivery] :=
      mem_append_right _ mem_cons_self
    rcases hprocessed with rfl | rfl
    · rcases h.processed with hsame | ⟨held, hheld, hheldSent, hsame⟩
      · exact .inl hsame
      · exact .inr ⟨held, hheld, mem_append_left _ hheldSent, hsame⟩
    · exact .inr ⟨delivery, hnext, hsent, rfl⟩

/-- A delivery that was accepted moves the cursor behind its events. -/
theorem accept (h : subscription.Settled accepted) (hnext : delivery ∈ subscription.next?)
    {last : StoredEvent} (hlast : last ∈ delivery.body.getLast?) (breaker : CircuitBreaker) :
    Settled { subscription with
        endpoint :=
          { subscription.endpoint with breaker := breaker, cursor := some last.eventId }
        receiver := ⟨subscription.receiver.sent ++ [delivery], accepted ++ [delivery]⟩ }
      (accepted ++ [delivery]) where
  ordered := h.ordered
  cursor cursor hcursor := by
    obtain rfl := mem_some.1 hcursor
    exact ⟨last, (beyond_of_mem_next? hnext (mem_of_getLast? hlast)).1, rfl⟩
  bodies := by
    obtain ⟨hbody, -⟩ := mem_next? hnext
    rw [hbody] at hlast
    rw [flatMap_append, h.bodies, flatMap_singleton, hbody]
    exact (upTo_last h.ordered hlast).symm
  ids earlier hearlier := by
    rcases mem_append.1 hearlier with hearlier | hearlier
    · exact h.ids earlier hearlier
    · rw [mem_singleton.1 hearlier]
      exact (mem_next? hnext).2
  sent earlier hearlier := by
    refine .inl ?_
    rcases mem_append.1 hearlier with hearlier | hearlier
    · rcases h.sent earlier hearlier with hold | hsame
      · exact mem_append_left _ hold
      · rw [mem_unique hsame hnext]
        exact mem_append_right _ mem_cons_self
    · exact mem_append_right _ hearlier
  processed := .inl rfl

/-- The log grows behind a page that nobody retries, or that is full. -/
theorem append (h : subscription.Settled accepted) (horder : subscription.InOrder (.append event))
    (hfull : subscription.GrowsBehindFullPages (.append event)) :
    (subscription.step (.append event)).Settled accepted := by
  have hbeyond : Beyond (·.eventId) subscription.endpoint.cursor event := by
    intro cursor hcursor
    obtain ⟨earlier, hearlier, rfl⟩ := h.cursor cursor hcursor
    exact horder earlier hearlier
  have hupTo : upTo (·.eventId) (subscription.log ++ [event]) subscription.endpoint.cursor =
      upTo (·.eventId) subscription.log subscription.endpoint.cursor :=
    upTo_concat hbeyond
  -- a delivery that is next and was sent stays next
  have hnext : ∀ delivery ∈ subscription.receiver.sent, delivery ∈ subscription.next? →
      delivery ∈ (subscription.step (.append event)).next? := by
    intro delivery hsent hnext
    have hlength := hfull delivery hsent
      ⟨hsent, fun event hevent => (beyond_of_mem_next? hnext hevent).2⟩
    rw [(mem_next? hnext).1] at hlength
    have hpage : (subscription.step (.append event)).nextPage = subscription.nextPage :=
      page_concat_of_full hbeyond hlength
    rw [next?, hpage]
    exact hnext
  refine ⟨h.ordered.concat horder, fun cursor hcursor => ?_, h.bodies.trans hupTo.symm, h.ids,
    fun delivery hsent => ?_, ?_⟩
  · obtain ⟨earlier, hearlier, hid⟩ := h.cursor cursor hcursor
    exact ⟨earlier, mem_append_left _ hearlier, hid⟩
  · rcases h.sent delivery hsent with hold | hnew
    · exact .inl hold
    · exact .inr (hnext delivery hsent hnew)
  · rcases h.processed with hsame | ⟨delivery, hnew, hsent, hsame⟩
    · exact .inl hsame
    · exact .inr ⟨delivery, hnext delivery hsent hnew, hsent, hsame⟩

theorem attempt (h : subscription.Settled accepted) (now : Timestamp) (readable : Bool)
    (reception : Reception) :
    ∃ accepted', (subscription.step (.attempt now readable reception)).Settled accepted' := by
  obtain ⟨breaker, hstep | ⟨delivery, hnext, last, hlast, hstep⟩⟩ :=
    subscription.step_attempt now readable reception
  · rw [hstep]
    exact ⟨accepted, h.withBreaker breaker⟩
  · have hhear := h.hear_next hnext
    rw [hstep]
    cases reception with
    | accepted =>
      refine ⟨accepted ++ [delivery], ?_⟩
      have hsettled := h.accept hnext hlast breaker
      rw [← hhear] at hsettled ⊢
      exact hsettled
    | lost => exact ⟨accepted, h.failed hnext breaker (.inl rfl)⟩
    | late => exact ⟨accepted, h.failed hnext breaker (.inr hhear)⟩

theorem step (h : subscription.Settled accepted) (call : WebhookCall)
    (horder : subscription.InOrder call) (hfull : subscription.GrowsBehindFullPages call) :
    ∃ accepted', (subscription.step call).Settled accepted' := by
  cases call with
  | append => exact ⟨accepted, h.append horder hfull⟩
  | attempt now readable reception => exact h.attempt now readable reception
  | enable => exact ⟨accepted, h.withBreaker subscription.endpoint.breaker.enable⟩

theorem started {endpoint : WebhookEndpoint} (hcursor : endpoint.cursor = none) :
    (Subscription.started endpoint).Settled [] where
  ordered := List.Pairwise.nil
  cursor := by
    intro cursor hmem
    rw [Subscription.started, hcursor] at hmem
    exact absurd hmem (not_mem_none _)
  bodies := rfl
  ids _ hmem := absurd hmem not_mem_nil
  sent _ hmem := absurd hmem not_mem_nil
  processed := .inl rfl

/-- Accepted deliveries with one id begin with one event, which only one of them carries. -/
theorem eq_of_id_eq (h : subscription.Settled accepted) {one two : WebhookDelivery}
    (hone : one ∈ accepted) (htwo : two ∈ accepted) (hid : one.id = two.id) : one = two := by
  obtain ⟨first, hfirst, hfirstId⟩ := h.ids one hone
  obtain ⟨first', hfirst', hfirstId'⟩ := h.ids two htwo
  rw [hfirstId, hfirstId', DeliveryId.mk.injEq] at hid
  have hmem := mem_of_mem_head? hfirst
  have hmem' := mem_of_mem_head? hfirst'
  obtain rfl : first = first' :=
    h.ordered.eq_of_key_eq (h.not_beyond hone hmem).1 (h.not_beyond htwo hmem').1 hid.2
  have hnodup : (accepted.flatMap (·.body)).Nodup := by
    rw [h.bodies]
    exact h.ordered.nodup.filter _
  by_contra hne
  have hsymm : Std.Symm (Function.onFun List.Disjoint fun delivery : WebhookDelivery =>
      delivery.body) :=
    ⟨fun _ _ hdisjoint => List.Disjoint.symm hdisjoint⟩
  have hapart := (nodup_flatMap.1 hnodup).2.forall hone htwo hne
  exact hapart hmem hmem'

theorem idsDetermineBodies (h : subscription.Settled accepted) :
    subscription.IdsDetermineBodies := by
  intro one hone two htwo hid
  rcases h.sent one hone with honeOld | honeNext <;> rcases h.sent two htwo with htwoOld | htwoNext
  · rw [h.eq_of_id_eq honeOld htwoOld hid]
  · exact absurd (hid ▸ mem_map_of_mem honeOld) (h.next_id_notMem htwoNext)
  · exact absurd (hid ▸ mem_map_of_mem htwoOld) (h.next_id_notMem honeNext)
  · rw [mem_unique honeNext htwoNext]

theorem processedOnce (h : subscription.Settled accepted) : subscription.ProcessedOnce := by
  intro event hevent hbehind
  have hupTo : (upTo (·.eventId) subscription.log subscription.endpoint.cursor).count event = 1 :=
    count_eq_one_of_mem (h.ordered.nodup.filter _) (mem_upTo.2 ⟨hevent, hbehind⟩)
  rcases h.processed with hprocessed | ⟨delivery, hnext, -, hprocessed⟩
  · rw [Receiver.events, hprocessed, h.bodies]
    exact hupTo
  · have hnone : delivery.body.count event = 0 :=
      count_eq_zero.2 fun hmem => hbehind (beyond_of_mem_next? hnext hmem).2
    rw [Receiver.events, hprocessed, flatMap_append, h.bodies, flatMap_singleton,
      count_append, hupTo, hnone]

end Settled

/-- Where the log grows only behind full pages, an id names one body, and the receiver misses
    nothing up to the cursor and processes nothing of it twice. -/
theorem webhook_receiver_misses_nothing (endpoint : WebhookEndpoint)
    (hcursor : endpoint.cursor = none) (calls : List WebhookCall) (subscription : Subscription)
    (hrun : Run (fun subscription call =>
      subscription.InOrder call ∧ subscription.GrowsBehindFullPages call) (started endpoint) calls
      subscription) :
    subscription.IdsDetermineBodies ∧ subscription.ProcessedOnce := by
  have hsettled : ∃ accepted, subscription.Settled accepted := by
    refine hrun.invariant (I := fun subscription => ∃ accepted, subscription.Settled accepted) ?_
      ⟨[], .started hcursor⟩
    rintro before call after ⟨accepted, h⟩ ⟨horder, hfull⟩ hstep
    cases hstep
    exact h.step call horder hfull
  obtain ⟨accepted, h⟩ := hsettled
  exact ⟨h.idsDetermineBodies, h.processedOnce⟩

/-- Two events a page: a late answer, an event that arrives in the meantime, and the retries. -/
def retriedCalls : List WebhookCall :=
  [.append (sampleEvent 1 sampleJson), .append (sampleEvent 2 sampleJson),
    .attempt ⟨0⟩ true .late, .append (sampleEvent 3 sampleJson), .attempt ⟨1000⟩ true .accepted,
    .attempt ⟨2000⟩ true .lost, .attempt ⟨3000⟩ true .accepted]

def pairEndpoint : WebhookEndpoint := (WebhookEndpoint.register ⟨9⟩).setPage 2 (by decide)

theorem webhook_receiver_misses_nothing_retriedCalls :
    ∃ subscription, Run (fun subscription call =>
        subscription.InOrder call ∧ subscription.GrowsBehindFullPages call)
        (started pairEndpoint) retriedCalls subscription ∧
      subscription.receiver.sent.length = 4 ∧
      subscription.IdsDetermineBodies ∧ subscription.ProcessedOnce := by
  obtain ⟨subscription, hrun, hsent⟩ : ∃ subscription, Run (fun subscription call =>
        subscription.InOrder call ∧ subscription.GrowsBehindFullPages call)
        (started pairEndpoint) retriedCalls subscription ∧ subscription.receiver.sent.length = 4 :=
    ⟨_, Transition.run_of_allAllowed (by decide), by decide⟩
  exact ⟨subscription, hrun, hsent, webhook_receiver_misses_nothing pairEndpoint rfl _ _ hrun⟩

/-- The receiver answers late, a second event arrives, and the retry carries both under the first's
    id. -/
def grownPageCalls : List WebhookCall :=
  [.append (sampleEvent 1 sampleJson), .attempt ⟨0⟩ true .late, .append (sampleEvent 2 sampleJson),
    .attempt ⟨1000⟩ true .accepted]

theorem grownPageCalls_skips_event :
    ∃ subscription, Run InOrder (started (.register ⟨9⟩)) grownPageCalls subscription ∧
      subscription.endpoint.cursor = some ⟨2⟩ ∧ sampleEvent 2 sampleJson ∈ subscription.log ∧
      sampleEvent 2 sampleJson ∉ subscription.receiver.events ∧
      ¬subscription.IdsDetermineBodies ∧ ¬subscription.ProcessedOnce := by
  refine ⟨_, Transition.run_of_allAllowed (by decide), by decide, by decide, by decide,
    fun hids => ?_, fun honce => ?_⟩
  · have hsame := hids ⟨⟨⟨9⟩, ⟨1⟩⟩, [sampleEvent 1 sampleJson]⟩ (by decide)
      ⟨⟨⟨9⟩, ⟨1⟩⟩, [sampleEvent 1 sampleJson, sampleEvent 2 sampleJson]⟩ (by decide) rfl
    exact absurd hsame (by decide)
  · exact absurd (honce (sampleEvent 2 sampleJson) (by decide) (by decide)) (by decide)

end Subscription

end PosFramework
