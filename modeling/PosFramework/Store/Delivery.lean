import PosFramework.Lib.Redelivery
import PosFramework.Store.Chained

set_option autoImplicit false

/-! # Outbox delivery

The edge reads a batch of what is not acknowledged, publishes it, and acknowledges as much as the
far side took. The call may fail after any part of the batch was taken, and the process may stop
between any two steps: what was read and what was answered is then forgotten, what is stored and
what the far side has taken is not. -/

namespace PosFramework

open Fallible Redelivery List EventLog

/-- The position to acknowledge through for an accepted prefix of a batch, and how many records that
    is. A far side that claims more than it was sent is taken to mean the batch. -/
def acknowledgeThrough (positions : List Nat) (accepted : Nat) : Option (Nat × Nat) :=
  let accepted := min accepted positions.length
  (positions.take accepted).getLast?.map fun last => (last, accepted)

/-- How far a drain pass has got. -/
inductive DrainPhase
  | idle
  /-- A batch is out, of which the far side has accepted some. -/
  | publishing (batch : List OutboxRecord) (accepted : Nat)
  /-- The far side has answered, and the store is to acknowledge through a position. -/
  | answered (through : Nat)

/-- A store, the publisher of its outbox and the far side. -/
structure Delivery where
  log : EventLog
  phase : DrainPhase
  /-- What the far side has accepted, in order and with repeats. -/
  received : List (EventEnvelope RawPayload)

/-- A commit, or a step of a delivery. -/
inductive DeliveryStep
  | commit (events : List (EventEnvelope RawPayload))
  | read (limit : Nat)
  /-- The far side accepts the next event of the batch. -/
  | accept
  /-- The far side answers how many it accepted. -/
  | answer (accepted : Nat)
  | acknowledge
  /-- The call fails, or the process stops. -/
  | stop

namespace Delivery

variable (serde : Serde) (digest : String → ChainHash)

def initial : Delivery := ⟨.empty, .idle, []⟩

/-- One step. The far side does not answer for events of the batch that it has not accepted. -/
def step (state : Delivery) : DeliveryStep → Delivery
  | .commit events => { state with log := state.log.serve serde digest (.commit events) }
  | .read limit =>
    match state.phase with
    | .idle =>
      let batch := state.log.outboxBatch 0 limit
      if batch.isEmpty then state else { state with phase := .publishing batch 0 }
    | _ => state
  | .accept =>
    match state.phase with
    | .publishing batch accepted =>
      match batch[accepted]? with
      | some record =>
        { state with
          phase := .publishing batch (accepted + 1)
          received := state.received ++ [record.envelope] }
      | none => state
    | _ => state
  | .answer accepted =>
    match state.phase with
    | .publishing batch sofar =>
      if min accepted batch.length ≤ sofar then
        match acknowledgeThrough (batch.map (·.position)) accepted with
        | some (through, _) => { state with phase := .answered through }
        | none => { state with phase := .idle }
      else state
    | _ => state
  | .acknowledge =>
    match state.phase with
    | .answered through => { state with log := state.log.acknowledge through, phase := .idle }
    | _ => state
  | .stop => { state with phase := .idle }

def run (steps : List DeliveryStep) : Delivery := steps.foldl (step serde digest) initial

end Delivery

/-! ## The outbox is the end of the history -/

/-- A log that holds a history, the end of which is not acknowledged. -/
structure EventLog.Holds (log : EventLog) (history : List (EventEnvelope RawPayload)) (sent : Nat) :
    Prop where
  stored : log.events.map (fun row => (row.eventId, row.envelope)) =
    history.map fun event => (event.eventId, some event)
  distinct : (history.map (·.eventId)).Nodup
  queued : log.outbox.map (·.envelope) = history.drop sent
  within : sent ≤ history.length
  positions : log.outbox.Pairwise fun a b => a.position < b.position
  given : ∀ record ∈ log.outbox, 0 < record.position ∧ record.position ≤ log.lastPosition
  bounded : log.lastPosition ≤ i64Max

namespace EventLog.Holds

variable {serde : Serde} {digest : String → ChainHash} {log : EventLog}
  {history : List (EventEnvelope RawPayload)} {sent : Nat}

theorem empty : empty.Holds [] 0 where
  stored := rfl
  distinct := nodup_nil
  queued := rfl
  within := le_refl 0
  positions := .nil
  given := fun _ hrecord => absurd hrecord not_mem_nil
  bounded := Nat.zero_le _

theorem not_mem_of_contains (h : log.Holds history sent) {eventId : EventId}
    (hnew : log.contains eventId = false) : eventId ∉ history.map (·.eventId) := by
  intro hmem
  obtain ⟨event, hevent, rfl⟩ := mem_map.1 hmem
  have hpair : (event.eventId, some event) ∈
      log.events.map fun row => (row.eventId, row.envelope) := by
    rw [h.stored]
    exact mem_map_of_mem (f := fun e : EventEnvelope RawPayload => (e.eventId, some e)) hevent
  obtain ⟨row, hrow, heq⟩ := mem_map.1 hpair
  have hcontains : log.contains event.eventId = true :=
    any_eq_true.2 ⟨row, hrow, decide_eq_true (Prod.mk.inj heq).1⟩
  rw [hnew] at hcontains
  contradiction

/-- A commit adds to the history and to the outbox. -/
theorem writeEvent (h : log.Holds history sent) {head head' : ChainHead} {log' : EventLog}
    {envelope : EventEnvelope RawPayload}
    (hwrite : writeEvent serde digest (head, log) envelope = .ok (head', log')) :
    ∃ added, log'.Holds (history ++ added) sent ∧ log.outbox <+: log'.outbox := by
  rcases writeEvent_cases hwrite with ⟨_, rfl⟩ | ⟨hash, _, hnew, hroom, _, rfl⟩
  · exact ⟨[], by rwa [append_nil], prefix_rfl⟩
  refine ⟨[{ envelope with chain := some head.nextLink }], ⟨?_, ?_, ?_, ?_, ?_, ?_, hroom⟩,
    prefix_append _ _⟩
  · rw [map_append, map_append, h.stored]
    rfl
  · rw [map_append, nodup_append]
    refine ⟨h.distinct, nodup_singleton _, ?_⟩
    intro old hold new hmem hsame
    rw [hsame, mem_singleton.1 hmem] at hold
    exact h.not_mem_of_contains hnew hold
  · rw [map_append, h.queued, drop_append_of_le_length h.within]
    rfl
  · rw [length_append]
    exact h.within.trans (Nat.le_add_right _ _)
  · refine pairwise_append.2 ⟨h.positions, pairwise_singleton _ _, ?_⟩
    intro old hold new hmem
    obtain rfl := mem_singleton.1 hmem
    exact Nat.lt_succ_of_le (h.given old hold).2
  · intro record hrecord
    rcases mem_append.1 hrecord with hold | hmem
    · obtain ⟨hpositive, hle⟩ := h.given record hold
      exact ⟨hpositive, Nat.le_succ_of_le hle⟩
    · obtain rfl := mem_singleton.1 hmem
      exact ⟨Nat.succ_pos _, le_refl _⟩

theorem commit (serde : Serde) (digest : String → ChainHash) (h : log.Holds history sent)
    (events : List (EventEnvelope RawPayload)) :
    ∃ added, (log.serve serde digest (.commit events)).Holds (history ++ added) sent ∧
      log.outbox <+: (log.serve serde digest (.commit events)).outbox := by
  simp only [serve]
  cases hwrite : log.writeEvents serde digest events with
  | error e => exact ⟨[], by rwa [append_nil], prefix_rfl⟩
  | ok =>
    simp only [writeEvents, bind_eq_ok, pure_eq_ok] at hwrite
    obtain ⟨⟨head, stored⟩, hfold, rfl⟩ := hwrite
    refine foldlM_invariant
      (fun state => ∃ added, state.2.Holds (history ++ added) sent ∧
        log.outbox <+: state.2.outbox)
      ?_ hfold ⟨[], by rwa [append_nil], prefix_rfl⟩
    rintro ⟨head₁, log₁⟩ envelope ⟨head₂, log₂⟩ _ ⟨added, hholds, hbefore⟩ hone
    obtain ⟨more, hholds', hmore⟩ := hholds.writeEvent hone
    refine ⟨added ++ more, ?_, hbefore.trans hmore⟩
    rwa [← append_assoc]

theorem outboxBatch_eq (h : log.Holds history sent) (limit : Nat) :
    log.outboxBatch 0 limit = log.outbox.take limit := by
  unfold outboxBatch
  rw [filter_eq_self.2]
  intro record hrecord
  exact decide_eq_true ((h.given record hrecord).1)

/-- Acknowledging through the last of the first records takes these off the outbox. -/
theorem acknowledge (h : log.Holds history sent) {k : Nat} {last : OutboxRecord}
    (hlast : (log.outbox.take k).getLast? = some last) (hk : k ≤ log.outbox.length) :
    (log.acknowledge last.position).outbox = log.outbox.drop k ∧
      (log.acknowledge last.position).Holds history (sent + k) := by
  have hmem := mem_of_getLast? hlast
  have hfits : toI64 last.position = last.position :=
    toI64_of_le ((h.given last (mem_of_mem_take hmem)).2.trans h.bounded)
  have houtbox : (log.acknowledge last.position).outbox = log.outbox.drop k := by
    have hsplit := h.positions
    rw [← take_append_drop k log.outbox] at hsplit
    obtain ⟨htaken, _, hacross⟩ := pairwise_append.1 hsplit
    show log.outbox.filter (fun record => decide (toI64 last.position < record.position)) = _
    rw [hfits]
    conv_lhs => rw [← take_append_drop k log.outbox]
    rw [filter_append, filter_eq_nil_iff.2, filter_eq_self.2, nil_append]
    · intro record hrecord
      exact decide_eq_true (hacross last hmem record hrecord)
    · intro record hrecord
      obtain ⟨front, hfront⟩ := getLast?_eq_some_iff.1 hlast
      rw [hfront] at hrecord htaken
      rcases mem_append.1 hrecord with hbefore | hsingle
      · have hlt := (pairwise_append.1 htaken).2.2 record hbefore last
          (mem_singleton_self last)
        simpa using le_of_lt hlt
      · rw [mem_singleton.1 hsingle]
        simp
  have hlength : log.outbox.length = history.length - sent := by
    have hlengths := congrArg length h.queued
    simpa using hlengths
  refine ⟨houtbox, h.stored, h.distinct, ?_, ?_, ?_, ?_, h.bounded⟩
  · rw [houtbox, map_drop, h.queued, drop_drop]
  · have hwithin := h.within
    omega
  · rw [houtbox]
    exact h.positions.sublist (drop_sublist k _)
  · rw [houtbox]
    intro record hrecord
    exact h.given record (mem_of_mem_drop hrecord)

theorem filterMap_events (h : log.Holds history sent) :
    log.events.filterMap (·.envelope) = history := by
  have henvelopes : log.events.map (·.envelope) = history.map some := by
    have hseconds := congrArg (map Prod.snd) h.stored
    simpa [map_map, Function.comp_def] using hseconds
  have hids : log.events.filterMap (·.envelope) = (log.events.map (·.envelope)).filterMap id := by
    rw [filterMap_map]
    rfl
  rw [hids, henvelopes, filterMap_map]
  exact filterMap_some

theorem getElem?_queued (h : log.Holds history sent) {i : Nat} {record : OutboxRecord}
    (hrecord : log.outbox[i]? = some record) : history[sent + i]? = some record.envelope := by
  rw [← getElem?_drop, ← h.queued, getElem?_map, hrecord]
  rfl

end EventLog.Holds

/-! ## The far side is never behind the acknowledgements -/

namespace Delivery

/-- What a drain pass knows is still so. -/
def Follows (log : EventLog) (sent heard : Nat) : DrainPhase → Prop
  | .idle => True
  | .publishing batch accepted => batch <+: log.outbox ∧ sent + accepted ≤ heard
  | .answered through => ∃ k ≤ log.outbox.length, ∃ last,
      (log.outbox.take k).getLast? = some last ∧ last.position = through ∧ sent + k ≤ heard

/-- A history of which the far side has heard the beginning, and of which less is acknowledged. -/
structure Sound (state : Delivery) (history : List (EventEnvelope RawPayload)) (sent heard : Nat) :
    Prop where
  holds : state.log.Holds history sent
  received : firsts (·.eventId) state.received = history.take heard
  acknowledged : sent ≤ heard
  within : heard ≤ history.length
  follows : Follows state.log sent heard state.phase

theorem Follows.grow {log log' : EventLog} {sent heard : Nat} {phase : DrainPhase}
    (h : Follows log sent heard phase) (houtbox : log.outbox <+: log'.outbox) :
    Follows log' sent heard phase := by
  cases phase with
  | idle => trivial
  | publishing => exact ⟨h.1.trans houtbox, h.2⟩
  | answered =>
    obtain ⟨k, hk, last, hlast, hthrough, hheard⟩ := h
    obtain ⟨more, hmore⟩ := houtbox
    refine ⟨k, ?_, last, ?_, hthrough, hheard⟩
    · rw [← hmore, length_append]
      exact hk.trans (Nat.le_add_right _ _)
    · rw [← hmore, take_append_of_le_length hk]
      exact hlast

variable {serde : Serde} {digest : String → ChainHash} {state : Delivery}
  {history : List (EventEnvelope RawPayload)} {sent heard : Nat}

theorem Sound.commit (serde : Serde) (digest : String → ChainHash)
    (h : state.Sound history sent heard) (events : List (EventEnvelope RawPayload)) :
    ∃ history', (state.step serde digest (.commit events)).Sound history' sent heard := by
  obtain ⟨added, hholds, houtbox⟩ := h.holds.commit serde digest events
  refine ⟨history ++ added, hholds, ?_, h.acknowledged, ?_, h.follows.grow houtbox⟩
  · rw [take_append_of_le_length h.within]
    exact h.received
  · rw [length_append]
    exact h.within.trans (Nat.le_add_right _ _)

theorem Sound.read (h : state.Sound history sent heard) (limit : Nat) :
    (state.step serde digest (.read limit)).Sound history sent heard := by
  cases hphase : state.phase with
  | publishing =>
    simp only [step, hphase]
    exact h
  | answered =>
    simp only [step, hphase]
    exact h
  | idle =>
    simp only [step, hphase]
    split
    · exact h
    · refine ⟨h.holds, h.received, h.acknowledged, h.within, ?_, h.acknowledged⟩
      rw [h.holds.outboxBatch_eq]
      exact take_prefix limit _

/-- The far side accepts an event: the next one of the history, or one it has heard. -/
theorem Sound.accept (serde : Serde) (digest : String → ChainHash)
    (h : state.Sound history sent heard) :
    ∃ heard', (state.step serde digest .accept).Sound history sent heard' := by
  cases hphase : state.phase with
  | idle =>
    simp only [step, hphase]
    exact ⟨heard, h⟩
  | answered =>
    simp only [step, hphase]
    exact ⟨heard, h⟩
  | publishing batch accepted =>
    simp only [step, hphase]
    cases hrecord : batch[accepted]? with
    | none => exact ⟨heard, h⟩
    | some record =>
      have hfollows := h.follows
      rw [hphase] at hfollows
      obtain ⟨⟨rest, hrest⟩, hheard⟩ := hfollows
      have hlt : accepted < batch.length := (List.getElem?_eq_some_iff.1 hrecord).1
      have houtbox : state.log.outbox[accepted]? = some record := by
        rw [← hrest, getElem?_append_left hlt]
        exact hrecord
      have hevent := h.holds.getElem?_queued houtbox
      have hbound : sent + accepted < history.length := (List.getElem?_eq_some_iff.1 hevent).1
      refine ⟨max heard (sent + accepted + 1), h.holds,
        firsts_hear h.holds.distinct h.received hheard hevent,
        h.acknowledged.trans (le_max_left _ _), max_le h.within hbound, ⟨rest, hrest⟩, ?_⟩
      exact le_max_right heard (sent + accepted + 1)

theorem Sound.answer (h : state.Sound history sent heard) (accepted : Nat) :
    (state.step serde digest (.answer accepted)).Sound history sent heard := by
  cases hphase : state.phase with
  | idle =>
    simp only [step, hphase]
    exact h
  | answered =>
    simp only [step, hphase]
    exact h
  | publishing batch sofar =>
    simp only [step, hphase]
    have hfollows := h.follows
    rw [hphase] at hfollows
    obtain ⟨⟨rest, hrest⟩, hheard⟩ := hfollows
    split
    · next hhonest =>
      cases hthrough : acknowledgeThrough (batch.map (·.position)) accepted with
      | none => exact ⟨h.holds, h.received, h.acknowledged, h.within, trivial⟩
      | some =>
        refine ⟨h.holds, h.received, h.acknowledged, h.within, ?_⟩
        simp only [acknowledgeThrough, length_map, Option.map_eq_some_iff] at hthrough
        obtain ⟨position, hposition, rfl⟩ := hthrough
        rw [← map_take, getLast?_map, Option.map_eq_some_iff] at hposition
        obtain ⟨last, hlast, rfl⟩ := hposition
        have hle : min accepted batch.length ≤ batch.length := min_le_right _ _
        refine ⟨min accepted batch.length, ?_, last, ?_, rfl, ?_⟩
        · rw [← hrest, length_append]
          exact hle.trans (Nat.le_add_right _ _)
        · rw [← hrest, take_append_of_le_length hle]
          exact hlast
        · exact (Nat.add_le_add_left hhonest sent).trans hheard
    · exact h

theorem Sound.acknowledge (serde : Serde) (digest : String → ChainHash)
    (h : state.Sound history sent heard) :
    ∃ sent', (state.step serde digest .acknowledge).Sound history sent' heard := by
  cases hphase : state.phase with
  | idle =>
    simp only [step, hphase]
    exact ⟨sent, h⟩
  | publishing =>
    simp only [step, hphase]
    exact ⟨sent, h⟩
  | answered =>
    simp only [step, hphase]
    have hfollows := h.follows
    rw [hphase] at hfollows
    obtain ⟨k, hk, last, hlast, rfl, hheard⟩ := hfollows
    exact ⟨sent + k, (h.holds.acknowledge hlast hk).2, h.received, hheard, h.within, trivial⟩

/-- Every step keeps the far side ahead of the acknowledgements. -/
theorem Sound.step (h : state.Sound history sent heard) (next : DeliveryStep) :
    ∃ history' sent' heard', (state.step serde digest next).Sound history' sent' heard' := by
  cases next with
  | commit events =>
    obtain ⟨history', hsound⟩ := h.commit serde digest events
    exact ⟨history', sent, heard, hsound⟩
  | read limit => exact ⟨history, sent, heard, h.read limit⟩
  | accept =>
    obtain ⟨heard', hsound⟩ := h.accept serde digest
    exact ⟨history, sent, heard', hsound⟩
  | answer accepted => exact ⟨history, sent, heard, h.answer accepted⟩
  | acknowledge =>
    obtain ⟨sent', hsound⟩ := h.acknowledge serde digest
    exact ⟨history, sent', heard, hsound⟩
  | stop =>
    exact ⟨history, sent, heard, h.holds, h.received, h.acknowledged, h.within, trivial⟩

theorem sound_run (serde : Serde) (digest : String → ChainHash) (steps : List DeliveryStep) :
    ∃ history sent heard, (run serde digest steps).Sound history sent heard := by
  induction steps using reverseRecOn with
  | nil => exact ⟨[], 0, 0, .empty, rfl, le_refl 0, le_refl 0, trivial⟩
  | append_singleton steps next ih =>
    obtain ⟨history, sent, heard, hsound⟩ := ih
    rw [run, foldl_append]
    exact hsound.step next

/-- A record leaves the outbox when it is acknowledged, and the far side has it then. -/
theorem Sound.received_of_left (h : state.Sound history sent heard) {next : DeliveryStep}
    {record : OutboxRecord} (hrecord : record ∈ state.log.outbox)
    (hleft : record ∉ (state.step serde digest next).log.outbox) :
    record.envelope ∈ state.received := by
  cases next with
  | commit events =>
    obtain ⟨_, _, houtbox⟩ := h.holds.commit serde digest events
    exact absurd (houtbox.subset hrecord) hleft
  | read =>
    refine absurd ?_ hleft
    cases hphase : state.phase with
    | publishing => simpa only [Delivery.step, hphase] using hrecord
    | answered => simpa only [Delivery.step, hphase] using hrecord
    | idle =>
      simp only [Delivery.step, hphase]
      split <;> exact hrecord
  | accept =>
    refine absurd ?_ hleft
    cases hphase : state.phase with
    | idle => simpa only [Delivery.step, hphase] using hrecord
    | answered => simpa only [Delivery.step, hphase] using hrecord
    | publishing batch accepted =>
      simp only [Delivery.step, hphase]
      cases batch[accepted]? <;> exact hrecord
  | answer accepted =>
    refine absurd ?_ hleft
    cases hphase : state.phase with
    | idle => simpa only [Delivery.step, hphase] using hrecord
    | answered => simpa only [Delivery.step, hphase] using hrecord
    | publishing batch sofar =>
      simp only [Delivery.step, hphase]
      split
      · cases acknowledgeThrough (batch.map (·.position)) accepted <;> exact hrecord
      · exact hrecord
  | stop => exact absurd hrecord hleft
  | acknowledge =>
    cases hphase : state.phase with
    | idle =>
      simp only [Delivery.step, hphase] at hleft
      exact absurd hrecord hleft
    | publishing =>
      simp only [Delivery.step, hphase] at hleft
      exact absurd hrecord hleft
    | answered =>
      simp only [Delivery.step, hphase] at hleft
      have hfollows := h.follows
      rw [hphase] at hfollows
      obtain ⟨k, hk, last, hlast, rfl, hheard⟩ := hfollows
      rw [(h.holds.acknowledge hlast hk).1] at hleft
      rw [← take_append_drop k state.log.outbox, mem_append] at hrecord
      have htaken : record ∈ state.log.outbox.take k := hrecord.resolve_right hleft
      obtain ⟨i, hi, rfl⟩ := mem_take_iff_getElem.1 htaken
      have hlt : i < state.log.outbox.length := by omega
      have hevent := h.holds.getElem?_queued (getElem?_eq_getElem hlt)
      refine mem_of_mem_firsts (?_ : _ ∈ firsts (·.eventId) state.received)
      rw [h.received]
      obtain ⟨hbound, hget⟩ := List.getElem?_eq_some_iff.1 hevent
      rw [← hget, mem_take_iff_getElem]
      exact ⟨sent + i, by omega, rfl⟩

/-- Whatever is committed, whatever part of each batch the far side accepts, and wherever a call
    fails or the process stops: what the far side has accepted, with repeats dropped by event id, is
    the beginning of what was committed, in the order it was committed; and a record leaves the
    outbox only when the far side has accepted its event. -/
theorem outbox_delivers_in_order (serde : Serde) (digest : String → ChainHash)
    (steps : List DeliveryStep) :
    firsts (·.eventId) (run serde digest steps).received <+:
      (run serde digest steps).log.events.filterMap (·.envelope) ∧
    ∀ next, ∀ record ∈ (run serde digest steps).log.outbox,
      record ∉ ((run serde digest steps).step serde digest next).log.outbox →
      record.envelope ∈ (run serde digest steps).received := by
  obtain ⟨history, sent, heard, hsound⟩ := sound_run serde digest steps
  constructor
  · rw [hsound.received, hsound.holds.filterMap_events]
    exact take_prefix heard history
  · intro next record hrecord hleft
    exact hsound.received_of_left hrecord hleft

end Delivery

end PosFramework
