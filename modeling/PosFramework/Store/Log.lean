import PosFramework.Lib.Fallible
import PosFramework.Store.Writer

set_option autoImplicit false

/-! # The event log

One store's rows of `events`, `outbox` and `chain_checkpoint`, and what the writer does to them: a
commit stores a batch and queues it for the link, chaining each event as it goes; an acknowledgement
takes events off the queue; a retention chunk deletes old events from the front and leaves a
checkpoint to verify from. -/

namespace PosFramework

open Fallible

/-! ## Rows -/

/-- The chain columns of a row of `events`; `seq` is an integer of SQLite's. -/
structure ChainColumns where
  seq : Nat
  prevHash : ChainHash
  hash : ChainHash
  seq_le : seq ≤ i64Max
deriving DecidableEq

/-- A row of `events`. -/
structure EventRow where
  eventId : EventId
  /-- What the stored text reads as, where it reads as an envelope. -/
  envelope : Option (EventEnvelope RawPayload)
  /-- None in a row from before there was a chain. -/
  chain : Option ChainColumns

/-- A row of `events` that is part of the chain. -/
structure ChainRow where
  eventId : EventId
  envelope : Option (EventEnvelope RawPayload)
  columns : ChainColumns
deriving DecidableEq

def EventRow.chained? (row : EventRow) : Option ChainRow :=
  row.chain.map fun columns => ⟨row.eventId, row.envelope, columns⟩

def ChainRow.toEventRow (row : ChainRow) : EventRow := ⟨row.eventId, row.envelope, some row.columns⟩

/-- The position of a chained row. -/
def ChainRow.seq (row : ChainRow) : Nat := row.columns.seq

/-- The link of a chained row. -/
def ChainRow.link (row : ChainRow) : ChainLink := ⟨row.columns.seq, row.columns.prevHash⟩

/-- A row of `outbox`: an event that the link has not acknowledged. -/
structure OutboxRecord where
  position : Nat
  envelope : EventEnvelope RawPayload

/-- The position and hash of a store's newest chained record. -/
structure ChainHead where
  seq : Nat
  hash : ChainHash

namespace ChainHead

/-- A store with no chained record. -/
def empty : ChainHead := ⟨0, .genesis⟩

/-- The link the next record takes. -/
def nextLink (head : ChainHead) : ChainLink :=
  if head.seq = 0 then .first else .following head.seq head.hash

end ChainHead

/-- One store's log. -/
structure EventLog where
  /-- In the order they were stored. -/
  events : List EventRow
  /-- In the order of their positions. -/
  outbox : List OutboxRecord
  /-- The last position the outbox gave out, which it never gives out again. -/
  lastPosition : Nat
  /-- The last record that retention deleted. -/
  checkpoint : Option ChainHead

namespace EventLog

def empty : EventLog := ⟨[], [], 0, none⟩

variable (log : EventLog)

/-- The chained rows in the order of their positions. -/
def chained : List ChainRow :=
  (log.events.filterMap EventRow.chained?).insertionSort fun a b => a.seq ≤ b.seq

/-- The last position and hash of the chain. -/
def chainHead : ChainHead :=
  match log.chained.getLast? with
  | some row => ⟨row.seq, row.columns.hash⟩
  | none => .empty

/-- Whether an event is stored. -/
def contains (eventId : EventId) : Bool := log.events.any fun row => decide (row.eventId = eventId)

/-! ## Commits -/

section Commit

variable (serde : Serde) (digest : String → ChainHash)

/-- Queue an event for the link. A position is given out once, so there is a last one. -/
def enqueue (envelope : EventEnvelope RawPayload) : Except StoreError EventLog :=
  if log.lastPosition < i64Max then
    .ok { log with
      outbox := log.outbox ++ [⟨log.lastPosition + 1, envelope⟩]
      lastPosition := log.lastPosition + 1 }
  else .error .db

/-- Store one event of a batch at the head. One whose id is stored already is passed over, and the
    head stays. -/
def writeEvent (state : ChainHead × EventLog) (envelope : EventEnvelope RawPayload) :
    Except StoreError (ChainHead × EventLog) := do
  let link := state.1.nextLink
  let hash ← okOr .json (envelope.chainHash serde digest link)
  let stamped := { envelope with chain := some link }
  if state.2.contains envelope.eventId then pure state
  else do
    let columns : ChainColumns := ⟨toI64 link.seq, link.prevHash, hash, toI64_le link.seq⟩
    let row : EventRow := ⟨envelope.eventId, some stamped, some columns⟩
    let written ← { state.2 with events := state.2.events ++ [row] }.enqueue stamped
    pure (⟨link.seq, hash⟩, written)

/-- A batch is appended, each event once. -/
def writeEvents (events : List (EventEnvelope RawPayload)) : Except StoreError EventLog := do
  let head := if events.isEmpty then .empty else log.chainHead
  let (_, written) ← events.foldlM (writeEvent serde digest) (head, log)
  pure written

end Commit

/-! ## The outbox -/

/-- What is not acknowledged, from a position on. -/
def outboxBatch (after limit : Nat) : List OutboxRecord :=
  (log.outbox.filter fun record => decide (toI64 after < record.position)).take limit

/-- Take the events up to a position off the queue. -/
def acknowledge (through : Nat) : EventLog :=
  { log with outbox := log.outbox.filter fun record => decide (toI64 through < record.position) }

/-! ## Retention -/

/-- Whether a row's event is older than a time. One that cannot be read is kept. -/
def storedBefore (envelope : Option (EventEnvelope RawPayload)) (before : Timestamp) : Bool :=
  envelope.any fun event => decide (event.eventTime.epochMs < before.epochMs)

structure PruneChunk where
  deleted : Nat
  /-- Whether it stopped at its limit. -/
  more : Bool

/-- Delete the rows from before the chain, oldest first, as far as they are old; none where there
    are none left. -/
def pruneUnchained (before : Timestamp) (limit : Nat) : Option (PruneChunk × EventLog) :=
  let unchained := ((log.events.filter fun row => row.chain.isNone).insertionSort
    fun a b => a.eventId ≤ b.eventId).take limit
  if unchained.isEmpty then none
  else
    let gone := unchained.takeWhile fun row => storedBefore row.envelope before
    some (⟨gone.length, decide (gone.length = unchained.length)⟩,
      { log with
        events := log.events.filter fun row => decide (row.eventId ∉ gone.map (·.eventId)) })

/-- Whether retention stops at a row: the head, one not acknowledged, one not old. -/
def stops (syncedBelow : Option Nat) (before : Timestamp) (row : ChainRow) : Bool :=
  (log.chained.getLast?.map (·.seq)).all (fun head => decide (head ≤ row.seq)) ||
    syncedBelow.any (fun synced => decide (synced ≤ row.seq)) || !storedBefore row.envelope before

/-- The chained rows a chunk deletes: those past the checkpoint up to the first it stops at. -/
def prunable (syncedBelow : Option Nat) (before : Timestamp) (limit : Nat) : List ChainRow :=
  let checkpoint := toI64 ((log.checkpoint.map (·.seq)).getD 0)
  ((log.chained.filter fun row => decide (checkpoint < row.seq)).take limit).takeWhile
    fun row => !log.stops syncedBelow before row

/-- One chunk of retention, of the chained rows. -/
def pruneChained (syncedBelow : Option Nat) (before : Timestamp) (limit : Nat) :
    PruneChunk × EventLog :=
  let checkpoint := toI64 ((log.checkpoint.map (·.seq)).getD 0)
  let gone := log.prunable syncedBelow before limit
  let pruned := match gone.getLast? with
    | some last =>
      { log with
        events := log.events.filter fun row =>
          !row.chain.any fun columns => decide (checkpoint < columns.seq ∧ columns.seq ≤ last.seq)
        checkpoint := some ⟨last.seq, last.columns.hash⟩ }
    | none => log
  (⟨gone.length, decide (gone.length = limit)⟩, pruned)

/-- The position of the first event that is not acknowledged. One from before the chain has none. -/
def firstUnsynced : Option (Option Nat) := log.outbox.head?.map fun record =>
  record.envelope.chain.map (·.seq)

/-- One retention chunk. -/
def pruneEvents (before : Timestamp) (limit : Nat) : PruneChunk × EventLog :=
  match log.firstUnsynced with
  | some none => (⟨0, false⟩, log)
  | synced =>
    match log.pruneUnchained before limit with
    | some pruned => pruned
    | none => log.pruneChained synced.join before limit

end EventLog

/-! ## Requests -/

/-- What is asked of the writer: to commit a batch of the store's events, to acknowledge up to a
    position, to delete one chunk of what is older than a time. -/
inductive LogCall
  | commit (events : List (EventEnvelope RawPayload))
  | acknowledge (through : Nat)
  | prune (before : Timestamp) (limit : Nat)

namespace EventLog

variable (serde : Serde) (digest : String → ChainHash)

/-- The log after a request. A commit that fails is rolled back. -/
def serve (log : EventLog) : LogCall → EventLog
  | .commit events =>
    match log.writeEvents serde digest events with
    | .ok written => written
    | .error _ => log
  | .acknowledge through => log.acknowledge through
  | .prune before limit => (log.pruneEvents before limit).2

/-- The log after requests, on a store that has stored nothing. -/
def after (calls : List LogCall) : EventLog := calls.foldl (serve serde digest) empty

theorem after_append (calls more : List LogCall) :
    after serde digest (calls ++ more) =
      more.foldl (serve serde digest) (after serde digest calls) :=
  List.foldl_append

end EventLog

end PosFramework
