import PosFramework.Store.Walk

set_option autoImplicit false

/-! # The log is a chain

Commits, acknowledgements and retention chunks, in any order, keep a store's log a chain that begins
at its checkpoint: what is stored is linked, a position is given out once, the walk finds nothing,
and retention takes only what is acknowledged and old, from the front, and never the head. -/

namespace PosFramework

open Fallible HashChain List ChainRow

/-- Where a log's chain begins: after the checkpoint, or before the first record. -/
def EventLog.base (log : EventLog) : ChainHead := log.checkpoint.getD .empty

/-- A log whose rows are a chain. The outbox holds the rows that are not acknowledged, which are the
    last ones. -/
structure EventLog.ChainedBy (serde : Serde) (digest : String → ChainHash) (log : EventLog)
    (rows : List ChainRow) : Prop where
  stored : log.events = rows.map toEventRow
  linked : Linked (chainLinks serde digest) log.base.seq log.base.hash rows
  kept : rows = [] → log.checkpoint = none
  distinct : (rows.map (·.eventId)).Nodup
  stamped : ∀ row ∈ rows, ∃ envelope, row.envelope = some envelope ∧
    envelope.eventId = row.eventId ∧ envelope.chain = some row.link
  queued : ∃ sent ≤ rows.length,
    log.outbox.map (fun record => some record.envelope) = (rows.drop sent).map (·.envelope)
  positions : log.outbox.Pairwise fun a b => a.position < b.position
  given : ∀ record ∈ log.outbox, record.position ≤ log.lastPosition
  numbered : log.base.seq + rows.length ≤ log.lastPosition
  bounded : log.lastPosition ≤ i64Max

/-- The elements past a bound, in a list where they ascend, are the last ones. -/
theorem exists_filter_eq_drop {α : Type} {f : α → Nat} {xs : List α}
    (h : xs.Pairwise fun a b => f a < f b) (bound : Nat) :
    ∃ k ≤ xs.length, (xs.filter fun a => decide (bound < f a)) = xs.drop k := by
  induction xs with
  | nil => exact ⟨0, le_refl 0, rfl⟩
  | cons x xs ih =>
    obtain ⟨hfirst, hrest⟩ := pairwise_cons.1 h
    by_cases hx : bound < f x
    · refine ⟨0, Nat.zero_le _, ?_⟩
      rw [drop_zero, filter_eq_self]
      intro a ha
      rcases mem_cons.1 ha with rfl | hmem
      · exact decide_eq_true hx
      · exact decide_eq_true (hx.trans (hfirst a hmem))
    · obtain ⟨k, hk, heq⟩ := ih hrest
      refine ⟨k + 1, Nat.succ_le_succ hk, ?_⟩
      rw [filter_cons_of_neg (by simpa using hx), drop_succ_cons, heq]

namespace EventLog

variable {serde : Serde} {digest : String → ChainHash} {log : EventLog} {rows : List ChainRow}
  {row : ChainRow}

namespace ChainedBy

theorem filterMap_stored (rows : List ChainRow) :
    (rows.map toEventRow).filterMap EventRow.chained? = rows := by
  rw [filterMap_map]
  exact filterMap_some

theorem chained_eq (h : log.ChainedBy serde digest rows) : log.chained = rows := by
  rw [chained, h.stored, filterMap_stored]
  exact (h.linked.pairwise.imp fun hlt => le_of_lt hlt).insertionSort_eq

/-- The head is the last row, or the place the chain begins. -/
theorem chainHead_eq (h : log.ChainedBy serde digest rows) :
    log.chainHead = ⟨log.base.seq + rows.length,
      endHash (chainLinks serde digest) log.base.hash rows⟩ := by
  rw [chainHead, h.chained_eq]
  cases hlast : rows.getLast? with
  | none =>
    obtain rfl := getLast?_eq_none_iff.1 hlast
    rw [base, h.kept rfl]
    rfl
  | some last =>
    obtain ⟨hseq, hhash⟩ := h.linked.getLast? hlast
    rw [← hseq, ← hhash]
    rfl

theorem seq_le_chainHead (h : log.ChainedBy serde digest rows) (hrow : row ∈ rows) :
    row.seq ≤ log.chainHead.seq := by
  rw [h.chainHead_eq]
  exact (h.linked.seq_mem hrow).2

/-- The next record follows the last row. -/
theorem nextLink_eq (h : log.ChainedBy serde digest rows) (hroom : log.lastPosition < i64Max) :
    log.chainHead.nextLink = ⟨log.base.seq + rows.length + 1,
      endHash (chainLinks serde digest) log.base.hash rows⟩ := by
  have hhead := h.chainHead_eq
  have hfits : log.base.seq + rows.length < u64Max :=
    lt_trans (lt_of_le_of_lt h.numbered hroom) i64Max_lt_u64Max
  unfold ChainHead.nextLink
  rw [hhead]
  by_cases hzero : log.base.seq + rows.length = 0
  · have hrows : rows = [] := length_eq_zero_iff.1 (by omega)
    subst hrows
    rw [if_pos hzero, hzero, base, h.kept rfl]
    rfl
  · rw [if_neg hzero, ChainLink.following, u64SaturatingAdd_one hfits]

end ChainedBy

theorem chainedBy_empty (serde : Serde) (digest : String → ChainHash) :
    empty.ChainedBy serde digest [] where
  stored := rfl
  linked := .nil _ _
  kept := fun _ => rfl
  distinct := nodup_nil
  stamped := fun _ hrow => absurd hrow not_mem_nil
  queued := ⟨0, le_refl 0, rfl⟩
  positions := .nil
  given := fun _ hrecord => absurd hrecord not_mem_nil
  numbered := le_refl 0
  bounded := Nat.zero_le _

/-! ## Commits -/

variable {log' : EventLog} {sent k : Nat} {envelope : EventEnvelope RawPayload}

/-- What storing one event does: it is passed over, or it is the last row and the last in the
    outbox. -/
theorem writeEvent_cases {head head' : ChainHead}
    (h : writeEvent serde digest (head, log) envelope = .ok (head', log')) :
    (head' = head ∧ log' = log) ∨
    ∃ hash, envelope.chainHash serde digest head.nextLink = some hash ∧
      log.contains envelope.eventId = false ∧ log.lastPosition < i64Max ∧
      head' = ⟨head.nextLink.seq, hash⟩ ∧
      log' =
        { log with
          events := log.events ++ [⟨envelope.eventId,
            some { envelope with chain := some head.nextLink },
            some ⟨toI64 head.nextLink.seq, head.nextLink.prevHash, hash, toI64_le _⟩⟩]
          outbox := log.outbox ++
            [⟨log.lastPosition + 1, { envelope with chain := some head.nextLink }⟩]
          lastPosition := log.lastPosition + 1 } := by
  simp only [writeEvent, bind_eq_ok, okOr_eq_ok] at h
  obtain ⟨hash, hhash, h⟩ := h
  split at h
  · rw [pure_eq_ok, Prod.mk.injEq] at h
    exact .inl ⟨h.1.symm, h.2.symm⟩
  · next hstored =>
    simp only [bind_eq_ok, pure_eq_ok, Prod.mk.injEq] at h
    obtain ⟨written, hwritten, rfl, rfl⟩ := h
    unfold enqueue at hwritten
    split at hwritten
    · next hroom =>
      refine .inr ⟨hash, hhash, eq_false_of_ne_true hstored, hroom, rfl, ?_⟩
      exact (Except.ok.inj hwritten).symm
    · contradiction

theorem ChainedBy.not_mem_of_contains (h : log.ChainedBy serde digest rows) {eventId : EventId}
    (hnew : log.contains eventId = false) : eventId ∉ rows.map (·.eventId) := by
  intro hmem
  obtain ⟨row, hrow, rfl⟩ := mem_map.1 hmem
  have hstored : row.toEventRow ∈ log.events := h.stored ▸ mem_map_of_mem hrow
  have hcontains : log.contains row.eventId = true :=
    any_eq_true.2 ⟨row.toEventRow, hstored, decide_eq_true rfl⟩
  rw [hnew] at hcontains
  contradiction

/-- Storing one event keeps the chain, which grows by it at most. -/
theorem ChainedBy.writeEvent (h : log.ChainedBy serde digest rows) {head : ChainHead}
    (hwrite : writeEvent serde digest (log.chainHead, log) envelope = .ok (head, log')) :
    head = log'.chainHead ∧ log'.checkpoint = log.checkpoint ∧
      ∃ added, log'.ChainedBy serde digest (rows ++ added) := by
  rcases writeEvent_cases hwrite with ⟨rfl, rfl⟩ | ⟨hash, hhash, hnew, hroom, hhead, hlog⟩
  · exact ⟨rfl, rfl, [], by rwa [append_nil]⟩
  have hlink := h.nextLink_eq hroom
  have hle : log.chainHead.nextLink.seq ≤ i64Max := by
    rw [hlink]
    exact le_trans (Nat.succ_le_succ h.numbered) hroom
  let stamped : EventEnvelope RawPayload := { envelope with chain := some log.chainHead.nextLink }
  let row : ChainRow := ⟨envelope.eventId, some stamped,
    ⟨toI64 log.chainHead.nextLink.seq, log.chainHead.nextLink.prevHash, hash, toI64_le _⟩⟩
  have hseq : row.seq = log.chainHead.nextLink.seq := toI64_of_le hle
  have hrowLink : row.link = log.chainHead.nextLink := by
    show (⟨row.seq, log.chainHead.nextLink.prevHash⟩ : ChainLink) = _
    rw [hseq]
  have hbase : log'.base = log.base := by rw [hlog]; rfl
  have hchained : log'.ChainedBy serde digest (rows ++ [row]) := by
    refine ⟨?_, ?_, ?_, ?_, ?_, ?_, ?_, ?_, ?_, ?_⟩
    · rw [hlog, map_append, ← h.stored]
      rfl
    · rw [hbase]
      refine h.linked.concat ?_ ?_ ⟨stamped, rfl, ?_⟩
      · show row.seq = _
        rw [hseq, hlink]
      · show log.chainHead.nextLink.prevHash = _
        rw [hlink]
      · rw [hrowLink]
        exact hhash
    · intro hnil
      simp at hnil
    · rw [map_append, map_singleton]
      refine nodup_append.2 ⟨h.distinct, nodup_singleton _, ?_⟩
      intro old hold new hmem hsame
      rw [hsame, mem_singleton.1 hmem] at hold
      exact h.not_mem_of_contains hnew hold
    · intro other hother
      rcases mem_append.1 hother with hold | hlast
      · exact h.stamped other hold
      · obtain rfl := mem_singleton.1 hlast
        exact ⟨stamped, rfl, rfl, by rw [hrowLink]⟩
    · obtain ⟨sent, hsent, houtbox⟩ := h.queued
      refine ⟨sent, ?_, ?_⟩
      · rw [length_append]
        omega
      · rw [hlog, map_append, houtbox, drop_append_of_le_length hsent, map_append]
        rfl
    · rw [hlog]
      refine pairwise_append.2 ⟨h.positions, pairwise_singleton _ _, ?_⟩
      intro old hold new hnewest
      obtain rfl := mem_singleton.1 hnewest
      exact Nat.lt_succ_of_le (h.given old hold)
    · intro record hrecord
      rw [hlog] at hrecord ⊢
      rcases mem_append.1 hrecord with hold | hnewest
      · exact Nat.le_succ_of_le (h.given record hold)
      · obtain rfl := mem_singleton.1 hnewest
        exact le_refl _
    · rw [hbase, hlog, length_append, length_singleton]
      exact Nat.succ_le_succ h.numbered
    · rw [hlog]
      exact hroom
  refine ⟨?_, by rw [hlog], [row], hchained⟩
  rw [hchained.chainHead_eq, hbase, hhead, endHash_append, endHash_cons, endHash_nil,
    length_append, length_singleton, hlink]
  rfl

theorem ChainedBy.writeEvents (h : log.ChainedBy serde digest rows)
    {events : List (EventEnvelope RawPayload)}
    (hwrite : log.writeEvents serde digest events = .ok log') :
    log'.checkpoint = log.checkpoint ∧ ∃ added, log'.ChainedBy serde digest (rows ++ added) := by
  simp only [EventLog.writeEvents, bind_eq_ok, pure_eq_ok] at hwrite
  obtain ⟨⟨head, written⟩, hfold, rfl⟩ := hwrite
  cases events with
  | nil =>
    obtain ⟨_, rfl⟩ := hfold
    exact ⟨rfl, [], by rwa [append_nil]⟩
  | cons =>
    -- along the batch the head that is carried is the head of what is stored
    have hcarried : head = written.chainHead ∧ written.checkpoint = log.checkpoint ∧
        ∃ added, written.ChainedBy serde digest (rows ++ added) := by
      refine foldlM_invariant
        (fun state => state.1 = state.2.chainHead ∧ state.2.checkpoint = log.checkpoint ∧
          ∃ added, state.2.ChainedBy serde digest (rows ++ added))
        ?_ hfold ⟨rfl, rfl, [], by rwa [append_nil]⟩
      rintro ⟨head, log₁⟩ envelope ⟨head', log₂⟩ _ ⟨hhead, hcheckpoint, added, hchained⟩ hone
      obtain rfl : head = log₁.chainHead := hhead
      obtain ⟨hhead', hcheckpoint', more, hchained'⟩ := hchained.writeEvent hone
      refine ⟨hhead', hcheckpoint'.trans hcheckpoint, added ++ more, ?_⟩
      rwa [← append_assoc]
    exact hcarried.2

/-! ## Acknowledgements -/

theorem ChainedBy.acknowledge (h : log.ChainedBy serde digest rows) (through : Nat) :
    (log.acknowledge through).ChainedBy serde digest rows := by
  obtain ⟨k, hk, hdrop⟩ := exists_filter_eq_drop h.positions (toI64 through)
  have houtbox : (log.acknowledge through).outbox = log.outbox.drop k := hdrop
  refine ⟨h.stored, h.linked, h.kept, h.distinct, h.stamped, ?_, ?_, ?_, h.numbered, h.bounded⟩
  · obtain ⟨sent, hsent, hqueued⟩ := h.queued
    have hlength : log.outbox.length = rows.length - sent := by
      have hlengths := congrArg length hqueued
      simpa using hlengths
    refine ⟨sent + k, by omega, ?_⟩
    rw [houtbox, map_drop, hqueued, ← map_drop, drop_drop]
  · rw [houtbox]
    exact h.positions.sublist (drop_sublist k _)
  · intro record hrecord
    rw [houtbox] at hrecord
    exact h.given record (mem_of_mem_drop hrecord)

/-! ## Retention -/

/-- A row that retention may take: acknowledged, old, and not the head. -/
structure Prunable (log : EventLog) (before : Timestamp) (row : ChainRow) : Prop where
  acknowledged : ∀ record ∈ log.outbox, record.envelope.eventId ≠ row.eventId
  old : storedBefore row.envelope before = true
  not_head : row.seq < log.chainHead.seq

/-- The first event not acknowledged has a position: the row's that it is a copy of. -/
theorem ChainedBy.firstUnsynced_eq (h : log.ChainedBy serde digest rows)
    (hqueued : log.outbox.map (fun record => some record.envelope) =
      (rows.drop sent).map (·.envelope)) :
    log.firstUnsynced = (rows.drop sent).head?.map fun row => some row.seq := by
  unfold firstUnsynced
  cases houtbox : log.outbox with
  | nil =>
    rw [houtbox] at hqueued
    rw [map_eq_nil_iff.1 hqueued.symm]
    rfl
  | cons record records =>
    cases hrows : rows.drop sent with
    | nil =>
      rw [houtbox, hrows] at hqueued
      contradiction
    | cons row rest =>
      rw [houtbox, hrows, map_cons, map_cons] at hqueued
      have henvelope : some record.envelope = row.envelope := (cons.inj hqueued).1
      have hrow : row ∈ rows := mem_of_mem_drop (hrows ▸ mem_cons_self)
      obtain ⟨envelope, hstored, _, hchain⟩ := h.stamped row hrow
      obtain rfl : record.envelope = envelope := Option.some.inj (henvelope.trans hstored)
      simp only [head?_cons, Option.map_some, hchain]
      rfl

theorem stops_eq_false {syncedBelow : Option Nat} {before : Timestamp} :
    log.stops syncedBelow before row = false ↔ row.seq < log.chainHead.seq ∧
      (∀ synced ∈ syncedBelow, row.seq < synced) ∧ storedBefore row.envelope before = true := by
  unfold stops chainHead
  simp only [Bool.or_eq_false_iff, and_assoc]
  refine and_congr ?_ (and_congr ?_ (by simp))
  · cases log.chained.getLast? with
    | none => simp [ChainHead.empty]
    | some last => simp
  · cases syncedBelow <;> simp

/-- The rows a chunk takes are the first ones, up to one it stops at. -/
theorem ChainedBy.prunable_eq (h : log.ChainedBy serde digest rows) (syncedBelow : Option Nat)
    (before : Timestamp) (limit : Nat) :
    ∃ k ≤ rows.length, log.prunable syncedBelow before limit = rows.take k ∧
      ∀ row ∈ rows.take k, log.stops syncedBelow before row = false := by
  have hcheckpoint : (log.checkpoint.map (·.seq)).getD 0 = log.base.seq := by
    unfold base
    cases log.checkpoint <;> rfl
  have hpast : (log.chained.filter fun row =>
      decide (toI64 ((log.checkpoint.map (·.seq)).getD 0) < row.seq)) = rows := by
    rw [h.chained_eq, hcheckpoint, filter_eq_self]
    intro row hrow
    exact decide_eq_true ((toI64_lt_iff row.seq_le).2 (h.linked.seq_mem hrow).1)
  have hfirst : log.prunable syncedBelow before limit <+: rows := by
    dsimp only [prunable]
    rw [hpast]
    refine IsPrefix.trans ?_ <| take_prefix limit rows
    exact takeWhile_prefix _
  refine ⟨(log.prunable syncedBelow before limit).length, hfirst.length_le,
    prefix_iff_eq_take.1 hfirst, ?_⟩
  rw [← prefix_iff_eq_take.1 hfirst]
  intro row hrow
  simpa using mem_takeWhile_imp hrow

/-- The rows that are left when the first ones go. -/
theorem ChainedBy.filter_stored (h : log.ChainedBy serde digest rows) (hk : k ≤ rows.length)
    (hbound : log.base.seq ≤ i64Max) :
    (log.events.filter fun row => !row.chain.any fun columns =>
      decide (toI64 log.base.seq < columns.seq ∧ columns.seq ≤ log.base.seq + k)) =
      (rows.drop k).map toEventRow := by
  rw [h.stored, filter_map, ← h.linked.filter_gt hk]
  congr 1
  refine filter_congr fun row hrow => ?_
  have hpast := (h.linked.seq_mem hrow).1
  show (!decide (toI64 log.base.seq < row.seq ∧ row.seq ≤ log.base.seq + k)) =
    decide (log.base.seq + k < row.seq)
  rw [toI64_of_le hbound]
  have hpast' : log.base.seq < row.seq := hpast
  by_cases hle : row.seq ≤ log.base.seq + k
  · simp [hpast', hle, Nat.not_lt.2 hle]
  · simp [hle, Nat.not_le.1 hle]

/-- Retention takes no row that is not acknowledged, because it stops at the first of them. -/
theorem ChainedBy.acknowledged_of_take (h : log.ChainedBy serde digest rows)
    (hqueued : log.outbox.map (fun record => some record.envelope) =
      (rows.drop sent).map (·.envelope))
    (hk : k ≤ sent) (hrow : row ∈ rows.take k) :
    ∀ record ∈ log.outbox, record.envelope.eventId ≠ row.eventId := by
  intro record hrecord hsame
  have hmem : some record.envelope ∈ (rows.drop sent).map (·.envelope) :=
    hqueued ▸ mem_map_of_mem (f := fun record => some record.envelope) hrecord
  obtain ⟨other, hother, hstored⟩ := mem_map.1 hmem
  obtain ⟨envelope, henvelope, hid, _⟩ := h.stamped other (mem_of_mem_drop hother)
  obtain rfl : envelope = record.envelope := Option.some.inj (henvelope.symm.trans hstored)
  -- the two rows stand on either side of the first that is not acknowledged
  have hdistinct := h.distinct
  rw [← take_append_drop sent rows, map_append, nodup_append] at hdistinct
  refine hdistinct.2.2 row.eventId ?_ other.eventId (mem_map_of_mem hother) ?_
  · exact mem_map_of_mem (take_subset_take_left rows hk hrow)
  · rw [← hid, hsame]

theorem ChainedBy.pruneUnchained_eq (h : log.ChainedBy serde digest rows) (before : Timestamp)
    (limit : Nat) : log.pruneUnchained before limit = none := by
  have hnone : (log.events.filter fun row => row.chain.isNone) = [] := by
    rw [h.stored, filter_eq_nil_iff]
    intro row hrow
    obtain ⟨chained, _, rfl⟩ := mem_map.1 hrow
    simp [toEventRow]
  dsimp only [pruneUnchained]
  rw [hnone, insertionSort_nil, take_nil]
  rfl

/-- The rows left when the first ones go are a chain from the last of them. -/
theorem ChainedBy.pruneFront (h : log.ChainedBy serde digest rows) (hk : k < rows.length ∨ k = 0)
    (hsent : sent ≤ rows.length) (hsynced : k ≤ sent)
    (hqueued : log.outbox.map (fun record => some record.envelope) =
      (rows.drop sent).map (·.envelope))
    (houtbox : log'.outbox = log.outbox) (hposition : log'.lastPosition = log.lastPosition)
    (hevents : log'.events = (rows.drop k).map toEventRow) (hseq : log'.base.seq = log.base.seq + k)
    (hhash : log'.base.hash = endHash (chainLinks serde digest) log.base.hash (rows.take k))
    (hkept : k = 0 → log'.checkpoint = log.checkpoint) :
    log'.ChainedBy serde digest (rows.drop k) := by
  have hle : k ≤ rows.length := hsynced.trans hsent
  refine ⟨hevents, ?_, ?_, ?_, ?_, ⟨sent - k, ?_, ?_⟩, ?_, ?_, ?_, ?_⟩
  · rw [hseq, hhash]
    exact h.linked.drop k hle
  · intro hnil
    rcases hk with hlt | rfl
    · exact absurd (drop_eq_nil_iff.1 hnil) (Nat.not_le.2 hlt)
    · rw [hkept rfl, h.kept (by simpa using hnil)]
  · rw [map_drop]
    exact h.distinct.sublist (drop_sublist k _)
  · intro row hrow
    exact h.stamped row (mem_of_mem_drop hrow)
  · rw [length_drop]
    omega
  · rw [houtbox, hqueued, drop_drop, Nat.add_sub_cancel' hsynced]
  · rw [houtbox]
    exact h.positions
  · rw [houtbox, hposition]
    exact h.given
  · have hnumbered := h.numbered
    rw [hseq, hposition, length_drop]
    omega
  · rw [hposition]
    exact h.bounded

/-- A chunk takes the first rows of a chain, as far as it may, and leaves the rest to be verified
    from the last of them. -/
theorem ChainedBy.pruneChained (h : log.ChainedBy serde digest rows) (hsent : sent ≤ rows.length)
    (hqueued : log.outbox.map (fun record => some record.envelope) =
      (rows.drop sent).map (·.envelope))
    (before : Timestamp) (limit : Nat) {chunk : PruneChunk}
    (hpruned : log.pruneChained ((rows.drop sent).head?.map (·.seq)) before limit = (chunk, log')) :
    ∃ k ≤ rows.length, log'.ChainedBy serde digest (rows.drop k) ∧
      log'.base = ⟨log.base.seq + k,
        endHash (chainLinks serde digest) log.base.hash (rows.take k)⟩ ∧ chunk.deleted = k ∧
          ∀ row ∈ rows.take k, log.Prunable before row := by
  obtain ⟨k, hk, hgone, hpass⟩ :=
    h.prunable_eq ((rows.drop sent).head?.map (·.seq)) before limit
  have hsynced : k ≤ sent := by
    by_contra hpast
    have hlt : sent < k := Nat.not_le.1 hpast
    have hrow : sent < rows.length := lt_of_lt_of_le hlt hk
    have hfirst : (rows.drop sent).head?.map (·.seq) = some (rows.get ⟨sent, hrow⟩).seq := by
      rw [head?_drop, getElem?_eq_getElem hrow]
      rfl
    have hmem : rows.get ⟨sent, hrow⟩ ∈ rows.take k := by
      rw [get_eq_getElem, mem_take_iff_getElem]
      exact ⟨sent, by omega, rfl⟩
    exact lt_irrefl _ ((stops_eq_false.1 (hpass _ hmem)).2.1 _ hfirst)
  have hprunable : ∀ row ∈ rows.take k, log.Prunable before row := by
    intro row hrow
    obtain ⟨hnothead, _, hold⟩ := stops_eq_false.1 (hpass row hrow)
    exact ⟨h.acknowledged_of_take hqueued hsynced hrow, hold, hnothead⟩
  have hcheckpoint : (log.checkpoint.map (·.seq)).getD 0 = log.base.seq := by
    unfold base
    cases log.checkpoint <;> rfl
  have hbound : log.base.seq ≤ i64Max := (Nat.le_add_right _ _).trans (h.numbered.trans h.bounded)
  dsimp only [EventLog.pruneChained] at hpruned
  rw [hgone, hcheckpoint] at hpruned
  cases hlast : (rows.take k).getLast? with
  | none =>
    have hnil := getLast?_eq_none_iff.1 hlast
    rw [hlast, hnil] at hpruned
    obtain ⟨rfl, rfl⟩ := Prod.mk.inj hpruned
    exact ⟨0, Nat.zero_le _, h, rfl, rfl, fun row hrow => absurd hrow not_mem_nil⟩
  | some last =>
    have htaken := (linked_append.1 ((take_append_drop k rows).symm ▸ h.linked)).1
    obtain ⟨hseq, hhash⟩ := htaken.getLast? hlast
    rw [length_take, Nat.min_eq_left hk] at hseq
    have hseq' : last.seq = log.base.seq + k := hseq
    have hlt : k < rows.length := by
      have hnothead := (hprunable last (mem_of_getLast? hlast)).not_head
      rw [h.chainHead_eq, hseq'] at hnothead
      exact Nat.lt_of_add_lt_add_left hnothead
    rw [hlast] at hpruned
    obtain ⟨rfl, rfl⟩ := Prod.mk.inj hpruned
    refine ⟨k, hk, h.pruneFront (.inl hlt) hsent hsynced hqueued rfl rfl ?_ hseq' hhash ?_, ?_, ?_,
      hprunable⟩
    · dsimp only
      rw [hseq']
      exact h.filter_stored hk hbound
    · rintro rfl
      simp at hlast
    · rw [← hseq', ← hhash]
      rfl
    · rw [length_take, Nat.min_eq_left hk]

/-- What one retention chunk does to a chain. -/
theorem ChainedBy.pruneEvents (h : log.ChainedBy serde digest rows) (before : Timestamp)
    (limit : Nat) :
    ∃ k ≤ rows.length, (log.pruneEvents before limit).2.ChainedBy serde digest (rows.drop k) ∧
      (log.pruneEvents before limit).2.base = ⟨log.base.seq + k,
        endHash (chainLinks serde digest) log.base.hash (rows.take k)⟩ ∧
      (log.pruneEvents before limit).1.deleted = k ∧
      ∀ row ∈ rows.take k, log.Prunable before row := by
  obtain ⟨sent, hsent, hqueued⟩ := h.queued
  have hprune : log.pruneEvents before limit =
      log.pruneChained ((rows.drop sent).head?.map (·.seq)) before limit := by
    unfold EventLog.pruneEvents
    rw [h.firstUnsynced_eq hqueued, h.pruneUnchained_eq]
    cases (rows.drop sent).head? <;> rfl
  rw [hprune]
  exact h.pruneChained hsent hqueued before limit rfl

/-! ## Runs -/

/-- A commit does not move the beginning of the chain. -/
theorem ChainedBy.base_commit (h : log.ChainedBy serde digest rows)
    (events : List (EventEnvelope RawPayload)) :
    (log.serve serde digest (.commit events)).base = log.base := by
  simp only [EventLog.serve]
  cases hwrite : log.writeEvents serde digest events with
  | error e => rfl
  | ok =>
    unfold base
    rw [(h.writeEvents hwrite).1]

/-- What one request does to a chain: rows go from the front, and others come at the end. -/
theorem ChainedBy.serve (h : log.ChainedBy serde digest rows) (call : LogCall) :
    ∃ k ≤ rows.length, ∃ added, (log.serve serde digest call).ChainedBy serde digest
      (rows.drop k ++ added) ∧ (log.serve serde digest call).base = ⟨log.base.seq + k,
        endHash (chainLinks serde digest) log.base.hash (rows.take k)⟩ := by
  have hsame : log.ChainedBy serde digest (rows.drop 0 ++ []) := by
    rwa [drop_zero, append_nil]
  cases call with
  | commit events =>
    simp only [EventLog.serve]
    cases hwrite : log.writeEvents serde digest events with
    | error e => exact ⟨0, Nat.zero_le _, [], hsame, rfl⟩
    | ok =>
      obtain ⟨hcheckpoint, added, hchained⟩ := h.writeEvents hwrite
      refine ⟨0, Nat.zero_le _, added, hchained, ?_⟩
      unfold base
      rw [hcheckpoint]
      rfl
  | acknowledge through =>
    refine ⟨0, Nat.zero_le _, [], ?_, rfl⟩
    rw [drop_zero, append_nil]
    exact h.acknowledge through
  | prune before limit =>
    obtain ⟨k, hk, hchained, hseq, _⟩ := h.pruneEvents before limit
    refine ⟨k, hk, [], ?_, hseq⟩
    rwa [append_nil]

/-- A log that goes on from another: its head is no earlier, and what it holds up to the other's
    head the other held. -/
structure Continues (log log' : EventLog) : Prop where
  head_le : log.chainHead.seq ≤ log'.chainHead.seq
  old : ∀ row ∈ log'.chained, row.seq ≤ log.chainHead.seq → row ∈ log.chained

theorem Continues.refl (log : EventLog) : log.Continues log :=
  ⟨le_refl _, fun _ hrow _ => hrow⟩

theorem Continues.trans {log₁ log₂ log₃ : EventLog} (h : log₁.Continues log₂)
    (h' : log₂.Continues log₃) : log₁.Continues log₃ :=
  ⟨h.head_le.trans h'.head_le, fun row hrow hle =>
    h.old row (h'.old row hrow (hle.trans h.head_le)) hle⟩

theorem ChainedBy.serve_continues (h : log.ChainedBy serde digest rows) (call : LogCall) :
    log.Continues (log.serve serde digest call) := by
  obtain ⟨k, hk, added, hchained, hbase⟩ := h.serve call
  have hseq : (log.serve serde digest call).base.seq = log.base.seq + k := by rw [hbase]
  constructor
  · rw [h.chainHead_eq, hchained.chainHead_eq, hseq, length_append, length_drop]
    show log.base.seq + rows.length ≤ log.base.seq + k + (rows.length - k + added.length)
    omega
  · intro row hrow hle
    rw [hchained.chained_eq] at hrow
    rw [h.chained_eq]
    rcases mem_append.1 hrow with hold | hnew
    · exact mem_of_mem_drop hold
    · -- a row that was added is past the head
      have hpast := ((linked_append.1 hchained.linked).2.seq_mem hnew).1
      rw [hseq, length_drop] at hpast
      rw [h.chainHead_eq] at hle
      have hpast' : log.base.seq + k + (rows.length - k) < row.seq := hpast
      have hle' : row.seq ≤ log.base.seq + rows.length := hle
      omega

theorem chainedBy_after (serde : Serde) (digest : String → ChainHash) (calls : List LogCall) :
    ∃ rows, (after serde digest calls).ChainedBy serde digest rows := by
  induction calls using reverseRecOn with
  | nil => exact ⟨[], chainedBy_empty serde digest⟩
  | append_singleton calls call ih =>
    obtain ⟨rows, hrows⟩ := ih
    obtain ⟨k, _, added, hchained, _⟩ := hrows.serve call
    rw [after_append]
    exact ⟨_, hchained⟩

theorem continues_after (serde : Serde) (digest : String → ChainHash) (calls more : List LogCall) :
    (after serde digest calls).Continues (after serde digest (calls ++ more)) := by
  induction more using reverseRecOn with
  | nil =>
    rw [append_nil]
    exact .refl _
  | append_singleton more call ih =>
    obtain ⟨rows, hrows⟩ := chainedBy_after serde digest (calls ++ more)
    refine ih.trans ?_
    rw [← append_assoc, after_append serde digest (calls ++ more)]
    exact hrows.serve_continues call

theorem verifyStart_eq (log : EventLog) :
    log.verifyStart = ⟨log.base.seq, log.base.hash, 0, 0⟩ := by
  unfold verifyStart base
  cases log.checkpoint <;> rfl

/-- A walk of a chain finds it intact, and answers its head. -/
theorem ChainedBy.verifies (h : log.ChainedBy serde digest rows) :
    log.Verifies serde digest log.verifyStart (.intact rows.length 0
      (if rows.length = 0 then none
        else some (endHash (chainLinks serde digest) log.base.hash rows))) := by
  have hall : (log.events.filter fun row => row.chain.isNone) = [] := by
    rw [h.stored, filter_eq_nil_iff]
    intro row hrow
    obtain ⟨chained, _, rfl⟩ := mem_map.1 hrow
    simp [toEventRow]
  have hstart := log.verifyStart_eq
  have hpast : log.chainedPast log.base.seq = rows := by
    unfold chainedPast
    rw [h.chained_eq, filter_eq_self]
    intro row hrow
    exact decide_eq_true (h.linked.seq_mem hrow).1
  have hlinked : Linked (chainLinks serde digest) log.verifyStart.afterSeq
      log.verifyStart.expectPrev (log.chainedPast log.verifyStart.afterSeq) := by
    rw [hstart]
    rw [hpast]
    exact h.linked
  have hverifies := log.verifies_of_linked hall hlinked (by rw [hstart]; exact Nat.zero_le _)
    (by rw [hstart])
  rw [hstart] at hverifies ⊢
  simpa [hpast] using hverifies

/-- Whatever batches are committed, whatever is acknowledged and whatever retention is asked to
    delete: every row is chained and the rows follow the checkpoint, or the beginning; a walk from
    there finds them all intact; what stands at a position of the chain is never anything else, at
    any later time; and a retention chunk takes rows from the front only, all of them acknowledged,
    old and before the head. -/
theorem log_stays_chained (serde : Serde) (digest : String → ChainHash) (calls : List LogCall) :
    (∀ row ∈ (after serde digest calls).events, row.chain.isSome) ∧
    Linked (chainLinks serde digest) (after serde digest calls).base.seq
      (after serde digest calls).base.hash (after serde digest calls).chained ∧
    (∃ head, (after serde digest calls).Verifies serde digest (after serde digest calls).verifyStart
      (.intact (after serde digest calls).chained.length 0 head)) ∧
    (∀ more, ∀ row ∈ (after serde digest calls).chained,
      ∀ row' ∈ (after serde digest (calls ++ more)).chained, row.seq = row'.seq → row' = row) ∧
    ∀ before limit,
      ((after serde digest calls).pruneEvents before limit).2.chained =
        (after serde digest calls).chained.drop
          ((after serde digest calls).pruneEvents before limit).1.deleted ∧
      ∀ row ∈ (after serde digest calls).chained.take
          ((after serde digest calls).pruneEvents before limit).1.deleted,
        (after serde digest calls).Prunable before row := by
  obtain ⟨rows, hrows⟩ := chainedBy_after serde digest calls
  rw [hrows.chained_eq]
  refine ⟨?_, hrows.linked, ⟨_, hrows.verifies⟩, ?_, ?_⟩
  · intro row hrow
    rw [hrows.stored] at hrow
    obtain ⟨chained, _, rfl⟩ := mem_map.1 hrow
    rfl
  · intro more row hrow row' hrow' hseq
    have hcontinues := continues_after serde digest calls more
    have hle : row'.seq ≤ (after serde digest calls).chainHead.seq :=
      hseq ▸ hrows.seq_le_chainHead hrow
    have hold := hcontinues.old row' hrow' hle
    rw [hrows.chained_eq] at hold
    exact hrows.linked.eq_of_seq hold hrow hseq.symm
  · intro before limit
    obtain ⟨k, _, hchained, _, hdeleted, hprunable⟩ := hrows.pruneEvents before limit
    rw [hchained.chained_eq, hdeleted]
    exact ⟨rfl, hprunable⟩

end EventLog

end PosFramework
