import PosFramework.Lib.HashChain
import PosFramework.Proto.Samples
import PosFramework.Store.Log

set_option autoImplicit false

/-! # The chain walk

A store verifies its own log a chunk at a time: each request of the writer checks up to a limit of
chained rows and answers how the next one is to go on, or what the whole walk found. -/

namespace PosFramework

open Fallible HashChain List

/-- Why a chain does not verify. -/
inductive ChainBreak
  | missingRecord
  | linkMismatch
  | contentEdited
deriving DecidableEq

/-- What a walk of a chain found. -/
inductive ChainStatus
  | intact (checked unchained : Nat) (head : Option ChainHash)
  | broken (atSeq : Nat) (reason : ChainBreak)
deriving DecidableEq

def ChainStatus.isBroken : ChainStatus → Bool
  | .intact _ _ _ => false
  | .broken _ _ => true

/-- Where a walk got to. -/
structure ChainCursor where
  /-- The walk goes on at the first chained row past this. -/
  afterSeq : Nat
  /-- What that row must link to. -/
  expectPrev : ChainHash
  checked : Nat
  unchained : Nat
deriving DecidableEq

namespace ChainCursor

/-- Before the first record. -/
def start : ChainCursor := ⟨0, .genesis, 0, 0⟩

/-- After the last record that retention deleted. -/
def resume (checkpoint : ChainHead) : ChainCursor := ⟨checkpoint.seq, checkpoint.hash, 0, 0⟩

end ChainCursor

/-- What a chunk answers. -/
inductive ChainChunk
  | more (cursor : ChainCursor)
  | finished (status : ChainStatus)

/-- How many rows one request checks. -/
def chainChunkSize : Nat := 1000

/-- Where a chunk has got to. -/
structure ChainWalk where
  expectedSeq : Option Nat
  previous : ChainHash
  checked : Nat
  walked : Nat
  lastSeq : Nat

/-- The position a walk's first row must follow. A walk from the beginning is anchored on whichever
    row comes first. -/
def walkAnchor (cursor : ChainCursor) : Option Nat :=
  if cursor.afterSeq = 0 then none else some cursor.afterSeq

section

variable (serde : Serde) (digest : String → ChainHash)

/-- The break a row shows: a gap before it, a link to another record than the one before it, content
    that does not hash to the hash beside it. -/
def chainBreak (row : ChainRow) (expected : Nat) (previous : ChainHash) :
    Except StoreError (Option ChainStatus) :=
  if row.seq ≠ expected then .ok (some (.broken expected .missingRecord))
  else if row.columns.prevHash ≠ previous then .ok (some (.broken row.seq .linkMismatch))
  else do
    let stored ← okOr .json row.envelope
    let recomputed ← okOr .json (stored.chainHash serde digest row.link)
    pure (if recomputed = row.columns.hash then none else some (.broken row.seq .contentEdited))

/-- Check rows up to the limit. A row past it says that the log goes on, and is not checked. -/
def walkRows (limit unchained : Nat) : List ChainRow → ChainWalk → Except StoreError ChainChunk
  | [], walk =>
    .ok (.finished (.intact walk.checked unchained
      (if walk.checked = 0 then none else some walk.previous)))
  | row :: rows, walk =>
    if walk.walked = limit then
      .ok (.more ⟨walk.lastSeq, walk.previous, walk.checked, unchained⟩)
    else do
      let expected := (walk.expectedSeq.map (u64SaturatingAdd · 1)).getD row.seq
      match ← chainBreak serde digest row expected walk.previous with
      | some broken => .ok (.finished broken)
      | none =>
        walkRows limit unchained rows
          { expectedSeq := some expected
            previous := row.columns.hash
            checked := u64SaturatingAdd walk.checked 1
            walked := walk.walked + 1
            lastSeq := row.seq }

end

namespace EventLog

variable (serde : Serde) (digest : String → ChainHash) (log : EventLog)

/-- How many rows are from before the chain, counted by the first chunk. -/
def unchainedCount (cursor : ChainCursor) : Nat :=
  if cursor.checked = 0 then (log.events.filter fun row => row.chain.isNone).length
  else cursor.unchained

/-- The chained rows past a position. -/
def chainedPast (after : Nat) : List ChainRow :=
  log.chained.filter fun row => decide (after < row.seq)

/-- One request of a walk. -/
def verifyChainChunk (cursor : ChainCursor) (limit : Nat) : Except StoreError ChainChunk :=
  walkRows serde digest limit (log.unchainedCount cursor)
    ((log.chainedPast (toI64 cursor.afterSeq)).take (limit + 1))
    { expectedSeq := walkAnchor cursor
      previous := cursor.expectPrev
      checked := cursor.checked
      walked := 0
      lastSeq := cursor.afterSeq }

/-- Where a walk begins: after the checkpoint, where there is one. -/
def verifyStart : ChainCursor := (log.checkpoint.map ChainCursor.resume).getD .start

/-- What a walk answers of a log, from where it has got to. -/
inductive Verifies : ChainCursor → ChainStatus → Prop
  | finished {cursor : ChainCursor} {status : ChainStatus}
      (hchunk : log.verifyChainChunk serde digest cursor chainChunkSize = .ok (.finished status)) :
      Verifies cursor status
  | more {cursor next : ChainCursor} {status : ChainStatus}
      (hchunk : log.verifyChainChunk serde digest cursor chainChunkSize = .ok (.more next))
      (hrest : Verifies next status) : Verifies cursor status

end EventLog

/-! ## What is checked of a row -/

/-- How the chained rows of a log are linked: a row's hash is that of its envelope at its link. -/
def chainLinks (serde : Serde) (digest : String → ChainHash) : Links ChainRow ChainHash where
  seq := ChainRow.seq
  prev row := row.columns.prevHash
  hash row := row.columns.hash
  Sound row := ∃ envelope, row.envelope = some envelope ∧
    envelope.chainHash serde digest row.link = some row.columns.hash

section

variable {serde : Serde} {digest : String → ChainHash} {cursor : ChainCursor} {n : Nat}
  {h : ChainHash}

theorem chainBreak_eq_ok_none {row : ChainRow} {expected : Nat} {previous : ChainHash} :
    chainBreak serde digest row expected previous = .ok none ↔
      row.seq = expected ∧ row.columns.prevHash = previous ∧
      (chainLinks serde digest).Sound row := by
  unfold chainBreak
  by_cases hseq : row.seq = expected
  · by_cases hprev : row.columns.prevHash = previous
    · simp only [hseq, hprev, ne_eq, not_true_eq_false, if_false, true_and, bind_eq_ok, okOr_eq_ok,
        pure_eq_ok]
      constructor
      · rintro ⟨stored, hstored, recomputed, hrecomputed, hequal⟩
        by_cases hhash : recomputed = row.columns.hash
        · exact ⟨stored, hstored, hhash ▸ hrecomputed⟩
        · rw [if_neg hhash] at hequal
          contradiction
      · rintro ⟨stored, hstored, hhash⟩
        exact ⟨stored, hstored, _, hhash, if_pos rfl⟩
    · simp [hseq, hprev]
  · simp [hseq]

theorem u64SaturatingAdd_one (h : n < u64Max) : u64SaturatingAdd n 1 = n + 1 :=
  min_eq_left h

theorem i64Max_lt_u64Max : i64Max < u64Max := by decide

theorem ChainRow.seq_le (row : ChainRow) : row.seq ≤ i64Max := row.columns.seq_le

/-! ## A walk over a chain -/

/-- A walk that has got to a place of a chain. -/
structure ChainWalk.At (walk : ChainWalk) (n : Nat) (h : ChainHash) : Prop where
  expected : ∀ m ∈ walk.expectedSeq, m = n
  previous : walk.previous = h
  last : walk.lastSeq = n
  counted : walk.checked ≤ n

/-- A walk finds a chain intact, as far as it goes. -/
theorem walkRows_of_linked (limit unchained : Nat)
    {rows : List ChainRow} (hrows : Linked (chainLinks serde digest) n h rows) {walk : ChainWalk}
    (hat : walk.At n h) (hwalked : walk.walked ≤ limit) :
    (rows.length ≤ limit - walk.walked ∧
      walkRows serde digest limit unchained rows walk =
        .ok (.finished (.intact (walk.checked + rows.length) unchained
          (if walk.checked + rows.length = 0 then none
            else some (endHash (chainLinks serde digest) h rows))))) ∨
    (limit - walk.walked < rows.length ∧
      walkRows serde digest limit unchained rows walk =
        .ok (.more ⟨n + (limit - walk.walked),
          endHash (chainLinks serde digest) h (rows.take (limit - walk.walked)),
          walk.checked + (limit - walk.walked), unchained⟩)) := by
  induction hrows generalizing walk with
  | nil n h =>
    refine .inl ⟨Nat.zero_le _, ?_⟩
    rw [walkRows, hat.previous]
    rfl
  | @cons n h row rows hseq hprev hsound hrows ih =>
    by_cases hlimit : walk.walked = limit
    · refine .inr ?_
      rw [walkRows, if_pos hlimit, hlimit, Nat.sub_self, hat.last, hat.previous]
      exact ⟨Nat.succ_pos _, rfl⟩
    have hlt : walk.walked < limit := lt_of_le_of_ne hwalked hlimit
    have hle : n + 1 ≤ i64Max := hseq ▸ row.seq_le
    have hfits : n < u64Max := lt_of_lt_of_le hle (le_of_lt i64Max_lt_u64Max)
    have hexpected : (walk.expectedSeq.map (u64SaturatingAdd · 1)).getD row.seq = n + 1 := by
      cases hanchor : walk.expectedSeq with
      | none => exact hseq
      | some m =>
        obtain rfl := hat.expected m hanchor
        exact u64SaturatingAdd_one hfits
    have hcheck : u64SaturatingAdd walk.checked 1 = walk.checked + 1 :=
      u64SaturatingAdd_one (lt_of_le_of_lt hat.counted hfits)
    have hsound' : chainBreak serde digest row (n + 1) walk.previous = .ok none :=
      chainBreak_eq_ok_none.2 ⟨hseq, hprev.trans hat.previous.symm, hsound⟩
    have hstep : walkRows serde digest limit unchained (row :: rows) walk =
        walkRows serde digest limit unchained rows
          ⟨some (n + 1), row.columns.hash, walk.checked + 1, walk.walked + 1, row.seq⟩ := by
      rw [walkRows, if_neg hlimit]
      simp only [hexpected, hsound', hcheck]
      rfl
    have hnext : ChainWalk.At
        ⟨some (n + 1), row.columns.hash, walk.checked + 1, walk.walked + 1, row.seq⟩ (n + 1)
        row.columns.hash := by
      refine ⟨?_, rfl, hseq, Nat.succ_le_succ hat.counted⟩
      intro m hm
      exact (Option.some.inj hm).symm
    have hremaining : limit - walk.walked = (limit - (walk.walked + 1)) + 1 := by omega
    rw [hstep, hremaining, length_cons, take_succ_cons, endHash_cons, endHash_cons]
    rcases ih hnext hlt with ⟨hall, heq⟩ | ⟨hsome, heq⟩
    · refine .inl ⟨Nat.succ_le_succ hall, ?_⟩
      have hcount : walk.checked + 1 + rows.length = walk.checked + (rows.length + 1) := by omega
      rw [heq, hcount]
    · refine .inr ⟨Nat.succ_lt_succ hsome, ?_⟩
      have hcount : walk.checked + 1 + (limit - (walk.walked + 1)) =
          walk.checked + ((limit - (walk.walked + 1)) + 1) := by omega
      have hseqs : n + 1 + (limit - (walk.walked + 1)) =
          n + ((limit - (walk.walked + 1)) + 1) := by omega
      rw [heq, hcount, hseqs]

variable (log : EventLog)

theorem EventLog.chainedPast_toI64 (n : Nat) : log.chainedPast (toI64 n) = log.chainedPast n := by
  unfold chainedPast
  refine filter_congr fun row _ => ?_
  exact decide_eq_decide.2 (toI64_lt_iff row.seq_le)

/-- What one request of a walk answers where the rows past its cursor follow it. -/
theorem EventLog.verifyChainChunk_of_linked
    (hrest : Linked (chainLinks serde digest) cursor.afterSeq cursor.expectPrev
      (log.chainedPast cursor.afterSeq))
    (hcounted : cursor.checked ≤ cursor.afterSeq) (limit : Nat) :
    ((log.chainedPast cursor.afterSeq).length ≤ limit ∧
      log.verifyChainChunk serde digest cursor limit =
        .ok (.finished (.intact (cursor.checked + (log.chainedPast cursor.afterSeq).length)
          (log.unchainedCount cursor)
          (if cursor.checked + (log.chainedPast cursor.afterSeq).length = 0 then none
            else some (endHash (chainLinks serde digest) cursor.expectPrev
              (log.chainedPast cursor.afterSeq)))))) ∨
    (limit < (log.chainedPast cursor.afterSeq).length ∧
      log.verifyChainChunk serde digest cursor limit =
        .ok (.more ⟨cursor.afterSeq + limit,
          endHash (chainLinks serde digest) cursor.expectPrev
            ((log.chainedPast cursor.afterSeq).take limit),
          cursor.checked + limit, log.unchainedCount cursor⟩)) := by
  have hwindow : Linked (chainLinks serde digest) cursor.afterSeq cursor.expectPrev
      ((log.chainedPast cursor.afterSeq).take (limit + 1)) := by
    rw [← take_append_drop (limit + 1) (log.chainedPast cursor.afterSeq)] at hrest
    exact (linked_append.1 hrest).1
  have hat : ChainWalk.At ⟨walkAnchor cursor, cursor.expectPrev, cursor.checked, 0, cursor.afterSeq⟩
      cursor.afterSeq cursor.expectPrev := by
    refine ⟨?_, rfl, rfl, hcounted⟩
    intro m hm
    simp only [walkAnchor] at hm
    split at hm
    · contradiction
    · exact (Option.some.inj hm).symm
  rw [verifyChainChunk, log.chainedPast_toI64]
  rcases walkRows_of_linked limit (log.unchainedCount cursor) hwindow hat (Nat.zero_le _) with
    ⟨hall, heq⟩ | ⟨hsome, heq⟩
  · have hlength : (log.chainedPast cursor.afterSeq).length ≤ limit := by
      simp only [length_take] at hall
      omega
    rw [take_of_length_le (Nat.le_succ_of_le hlength)] at heq ⊢
    exact .inl ⟨hlength, heq⟩
  · have hlength : limit < (log.chainedPast cursor.afterSeq).length := by
      simp only [length_take] at hsome
      omega
    rw [heq, Nat.sub_zero, take_take, Nat.min_eq_left (Nat.le_succ limit)]
    exact .inr ⟨hlength, rfl⟩

/-- The rows past a place further on. -/
theorem EventLog.chainedPast_add
    (hrest : Linked (chainLinks serde digest) n h (log.chainedPast n)) {k : Nat}
    (hk : k ≤ (log.chainedPast n).length) :
    log.chainedPast (n + k) = (log.chainedPast n).drop k := by
  rw [← hrest.filter_gt hk]
  unfold chainedPast
  rw [filter_filter]
  refine filter_congr fun row _ => ?_
  show decide (n + k < row.seq) = (decide (n + k < row.seq) && decide (n < row.seq))
  by_cases hpast : n + k < row.seq
  · simp [hpast, lt_of_le_of_lt (Nat.le_add_right n k) hpast]
  · simp [hpast]

/-- A walk of a chain ends, and finds it intact. -/
theorem EventLog.verifies_of_linked (hall : (log.events.filter fun row => row.chain.isNone) = [])
    (hrest : Linked (chainLinks serde digest) cursor.afterSeq cursor.expectPrev
      (log.chainedPast cursor.afterSeq)) (hcounted : cursor.checked ≤ cursor.afterSeq)
    (hunchained : cursor.unchained = 0) :
    log.Verifies serde digest cursor
      (.intact (cursor.checked + (log.chainedPast cursor.afterSeq).length) 0
        (if cursor.checked + (log.chainedPast cursor.afterSeq).length = 0 then none
          else some (endHash (chainLinks serde digest) cursor.expectPrev
            (log.chainedPast cursor.afterSeq)))) := by
  have hcount : log.unchainedCount cursor = 0 := by
    unfold unchainedCount
    rw [hall, hunchained]
    exact ite_self 0
  -- each request that does not end the walk leaves fewer rows to it
  induction hleft : (log.chainedPast cursor.afterSeq).length using Nat.strong_induction_on
    generalizing cursor with
  | _ left ih =>
    rcases log.verifyChainChunk_of_linked hrest hcounted chainChunkSize with
      ⟨_, hchunk⟩ | ⟨hlong, hchunk⟩
    · rw [hcount, hleft] at hchunk
      exact .finished hchunk
    · rw [hcount] at hchunk
      have hdrop := log.chainedPast_add hrest (le_of_lt hlong)
      have hlength : (log.chainedPast (cursor.afterSeq + chainChunkSize)).length =
          left - chainChunkSize := by
        rw [hdrop, length_drop, hleft]
      let next : ChainCursor := ⟨cursor.afterSeq + chainChunkSize,
        endHash (chainLinks serde digest) cursor.expectPrev
          ((log.chainedPast cursor.afterSeq).take chainChunkSize),
        cursor.checked + chainChunkSize, 0⟩
      have hnext : Linked (chainLinks serde digest) next.afterSeq next.expectPrev
          (log.chainedPast next.afterSeq) := by
        show Linked _ _ _ (log.chainedPast (cursor.afterSeq + chainChunkSize))
        rw [hdrop]
        exact hrest.drop chainChunkSize (le_of_lt hlong)
      have hfewer : left - chainChunkSize < left := by
        unfold chainChunkSize at hlong ⊢
        omega
      have hcount' : log.unchainedCount next = 0 := by
        unfold unchainedCount
        rw [hall]
        exact ite_self 0
      have hverifies := ih (left - chainChunkSize) hfewer hnext
        (Nat.add_le_add_right hcounted _) rfl hcount' hlength
      have htotal : next.checked + (left - chainChunkSize) = cursor.checked + left := by
        show cursor.checked + chainChunkSize + (left - chainChunkSize) = _
        omega
      have hend : endHash (chainLinks serde digest) next.expectPrev
            (log.chainedPast next.afterSeq) =
          endHash (chainLinks serde digest) cursor.expectPrev
            (log.chainedPast cursor.afterSeq) := by
        show endHash _ _ (log.chainedPast (cursor.afterSeq + chainChunkSize)) = _
        rw [hdrop, ← endHash_append, take_append_drop]
      rw [htotal, hend] at hverifies
      exact .more hchunk hverifies

end

/-- The row of a sample in a chain of them. -/
def sampleRow (seq : Nat) (json : String) : ChainRow where
  eventId := ⟨seq⟩
  envelope := some (chainedSample seq json)
  columns := ⟨toI64 seq, sampleHead (seq - 1), sampleHead seq, toI64_le seq⟩

end PosFramework
