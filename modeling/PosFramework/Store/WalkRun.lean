import PosFramework.Lib.Transition
import PosFramework.Store.Chained

set_option autoImplicit false

/-! # A walk among other requests

The writer serves whatever comes: between the request that reads the checkpoint and those that check
one chunk each, it commits, takes acknowledgements and deletes what is old. The walk carries a
cursor from one request to the next, and retention does not know of it. -/

namespace PosFramework

open HashChain List EventLog

/-- How far a caller of `verify_chain` has got. -/
inductive WalkPhase
  | idle
  | walking (cursor : ChainCursor)
  | answered (status : ChainStatus)
  | failed (error : StoreError)
deriving DecidableEq

/-- A store and a walk of its chain. -/
structure WalkedLog where
  log : EventLog
  walk : WalkPhase

/-- A request: one of another caller, or one of the walk's, which first reads where to begin and
    then checks a chunk at a time. -/
inductive WalkAction
  | call (request : LogCall)
  | begin
  | chunk (limit : Nat)

namespace WalkedLog

variable (serde : Serde) (digest : String → ChainHash)

/-- A store that has stored nothing. -/
def initial : WalkedLog := ⟨.empty, .idle⟩

/-- The writer serves one request. -/
def step (state : WalkedLog) : WalkAction → WalkedLog
  | .call request => { state with log := state.log.serve serde digest request }
  | .begin => { state with walk := .walking state.log.verifyStart }
  | .chunk limit =>
    match state.walk with
    | .walking cursor =>
      match state.log.verifyChainChunk serde digest cursor limit with
      | .ok (.more next) => { state with walk := .walking next }
      | .ok (.finished status) => { state with walk := .answered status }
      | .error error => { state with walk := .failed error }
    | _ => state

/-- Retention deletes no row that a walk under way has yet to check. -/
def Spares (state : WalkedLog) : WalkAction → Prop
  | .call (.prune before limit) =>
    match state.walk with
    | .walking cursor => ∀ row ∈ state.log.chainedPast cursor.afterSeq,
        row ∈ (state.log.pruneEvents before limit).2.chained
    | _ => True
  | _ => True

instance Spares.decidable : (state : WalkedLog) → (action : WalkAction) →
    Decidable (state.Spares action)
  | ⟨_, .walking _⟩, .call (.prune _ _) =>
    inferInstanceAs (Decidable (∀ row ∈ chainedPast _ _, row ∈ chained _))
  | ⟨_, .idle⟩, .call (.prune _ _) | ⟨_, .answered _⟩, .call (.prune _ _)
  | ⟨_, .failed _⟩, .call (.prune _ _) | _, .call (.commit _) | _, .call (.acknowledge _)
  | _, .begin | _, .chunk _ => .isTrue trivial

end WalkedLog

/-- Runs of a store and a walk. -/

abbrev WalkedLog.Run (serde : Serde) (digest : String → ChainHash)
    (allowed : WalkedLog → WalkAction → Prop) : WalkedLog → List WalkAction → WalkedLog → Prop :=
  Transition.Run (ε := StoreError)
    (fun action state => .ok (state.step serde digest action)) allowed

/-! ## The walk keeps to the chain -/

namespace EventLog

variable {serde : Serde} {digest : String → ChainHash} {log : EventLog} {rows : List ChainRow}
  {cursor : ChainCursor}

theorem ChainedBy.chainedPast_eq (h : log.ChainedBy serde digest rows) {k : Nat}
    (hk : k ≤ rows.length) : log.chainedPast (log.base.seq + k) = rows.drop k := by
  unfold chainedPast
  rw [h.chained_eq]
  exact h.linked.filter_gt hk

/-- A cursor at one of a chain's rows. -/
structure Reaches (serde : Serde) (digest : String → ChainHash) (log : EventLog)
    (rows : List ChainRow) (cursor : ChainCursor) (k : Nat) : Prop where
  within : k ≤ rows.length
  seq : cursor.afterSeq = log.base.seq + k
  hash : cursor.expectPrev = endHash (chainLinks serde digest) log.base.hash (rows.take k)
  counted : cursor.checked ≤ cursor.afterSeq

theorem reaches_start (serde : Serde) (digest : String → ChainHash) (log : EventLog)
    (rows : List ChainRow) : log.Reaches serde digest rows log.verifyStart 0 := by
  have hstart := log.verifyStart_eq
  refine ⟨Nat.zero_le _, ?_, ?_, ?_⟩
  · rw [hstart]
    rfl
  · rw [hstart]
    rfl
  · rw [hstart]
    exact Nat.zero_le _

/-- A request that leaves the rows past a cursor where they are leaves the cursor at a row. -/
theorem Reaches.serve {j k : Nat} {log' : EventLog} {added : List ChainRow}
    (h : log.Reaches serde digest rows cursor k) (hj : j ≤ k)
    (hbase : log'.base = ⟨log.base.seq + j,
      endHash (chainLinks serde digest) log.base.hash (rows.take j)⟩) :
    log'.Reaches serde digest (rows.drop j ++ added) cursor (k - j) := by
  have hwithin := h.within
  have htake : (rows.drop j ++ added).take (k - j) = (rows.drop j).take (k - j) := by
    refine take_append_of_le_length ?_
    rw [length_drop]
    omega
  refine ⟨?_, ?_, ?_, h.counted⟩
  · rw [length_append, length_drop]
    omega
  · rw [h.seq, hbase]
    show log.base.seq + k = log.base.seq + j + (k - j)
    omega
  · rw [h.hash, hbase, htake]
    show _ = endHash _ (endHash _ log.base.hash (rows.take j)) ((rows.drop j).take (k - j))
    rw [← endHash_append, ← take_add, Nat.add_sub_cancel' hj]

/-- A chunk from a row of the chain finds no break, and goes on at a row of it. -/
theorem ChainedBy.chunk (h : log.ChainedBy serde digest rows) {k : Nat}
    (hcursor : log.Reaches serde digest rows cursor k) (limit : Nat) :
    (∃ checked unchained head, log.verifyChainChunk serde digest cursor limit =
      .ok (.finished (.intact checked unchained head))) ∨
    ∃ next, log.verifyChainChunk serde digest cursor limit = .ok (.more next) ∧
      log.Reaches serde digest rows next (k + limit) := by
  have hpast : log.chainedPast cursor.afterSeq = rows.drop k := by
    rw [hcursor.seq]
    exact h.chainedPast_eq hcursor.within
  have hlinked : Linked (chainLinks serde digest) cursor.afterSeq cursor.expectPrev
      (log.chainedPast cursor.afterSeq) := by
    rw [hpast, hcursor.seq, hcursor.hash]
    exact h.linked.drop k hcursor.within
  rcases log.verifyChainChunk_of_linked hlinked hcursor.counted limit with
    ⟨_, hchunk⟩ | ⟨hlong, hchunk⟩
  · exact .inl ⟨_, _, _, hchunk⟩
  · rw [hpast, length_drop] at hlong
    refine .inr ⟨_, hchunk, ⟨by omega, ?_, ?_, Nat.add_le_add_right hcursor.counted limit⟩⟩
    · show cursor.afterSeq + limit = log.base.seq + (k + limit)
      rw [hcursor.seq]
      omega
    · show endHash _ cursor.expectPrev ((log.chainedPast cursor.afterSeq).take limit) = _
      rw [hpast, hcursor.hash, ← endHash_append, ← take_add]

end EventLog

namespace WalkedLog

variable {serde : Serde} {digest : String → ChainHash}

/-- A walk that has found nothing and is at a row of the chain. -/
def Quiet (serde : Serde) (digest : String → ChainHash) (log : EventLog) (rows : List ChainRow) :
    WalkPhase → Prop
  | .walking cursor => ∃ k, log.Reaches serde digest rows cursor k
  | .answered status => status.isBroken = false
  | .idle | .failed _ => True

/-- A store whose log is a chain, and whose walk has found nothing. -/
def Unalarmed (serde : Serde) (digest : String → ChainHash) (state : WalkedLog) : Prop :=
  ∃ rows, state.log.ChainedBy serde digest rows ∧ Quiet serde digest state.log rows state.walk

theorem unalarmed_initial (serde : Serde) (digest : String → ChainHash) :
    Unalarmed serde digest initial :=
  ⟨[], chainedBy_empty serde digest, trivial⟩

/-- A chain that begins further on holds every row past a place of the other only if it does not
    begin past that place. -/
theorem le_of_drop_subset {rows rows' : List ChainRow} {n j k : Nat} {h h' : ChainHash}
    (hrows : Linked (chainLinks serde digest) n h rows)
    (hrows' : Linked (chainLinks serde digest) (n + j) h' rows') (hj : j ≤ rows.length)
    (hsubset : ∀ row ∈ rows.drop k, row ∈ rows') : j ≤ k := by
  by_contra hlt
  have hk : k < rows.length := Nat.lt_of_lt_of_le (Nat.not_le.1 hlt) hj
  have hmem : rows.get ⟨k, hk⟩ ∈ rows.drop k := by
    rw [get_eq_getElem, drop_eq_getElem_cons hk]
    exact mem_cons_self
  have htaken : (rows.get ⟨k, hk⟩).seq = n + k + 1 := by
    have hdrop := hrows.drop k (le_of_lt hk)
    rw [drop_eq_getElem_cons hk] at hdrop
    cases hdrop with
    | cons hseq _ _ _ => exact hseq
  have hpast : n + j < (rows.get ⟨k, hk⟩).seq := (hrows'.seq_mem (hsubset _ hmem)).1
  omega

variable {state : WalkedLog}

/-- A request of another caller. -/
theorem Unalarmed.call (h : Unalarmed serde digest state) {request : LogCall}
    (hspares : state.Spares (.call request)) :
    Unalarmed serde digest (state.step serde digest (.call request)) := by
  obtain ⟨rows, hchained, hquiet⟩ := h
  obtain ⟨j, hj, added, hchained', hbase⟩ := hchained.serve request
  refine ⟨_, hchained', ?_⟩
  show Quiet serde digest (state.log.serve serde digest request) (rows.drop j ++ added) state.walk
  cases hwalk : state.walk with
  | idle => trivial
  | failed => trivial
  | answered =>
    rw [hwalk] at hquiet
    exact hquiet
  | walking cursor =>
    rw [hwalk] at hquiet
    obtain ⟨k, hcursor⟩ := hquiet
    have hbegins : (state.log.serve serde digest request).base.seq = state.log.base.seq + j := by
      rw [hbase]
    -- only retention moves the beginning of the chain, and it spares what is past the cursor
    have hle : j ≤ k := by
      cases request with
      | commit events =>
        have hsame := hchained.base_commit events
        rw [hsame] at hbegins
        omega
      | acknowledge =>
        have hsame : state.log.base.seq = state.log.base.seq + j := hbegins
        omega
      | prune =>
        have hlinked := hchained'.linked
        rw [hbegins] at hlinked
        refine le_of_drop_subset hchained.linked hlinked hj ?_
        intro row hrow
        rw [Spares, hwalk] at hspares
        rw [← hchained'.chained_eq]
        refine hspares row ?_
        rw [hcursor.seq, hchained.chainedPast_eq hcursor.within]
        exact hrow
    exact ⟨k - j, hcursor.serve hle hbase⟩

/-- A request of the walk's own. -/
theorem Unalarmed.chunk (h : Unalarmed serde digest state) (limit : Nat) :
    Unalarmed serde digest (state.step serde digest (.chunk limit)) := by
  obtain ⟨rows, hchained, hquiet⟩ := h
  unfold step
  cases hwalk : state.walk with
  | idle => exact ⟨rows, hchained, hquiet⟩
  | answered => exact ⟨rows, hchained, hquiet⟩
  | failed => exact ⟨rows, hchained, hquiet⟩
  | walking =>
    rw [hwalk] at hquiet
    obtain ⟨k, hcursor⟩ := hquiet
    rcases hchained.chunk hcursor limit with
      ⟨checked, unchained, head, hchunk⟩ | ⟨next, hchunk, hnext⟩
    · simp only [hchunk]
      exact ⟨rows, hchained, rfl⟩
    · simp only [hchunk]
      exact ⟨rows, hchained, k + limit, hnext⟩

theorem Unalarmed.step (h : Unalarmed serde digest state) {action : WalkAction}
    (hspares : state.Spares action) : Unalarmed serde digest (state.step serde digest action) := by
  cases action with
  | call => exact h.call hspares
  | begin =>
    obtain ⟨rows, hchained, _⟩ := h
    exact ⟨rows, hchained, 0, reaches_start serde digest state.log rows⟩
  | chunk limit => exact h.chunk limit

/-- In every run from the empty store in which retention deletes no row that a walk under way has
    yet to check, no walk reports a break, whatever is committed, acknowledged and deleted between
    its requests and however many rows each of them checks. -/
theorem no_false_alarm (serde : Serde) (digest : String → ChainHash) (actions : List WalkAction)
    (state : WalkedLog) (hrun : WalkedLog.Run serde digest Spares initial actions state) :
    ∀ seq reason, state.walk ≠ .answered (.broken seq reason) := by
  have hunalarmed : Unalarmed serde digest state := by
    refine hrun.invariant (I := Unalarmed serde digest) ?_ (unalarmed_initial serde digest)
    intro before action after hbefore hspares hstep
    cases hstep
    exact hbefore.step hspares
  intro seq reason hbroken
  obtain ⟨rows, _, hquiet⟩ := hunalarmed
  rw [hbroken] at hquiet
  exact Bool.noConfusion hquiet

/-- Three records are stored and some acknowledged, and retention comes between requests of a walk,
    each of which checks at most `limit` rows. -/
def prunedUnderWalk (through limit : Nat) (checked : List WalkAction) : List WalkAction :=
  [.call (.commit [sampleEvent 1 sampleJson, sampleEvent 2 sampleJson, sampleEvent 3 sampleJson]),
    .call (.acknowledge through), .begin] ++ checked ++ [.call (.prune ⟨1⟩ 2000), .chunk limit]

/-- The walk has read that there is no checkpoint; retention takes the first two records; the walk
    then begins on the third, and reports that it does not link to the beginning. -/
theorem false_alarm_after_prune :
    ∃ state, WalkedLog.Run .sample textDigest (fun _ _ => True) initial
        (prunedUnderWalk 3 chainChunkSize []) state ∧
      state.walk = .answered (.broken 3 .linkMismatch) := by
  refine ⟨(prunedUnderWalk 3 chainChunkSize []).foldl (step .sample textDigest) initial,
    Transition.run_of_allAllowed ?_, by decide +kernel⟩
  exact ⟨trivial, trivial, trivial, trivial, trivial, trivial⟩

/-- Retention takes the first record, which the walk has checked. -/
theorem no_false_alarm_checkedRecord :
    ∃ state, WalkedLog.Run .sample textDigest Spares initial
      (prunedUnderWalk 1 2 [.chunk 1]) state ∧
      state.log.base.seq = 1 ∧ ∀ seq reason, state.walk ≠ .answered (.broken seq reason) := by
  have hrun : WalkedLog.Run .sample textDigest Spares initial (prunedUnderWalk 1 2 [.chunk 1])
      ((prunedUnderWalk 1 2 [.chunk 1]).foldl (step .sample textDigest) initial) := by
    refine Transition.run_of_allAllowed ?_
    decide +kernel

  exact ⟨_, hrun, by decide +kernel, no_false_alarm .sample textDigest _ _ hrun⟩

end WalkedLog

end PosFramework
