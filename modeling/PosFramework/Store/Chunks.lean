import PosFramework.Store.Walk

set_option autoImplicit false

/-! # A walk in chunks and in one pass

A walk of the chain may be cut anywhere: the cursor carries what the next row must follow and link
to. The next request reads the rows past the last position checked, so rows that repeat this
position are seen by a walk in one pass and passed over by one that was cut behind the first of
them. -/

namespace PosFramework

open Fallible HashChain List

section

variable (serde : Serde) (digest : String → ChainHash)

/-- Check every row, with no limit: what the first must follow and link to, and how many were
    checked before it. -/
def passRows (unchained : Nat) :
    List ChainRow → Option Nat → ChainHash → Nat → Except StoreError ChainStatus
  | [], _, previous, checked =>
    .ok (.intact checked unchained (if checked = 0 then none else some previous))
  | row :: rows, expected, previous, checked => do
    let expected := (expected.map (u64SaturatingAdd · 1)).getD row.seq
    match ← chainBreak serde digest row expected previous with
    | some broken => .ok broken
    | none =>
      passRows unchained rows (some expected) row.columns.hash (u64SaturatingAdd checked 1)

namespace EventLog

variable (log : EventLog)

/-- Ask for chunks of a size, from a cursor on, until one ends the walk. -/
def driveChunks (limit : Nat) : Nat → ChainCursor → Option (Except StoreError ChainStatus)
  | 0, _ => none
  | fuel + 1, cursor =>
    match log.verifyChainChunk serde digest cursor limit with
    | .error error => some (.error error)
    | .ok (.finished status) => some (.ok status)
    | .ok (.more next) => driveChunks limit fuel next

/-- Chunks of a size end the walk with the answer of any one chunk that takes in all the rows. -/
def DrivesAsOnePass (limit : Nat) : Prop :=
  ∃ fuel answer, log.driveChunks serde digest limit fuel log.verifyStart = some answer ∧
    ∀ whole, (log.chainedPast log.verifyStart.afterSeq).length ≤ whole →
      log.verifyChainChunk serde digest log.verifyStart whole = ChainChunk.finished <$> answer

/-- What one pass from a cursor answers. -/
def passFrom (cursor : ChainCursor) : Except StoreError ChainStatus :=
  passRows serde digest (log.unchainedCount cursor) (log.chainedPast cursor.afterSeq)
    (walkAnchor cursor) cursor.expectPrev cursor.checked

end EventLog

end

/-! ## A chunk against the one pass -/

section

variable {serde : Serde} {digest : String → ChainHash} {limit unchained previous checked : Nat}
  {walk : ChainWalk} {rows : List ChainRow} {hash : ChainHash} {row : ChainRow}

/-- A chunk that takes in every row is the one pass. -/
theorem walkRows_of_fits (h : walk.walked + rows.length ≤ limit) :
    walkRows serde digest limit unchained rows walk = ChainChunk.finished <$>
      passRows serde digest unchained rows walk.expectedSeq walk.previous walk.checked := by
  induction rows generalizing walk with
  | nil => rfl
  | cons row rows ih =>
    simp only [length_cons] at h
    rw [walkRows, if_neg (by omega), passRows]
    dsimp only
    cases chainBreak serde digest row _ walk.previous with
    | error => rfl
    | ok broken =>
      cases broken with
      | some => rfl
      | none => exact ih (by dsimp only; omega)

theorem lt_of_follows
    (h : row.seq = u64SaturatingAdd previous 1) : previous < row.seq := by
  have hle := row.seq_le
  have hlt := i64Max_lt_u64Max
  unfold u64SaturatingAdd at h
  omega

/-- A chunk ends the walk as the one pass does, or stops behind the last row it had room for. -/
theorem walkRows_window (serde : Serde) (digest : String → ChainHash) (unchained : Nat)
    (rows : List ChainRow) (walk : ChainWalk) (hwalked : walk.walked < limit) :
    walkRows serde digest limit unchained (rows.take (limit - walk.walked + 1)) walk =
        ChainChunk.finished <$>
          passRows serde digest unchained rows walk.expectedSeq walk.previous walk.checked ∨
      ∃ done last rest checked, rows = done ++ last :: rest ∧ rest ≠ [] ∧ 0 < checked ∧
        (∀ row ∈ done, row.seq < last.seq) ∧ (∀ previous ∈ walk.expectedSeq, previous < last.seq) ∧
        (chainLinks serde digest).Sound last ∧
        walkRows serde digest limit unchained (rows.take (limit - walk.walked + 1)) walk =
          .ok (.more ⟨last.seq, last.columns.hash, checked, unchained⟩) ∧
        passRows serde digest unchained rows walk.expectedSeq walk.previous walk.checked =
          passRows serde digest unchained rest (some last.seq) last.columns.hash checked := by
  induction rows generalizing walk with
  | nil => exact .inl rfl
  | cons row rows ih =>
    rw [take_succ_cons, walkRows, if_neg (by omega), passRows]
    generalize hexpected : (walk.expectedSeq.map (u64SaturatingAdd · 1)).getD row.seq = expected
    dsimp only
    cases hbreak : chainBreak serde digest row expected walk.previous with
    | error => exact .inl rfl
    | ok broken =>
      cases broken with
      | some => exact .inl rfl
      | none =>
        obtain ⟨rfl, -, hsound⟩ := chainBreak_eq_ok_none.1 hbreak
        have habove : ∀ previous ∈ walk.expectedSeq, previous < row.seq := by
          intro previous hprevious
          rw [Option.mem_def.1 hprevious] at hexpected
          exact lt_of_follows hexpected.symm
        have hchecked : 0 < u64SaturatingAdd walk.checked 1 := by
          unfold u64SaturatingAdd u64Max
          omega
        simp only [ok_bind]
        by_cases hlast : walk.walked + 1 = limit
        · cases rows with
          | nil => exact .inl (by simp [walkRows, passRows])
          | cons next rest =>
            refine .inr ⟨[], row, next :: rest, _, rfl, cons_ne_nil _ _, hchecked,
              fun _ h => absurd h not_mem_nil, habove, hsound, ?_, rfl⟩
            have hone : limit - walk.walked = 0 + 1 := by omega
            rw [hone, take_succ_cons, walkRows, if_pos hlast]
        · have hroom : limit - walk.walked = limit - (walk.walked + 1) + 1 := by omega
          rw [hroom]
          rcases ih ⟨some row.seq, row.columns.hash, u64SaturatingAdd walk.checked 1,
            walk.walked + 1,
            row.seq⟩ (by dsimp only; omega) with hsame | hmore
          · exact .inl hsame
          · obtain ⟨done, last, rest, checked, rfl, hrest, hpos, hdone, hpast, hlinked,
              hwalk, hpass⟩ :=
              hmore
            have hrow : row.seq < last.seq := hpast _ rfl
            exact .inr ⟨row :: done, last, rest, checked, rfl, hrest, hpos,
              forall_mem_cons.2 ⟨hrow, hdone⟩,
              fun previous hprevious => (habove previous hprevious).trans hrow, hlinked,
                hwalk, hpass⟩

/-- A row that does not follow is where one pass finds a record missing. -/
theorem passRows_gap
    (h : row.seq ≠ u64SaturatingAdd previous 1) :
    passRows serde digest unchained (row :: rows) (some previous) hash checked =
      .ok (.broken (u64SaturatingAdd previous 1) .missingRecord) := by
  rw [passRows]
  simp only [chainBreak, Option.map_some, Option.getD_some, if_pos h]
  rfl

/-- A record that is missing is past those that were checked, and past the next where it follows. -/
theorem exists_of_missing {missing : Nat} (hprevious : previous ≤ i64Max)
    (h : passRows serde digest unchained rows (some previous) hash checked =
      .ok (.broken missing .missingRecord)) :
    ∃ row, row ∈ rows.head? ∧ previous < missing ∧
    (row.seq = previous + 1 → row.seq < missing) := by
  have hfollows := u64SaturatingAdd_one (lt_of_le_of_lt hprevious i64Max_lt_u64Max)
  induction rows generalizing previous hash checked with
  | nil => cases h
  | cons row rows ih =>
    refine ⟨row, rfl, ?_⟩
    by_cases hseq : row.seq = previous + 1
    · have hrow : row.seq < missing := by
        simp only [passRows, Option.map_some, Option.getD_some, hfollows, ← hseq, bind_eq_ok] at h
        obtain ⟨broken, hbroken, h⟩ := h
        cases broken with
        | none =>
          have hfollows' := u64SaturatingAdd_one (lt_of_le_of_lt row.seq_le i64Max_lt_u64Max)
          obtain ⟨-, -, hlt, -⟩ := ih row.seq_le h hfollows'
          exact hlt
        | some =>
          cases h
          simp only [chainBreak, ne_eq, not_true_eq_false, if_false] at hbroken
          split at hbroken
          · cases hbroken
          · simp only [bind_eq_ok, pure_eq_ok] at hbroken
            obtain ⟨_, _, _, _, hbroken⟩ := hbroken
            split at hbroken <;> cases hbroken
      exact ⟨by omega, fun _ => hrow⟩
    · rw [passRows_gap (hfollows ▸ hseq), hfollows] at h
      cases h
      exact ⟨by omega, fun hnext => absurd hnext hseq⟩

end

namespace EventLog

variable {serde : Serde} {digest : String → ChainHash} {log : EventLog} {cursor : ChainCursor}

theorem chainedPast_sorted (log : EventLog) (n : Nat) :
    (log.chainedPast n).Pairwise fun a b => a.seq ≤ b.seq :=
  (pairwise_insertionSort (fun a b : ChainRow => a.seq ≤ b.seq) _).filter _

theorem chainedPast_of_le {n m : Nat} (h : n ≤ m) :
    log.chainedPast m = (log.chainedPast n).filter fun row => decide (m < row.seq) := by
  rw [chainedPast, chainedPast, filter_filter]
  refine filter_congr fun row _ => ?_
  by_cases hpast : m < row.seq
  · simp [hpast, lt_of_le_of_lt h hpast]
  · simp [hpast]

/-- One chunk that takes in every row is the one pass. -/
theorem verifyChainChunk_whole {whole : Nat}
    (h : (log.chainedPast cursor.afterSeq).length ≤ whole) :
    log.verifyChainChunk serde digest cursor whole =
      ChainChunk.finished <$> log.passFrom serde digest cursor := by
  rw [verifyChainChunk, log.chainedPast_toI64, take_of_length_le (by omega),
    walkRows_of_fits (by dsimp only; omega)]
  rfl

variable {rest : List ChainRow} {last : ChainRow}

/-- The rows from the last one checked on, and those past its position. -/
theorem chainedPast_split {n : Nat} {done : List ChainRow}
    (hrows : log.chainedPast n = done ++ last :: rest) (hdone : ∀ row ∈ done, row.seq < last.seq) :
    n < last.seq ∧ log.chainedPast (last.seq - 1) = last :: rest ∧
      log.chainedPast last.seq = rest.filter fun row => decide (last.seq < row.seq) := by
  have hmem : last ∈ log.chainedPast n := by
    rw [hrows]
    exact mem_append_right _ mem_cons_self
  have hpast : n < last.seq := of_decide_eq_true (mem_filter.1 hmem).2
  have hsorted := log.chainedPast_sorted n
  rw [hrows, pairwise_append, pairwise_cons] at hsorted
  have hearlier : ∀ m, last.seq ≤ m + 1 → done.filter (fun row => decide (m < row.seq)) = [] :=
    fun m hm => filter_eq_nil_iff.2 fun row hrow => by
      have := hdone row hrow
      simp only [decide_eq_true_eq]
      omega
  refine ⟨hpast, ?_, ?_⟩
  · rw [chainedPast_of_le (by omega : n ≤ last.seq - 1), hrows, filter_append,
      hearlier _ (by omega), nil_append, filter_eq_self]
    intro row hrow
    rcases mem_cons.1 hrow with rfl | hrow
    · simp only [decide_eq_true_eq]
      omega
    · have := hsorted.2.1.1 row hrow
      simp only [decide_eq_true_eq]
      omega
  · rw [chainedPast_of_le hpast.le, hrows, filter_append, hearlier _ (by omega), nil_append,
      filter_cons_of_neg (by simp)]

/-- Where the one pass is after a row that checks out, against where the next chunk begins. -/
structure Cut (serde : Serde) (digest : String → ChainHash) (log : EventLog)
    (cursor next : ChainCursor) (last : ChainRow) (rest : List ChainRow) : Prop where
  rest_ne : rest ≠ []
  past : cursor.afterSeq < last.seq
  sound : (chainLinks serde digest).Sound last
  after : next.afterSeq = last.seq
  rows : log.chainedPast (last.seq - 1) = last :: rest
  fewer : (log.chainedPast last.seq).length < (log.chainedPast cursor.afterSeq).length
  whole : log.passFrom serde digest cursor = passRows serde digest (log.unchainedCount next) rest
    (some last.seq) next.expectPrev next.checked
  next : log.passFrom serde digest next = passRows serde digest (log.unchainedCount next)
    (rest.filter fun row => decide (last.seq < row.seq))
      (some last.seq) next.expectPrev next.checked

variable {limit fuel : Nat} {next : ChainCursor}

/-- A chunk ends the walk as one pass does, or leaves to the next one the rows past the last it
    checked. -/
theorem verifyChainChunk_cases (log : EventLog) (serde : Serde) (digest : String → ChainHash)
    (cursor : ChainCursor) (hlimit : 0 < limit) :
    log.verifyChainChunk serde digest cursor limit =
        ChainChunk.finished <$> log.passFrom serde digest cursor ∨
      ∃ next last rest, log.verifyChainChunk serde digest cursor limit = .ok (.more next) ∧
        Cut serde digest log cursor next last rest := by
  rw [verifyChainChunk, log.chainedPast_toI64]
  rcases walkRows_window serde digest (log.unchainedCount cursor) (log.chainedPast cursor.afterSeq)
    ⟨walkAnchor cursor, cursor.expectPrev, cursor.checked, 0, cursor.afterSeq⟩ hlimit with
    hsame | ⟨done, last, rest, checked, hrows, hne, hchecked, hdone, -, hsound, hmore, hpass⟩
  · exact .inl hsame
  · obtain ⟨hpast, hfrom, hbeyond⟩ := chainedPast_split hrows hdone
    have hcount : log.unchainedCount
          ⟨last.seq, last.columns.hash, checked, log.unchainedCount cursor⟩ =
        log.unchainedCount cursor := if_neg hchecked.ne'
    refine .inr ⟨_, last, rest, hmore, hne, hpast, hsound, rfl, hfrom, ?_, ?_, ?_⟩
    · have hlength := length_filter_le (fun row : ChainRow => decide (last.seq < row.seq)) rest
      rw [hbeyond, hrows, length_append, length_cons]
      omega
    · rw [hcount]
      exact hpass
    · rw [passFrom, hcount, hbeyond, walkAnchor,
        if_neg (show ¬ last.seq = 0 by omega)]

/-- No position is held by two records of which the first is sound, but where a gap follows it. -/
def RepeatsShow (serde : Serde) (digest : String → ChainHash) (log : EventLog) : Prop :=
  ∀ n first second rest, log.chainedPast n = first :: second :: rest → first.seq = n + 1 →
    second.seq = n + 1 → (chainLinks serde digest).Sound first →
    (∃ row ∈ rest, n + 1 < row.seq) ∧ ∀ row ∈ rest, row.seq ≠ n + 2

theorem u64SaturatingAdd_seq (row : ChainRow) : u64SaturatingAdd row.seq 1 = row.seq + 1 :=
  u64SaturatingAdd_one (lt_of_le_of_lt row.seq_le i64Max_lt_u64Max)

/-- Where repeats show, a walk that is cut finds what one pass does. -/
theorem Cut.same
    (hcut : Cut serde digest log cursor next last rest) (hlog : log.RepeatsShow serde digest) :
    log.passFrom serde digest cursor = log.passFrom serde digest next := by
  have hpos : last.seq = last.seq - 1 + 1 := by
    have := hcut.past
    omega
  have hsorted := log.chainedPast_sorted (last.seq - 1)
  rw [hcut.rows, pairwise_cons] at hsorted
  rw [hcut.whole, hcut.next]
  obtain ⟨second, rest, rfl⟩ := exists_cons_of_ne_nil hcut.rest_ne
  have hle := hsorted.1 second mem_cons_self
  by_cases hrepeat : second.seq = last.seq
  · -- one pass stops at the repeat, and the next chunk at the gap behind it
    obtain ⟨⟨row, hrow, hbeyond⟩, hgap⟩ :=
      hlog _ last second rest hcut.rows hpos (hrepeat.trans hpos) hcut.sound
    rw [passRows_gap (by rw [u64SaturatingAdd_seq]; omega),
      filter_cons_of_neg (by simp [hrepeat])]
    have hmem : row ∈ rest.filter fun row => decide (last.seq < row.seq) :=
      mem_filter.2 ⟨hrow, decide_eq_true (hpos ▸ hbeyond)⟩
    obtain ⟨third, after, hafter⟩ := exists_cons_of_ne_nil (ne_nil_of_mem hmem)
    have hthird : third ∈ rest := by
      refine (mem_filter.1 (?_ : third ∈ rest.filter fun row => decide (last.seq < row.seq))).1
      rw [hafter]
      exact mem_cons_self
    have hne := hgap third hthird
    rw [hafter, passRows_gap (by rw [u64SaturatingAdd_seq]; omega)]
  · rw [filter_eq_self.2 fun row hrow => ?_]
    rcases mem_cons.1 hrow with rfl | hrow
    · exact decide_eq_true (lt_of_le_of_ne hle (Ne.symm hrepeat))
    · have := (pairwise_cons.1 hsorted.2).1 row hrow
      exact decide_eq_true (by omega)

theorem driveChunks_more
    (h : log.verifyChainChunk serde digest cursor limit = .ok (.more next)) :
    log.driveChunks serde digest limit (fuel + 1) cursor =
      log.driveChunks serde digest limit fuel next := by
  rw [driveChunks, h]

/-- Where repeats show, chunks of any size come to the answer of one pass. -/
theorem drives_of_repeatsShow (hlog : log.RepeatsShow serde digest) (hlimit : 0 < limit) :
    ∃ fuel, log.driveChunks serde digest limit fuel cursor =
      some (log.passFrom serde digest cursor) := by
  -- each chunk that does not end the walk leaves fewer rows to it
  induction hleft : (log.chainedPast cursor.afterSeq).length using Nat.strong_induction_on
    generalizing cursor with
  | _ left ih =>
    rcases log.verifyChainChunk_cases serde digest cursor hlimit with
      hsame | ⟨next, last, rest, hmore, hcut⟩
    · refine ⟨1, ?_⟩
      rw [driveChunks, hsame]
      cases log.passFrom serde digest cursor <;> rfl
    · obtain ⟨fuel, hfuel⟩ := ih _ (by rw [← hleft, hcut.after]; exact hcut.fewer) rfl
      refine ⟨fuel + 1, ?_⟩
      rw [driveChunks_more hmore, hcut.same hlog]
      exact hfuel

/-- A walk in chunks that finds a record missing finds it past its cursor. -/
theorem exists_of_drive {missing : Nat} (hlimit : 0 < limit) (hpos : 0 < cursor.afterSeq)
    (hle : cursor.afterSeq ≤ i64Max) (h : log.driveChunks serde digest limit fuel cursor =
      some (.ok (.broken missing .missingRecord))) :
    ∃ row, row ∈ (log.chainedPast cursor.afterSeq).head? ∧ cursor.afterSeq < missing ∧
      (row.seq = cursor.afterSeq + 1 → row.seq < missing) := by
  induction fuel generalizing cursor with
  | zero => cases h
  | succ fuel ih =>
    rcases log.verifyChainChunk_cases serde digest cursor hlimit with
      hsame | ⟨next, last, rest, hmore, hcut⟩
    · rw [driveChunks, hsame] at h
      have hpass : log.passFrom serde digest cursor = .ok (.broken missing .missingRecord) := by
        revert h
        cases log.passFrom serde digest cursor <;> exact fun h => Option.some.inj h
      rw [passFrom, walkAnchor, if_neg hpos.ne'] at hpass
      exact exists_of_missing hle hpass
    · rw [driveChunks_more hmore] at h
      have hpast := hcut.past
      have hafter := hcut.after
      obtain ⟨-, -, hlt, -⟩ := ih (by omega) (hafter ▸ last.seq_le) h
      obtain ⟨row, rows, hrows⟩ := exists_cons_of_length_pos
        (lt_of_le_of_lt (Nat.zero_le _) hcut.fewer)
      exact ⟨row, by rw [hrows]; rfl, by omega, fun hrow => by omega⟩

/-- From the checkpoint before a sound record whose position is repeated, one pass finds the next
    position missing, and a chunk of one row goes on behind the record. -/
theorem passFrom_repeat (log : EventLog) {n : Nat} {first second : ChainRow}
    (hrows : log.chainedPast n = first :: second :: rest) (hfirst : first.seq = n + 1)
    (hsecond : second.seq = n + 1) (hsound : (chainLinks serde digest).Sound first) :
    log.passFrom serde digest ⟨n, first.columns.prevHash, 0, 0⟩ =
        .ok (.broken (n + 2) .missingRecord) ∧
      log.verifyChainChunk serde digest ⟨n, first.columns.prevHash, 0, 0⟩ 1 =
        .ok (.more ⟨n + 1, first.columns.hash, 1,
          log.unchainedCount ⟨n, first.columns.prevHash, 0, 0⟩⟩) := by
  have hnext : ((walkAnchor ⟨n, first.columns.prevHash, 0, 0⟩).map (u64SaturatingAdd · 1)).getD
      first.seq = first.seq := by
    have hle := hfirst ▸ first.seq_le
    have hlt := i64Max_lt_u64Max
    unfold walkAnchor
    split
    · rfl
    · exact (u64SaturatingAdd_one (by dsimp only; omega)).trans hfirst.symm
  have hbreak := chainBreak_eq_ok_none.2 ⟨rfl, rfl, hsound⟩
  constructor
  · rw [passFrom, hrows, passRows, hnext, hbreak]
    refine (passRows_gap (by rw [u64SaturatingAdd_seq]; omega)).trans ?_
    rw [u64SaturatingAdd_seq, hfirst]
  · rw [verifyChainChunk, log.chainedPast_toI64]
    rw [hrows, take_succ_cons, take_succ_cons, walkRows, if_neg (by simp), hnext]
    dsimp only
    rw [hbreak, ok_bind]
    rw [walkRows, if_pos rfl, hfirst]
    rfl

/-- Where chunks of one row come to the answer of one pass from every checkpoint, repeats show. -/
theorem repeatsShow_of_drives
    (h : ∀ checkpoint, DrivesAsOnePass serde digest { log with checkpoint } 1) :
    log.RepeatsShow serde digest := by
  intro n first second rest hrows hfirst hsecond hsound
  obtain ⟨fuel, answer, hdrive, hwhole⟩ := h (some ⟨n, first.columns.prevHash⟩)
  obtain ⟨hpass, hchunk⟩ := passFrom_repeat
    { log with checkpoint := some ⟨n, first.columns.prevHash⟩ } hrows hfirst hsecond hsound
  have hanswer : answer = .ok (.broken (n + 2) .missingRecord) := by
    have hmapped := (hwhole _ le_rfl).symm.trans (verifyChainChunk_whole le_rfl)
    rw [show verifyStart _ = (⟨n, first.columns.prevHash, 0, 0⟩ : ChainCursor) from rfl,
      hpass] at hmapped
    cases answer with
    | error => cases hmapped
    | ok =>
      cases hmapped
      rfl
  obtain ⟨fuel, rfl⟩ : ∃ k, fuel = k + 1 := by
    cases fuel with
    | zero => cases hdrive
    | succ fuel => exact ⟨fuel, rfl⟩
  rw [driveChunks, show verifyStart _ = (⟨n, first.columns.prevHash, 0, 0⟩ : ChainCursor) from rfl,
    hchunk, hanswer] at hdrive
  obtain ⟨row, hrow, -, hne⟩ := exists_of_drive Nat.one_pos (Nat.succ_pos n)
    (hfirst ▸ first.seq_le) hdrive
  -- what the walk goes on with are the rows past the repeated position
  have hsplit := (chainedPast_split (hrows.trans (nil_append _).symm)
    fun _ h => absurd h not_mem_nil).2.2
  have hsorted := log.chainedPast_sorted (n + 1)
  change row ∈ (log.chainedPast (n + 1)).head? at hrow
  obtain ⟨after, hafter⟩ := head?_eq_some_iff.1 hrow
  have hkept : ∀ other, other ∈ row :: after ↔ other ∈ rest ∧ n + 1 < other.seq := by
    intro other
    rw [← hafter, ← hfirst, hsplit, filter_cons_of_neg (by simp [hfirst, hsecond]),
      mem_filter, decide_eq_true_eq]
  obtain ⟨hmem, hpast⟩ := (hkept row).1 mem_cons_self
  refine ⟨⟨row, hmem, hpast⟩, fun other hother heq => ?_⟩
  rw [hafter, pairwise_cons] at hsorted
  have hle : row.seq ≤ other.seq := by
    rcases mem_cons.1 ((hkept other).2 ⟨hother, by omega⟩) with rfl | hlater
    · exact le_rfl
    · exact hsorted.1 other hlater
  have hat : row.seq = n + 1 + 1 := by omega
  have hlt := hne hat
  omega

/-- The row of the first record of a log, under an id of the caller's choosing. -/
def firstRecordRow (id : Nat) : EventRow :=
  { (sampleRow 1 sampleJson).toEventRow with eventId := ⟨id⟩ }

/-- A log whose one record was copied to a second row. -/
def copiedRecordLog : EventLog := ⟨[firstRecordRow 1, firstRecordRow 2], [], 1, none⟩

end EventLog

end PosFramework
