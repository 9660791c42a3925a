import PosFramework.Store.Walk

set_option autoImplicit false

/-! # What a walk vouches for

Read backwards: from a walk that found a log intact to what the log holds. Where the digest tells
its inputs apart, the head that a walk ends on and the number of rows it checked fix every record
it has seen, as far as a record is hashed: its payload is hashed as the JSON value its text reads
as. -/

namespace PosFramework

open Fallible HashChain List ChainRow EventLog Except Function

variable {serde : Serde} {digest : String → ChainHash} {rows : List ChainRow}

theorem chainBreak_eq_ok_some {row : ChainRow} {expected : Nat} {previous : ChainHash}
    {status : ChainStatus} (h : chainBreak serde digest row expected previous = .ok (some status)) :
    ∃ seq reason, status = .broken seq reason := by
  unfold chainBreak at h
  split at h
  · exact ⟨_, _, (Option.some.inj (ok.inj h)).symm⟩
  · split at h
    · exact ⟨_, _, (Option.some.inj (ok.inj h)).symm⟩
    · simp only [bind_eq_ok, pure_eq_ok] at h
      obtain ⟨stored, _, recomputed, _, hresult⟩ := h
      split at hresult
      · contradiction
      · exact ⟨_, _, (Option.some.inj hresult).symm⟩

theorem u64SaturatingAdd_succ (n k : Nat) :
    u64SaturatingAdd (u64SaturatingAdd n 1) k = u64SaturatingAdd n (k + 1) := by
  unfold u64SaturatingAdd
  omega

/-- The rows a chunk has checked, where it found no break in them: they follow one another from the
    row the walk had got to. -/
theorem linked_of_walkRows {limit unchained : Nat} {walk : ChainWalk}
    {chunk : ChainChunk} (hpositive : ∀ row ∈ rows, 0 < row.seq) (hwalked : walk.walked ≤ limit)
    (hfits : walk.checked ≤ u64Max)
    (hwalk : walkRows serde digest limit unchained rows walk = .ok chunk)
    (hfound : ∀ seq reason, chunk ≠ .finished (.broken seq reason)) :
    ∃ n done rest, rows = done ++ rest ∧ (∀ m ∈ walk.expectedSeq, m = n) ∧
      Linked (chainLinks serde digest) n walk.previous done ∧
      ((rest = [] ∧ done.length ≤ limit - walk.walked ∧ chunk = .finished
          (.intact (u64SaturatingAdd walk.checked done.length) unchained
          (if u64SaturatingAdd walk.checked done.length = 0 then none
            else some (endHash (chainLinks serde digest) walk.previous done)))) ∨
        (done.length = limit - walk.walked ∧
          chunk = .more ⟨(done.getLast?.map seq).getD walk.lastSeq,
            endHash (chainLinks serde digest) walk.previous done,
            u64SaturatingAdd walk.checked done.length, unchained⟩)) := by
  have hanchor : ∀ m ∈ walk.expectedSeq, m = walk.expectedSeq.getD 0 := by
    intro m hm
    rw [hm]
    rfl
  have hkept : u64SaturatingAdd walk.checked 0 = walk.checked := min_eq_left hfits
  induction rows generalizing walk with
  | nil =>
    rw [walkRows] at hwalk
    refine ⟨_, [], [], rfl, hanchor, .nil _ _, .inl ⟨rfl, Nat.zero_le _, ?_⟩⟩
    rw [← ok.inj hwalk, length_nil, hkept]
    rfl
  | cons row rows ih =>
    rw [walkRows] at hwalk
    by_cases hlimit : walk.walked = limit
    · rw [if_pos hlimit] at hwalk
      refine ⟨_, [], row :: rows, rfl, hanchor, .nil _ _, .inr ⟨?_, ?_⟩⟩
      · rw [hlimit, Nat.sub_self]
        rfl
      · rw [← ok.inj hwalk, length_nil, hkept]
        rfl
    rw [if_neg hlimit] at hwalk
    simp only [bind_eq_ok] at hwalk
    obtain ⟨found, hbreak, hrest⟩ := hwalk
    cases found with
    | some =>
      obtain ⟨seq, reason, rfl⟩ := chainBreak_eq_ok_some hbreak
      exact absurd (ok.inj hrest).symm (hfound seq reason)
    | none =>
      obtain ⟨hseq, hprev, hsound⟩ := chainBreak_eq_ok_none.1 hbreak
      have hnumber : row.seq - 1 + 1 = row.seq :=
        Nat.sub_add_cancel (hpositive row mem_cons_self)
      have hfirst : ∀ m ∈ walk.expectedSeq, m = row.seq - 1 := by
        intro m hm
        rw [hm] at hseq
        have hnext : row.seq = u64SaturatingAdd m 1 := hseq
        have hle := row.seq_le
        unfold u64SaturatingAdd u64Max at hnext
        unfold i64Max at hle
        omega
      obtain ⟨n, done, rest, rfl, hn, hlinked, hend⟩ :=
        ih (fun other hother => hpositive other (mem_cons_of_mem row hother))
          (Nat.succ_le_of_lt (lt_of_le_of_ne hwalked hlimit)) (min_le_right _ _) hrest
          (fun m hm => by rw [hm]; rfl) (min_eq_left (min_le_right _ _))
      have hn' : row.seq - 1 + 1 = n := by
        rw [hnumber, hseq]
        exact hn _ rfl
      refine ⟨row.seq - 1, row :: done, rest, rfl, hfirst,
        .cons hnumber.symm hprev hsound (hn' ▸ hlinked), ?_⟩
      rw [endHash_cons, length_cons, ← u64SaturatingAdd_succ, getLast?_cons]
      have hleft : limit - (walk.walked + 1) + 1 = limit - walk.walked := by omega
      rcases hend with ⟨hnil, hlength, hchunk⟩ | ⟨hlength, hchunk⟩
      · exact .inl ⟨hnil, hleft ▸ Nat.succ_le_succ hlength, hchunk⟩
      · refine .inr ⟨?_, ?_⟩
        · rw [hlength]
          exact hleft
        · rw [hchunk]
          cases done.getLast? <;> rfl

namespace EventLog

variable {log : EventLog}

theorem chained_ascending (hdistinct : (log.chained.map seq).Nodup) :
    log.chained.Pairwise fun a b => a.seq < b.seq := by
  have hsorted : log.chained.Pairwise fun a b => a.seq ≤ b.seq :=
    pairwise_insertionSort (fun a b : ChainRow => a.seq ≤ b.seq) _
  have hapart : log.chained.Pairwise fun a b => a.seq ≠ b.seq := pairwise_map.1 hdistinct
  exact (hsorted.and hapart).imp fun hboth => lt_of_le_of_ne hboth.1 hboth.2

/-- The rows past the last of those a request has checked, where no two share a position, are the
    ones it has not checked. -/
theorem chainedPast_of_append (hdistinct : (log.chained.map seq).Nodup)
    {after : Nat} {done rest : List ChainRow} (hsplit : log.chainedPast after = done ++ rest)
    {last : ChainRow} (hlast : done.getLast? = some last) : log.chainedPast last.seq = rest := by
  have hmem : last ∈ log.chainedPast after :=
    hsplit ▸ mem_append_left rest (mem_of_getLast? hlast)
  have hafter : after < last.seq := of_decide_eq_true (mem_filter.1 hmem).2
  have hfilter : log.chainedPast last.seq =
      (log.chainedPast after).filter fun row => decide (last.seq < row.seq) := by
    unfold chainedPast
    rw [filter_filter]
    refine filter_congr fun row _ => ?_
    by_cases hpast : last.seq < row.seq
    · simp [hpast, hafter.trans hpast]
    · simp [hpast]
  have hascending : (done ++ rest).Pairwise fun a b => a.seq < b.seq :=
    hsplit ▸ (chained_ascending hdistinct).sublist filter_sublist
  obtain ⟨hdone, _, hacross⟩ := pairwise_append.1 hascending
  rw [hfilter, hsplit, filter_append, filter_eq_nil_iff.2, filter_eq_self.2,
    nil_append]
  · intro row hrow
    exact decide_eq_true (hacross last (mem_of_getLast? hlast) row hrow)
  · intro row hrow
    obtain ⟨front, rfl⟩ := getLast?_eq_some_iff.1 hlast
    rcases mem_append.1 hrow with hfront | hsingle
    · have hlt := (pairwise_append.1 hdone).2.2 row hfront last (mem_singleton_self last)
      simpa using le_of_lt hlt
    · rw [mem_singleton.1 hsingle]
      simp

/-- A log whose positions are distinct and that a walk finds intact is a chain from where the walk
    began. One that begins at the beginning may begin at any number. -/
theorem linked_of_verifies (hdistinct : (log.chained.map seq).Nodup)
    {cursor : ChainCursor} {checked unchained : Nat} {head : Option ChainHash}
    (hverifies : log.Verifies serde digest cursor (.intact checked unchained head))
    (hfits : cursor.checked ≤ u64Max) :
    ∃ n, (cursor.afterSeq ≠ 0 → n = cursor.afterSeq) ∧
      Linked (chainLinks serde digest) n cursor.expectPrev (log.chainedPast cursor.afterSeq) ∧
      checked = u64SaturatingAdd cursor.checked (log.chainedPast cursor.afterSeq).length ∧
      head = if checked = 0 then none
        else some (endHash (chainLinks serde digest) cursor.expectPrev
          (log.chainedPast cursor.afterSeq)) := by
  generalize hstatus : ChainStatus.intact checked unchained head = status at hverifies
  have hanchor : ∀ (cursor : ChainCursor) (n : Nat), (∀ m ∈ walkAnchor cursor, m = n) →
      cursor.afterSeq ≠ 0 → n = cursor.afterSeq := by
    intro cursor n hn hafter
    refine (hn cursor.afterSeq ?_).symm
    rw [walkAnchor, if_neg hafter]
    rfl
  have hpositive : ∀ (cursor : ChainCursor), ∀ row ∈
      (log.chainedPast cursor.afterSeq).take (chainChunkSize + 1), 0 < row.seq := by
    intro cursor row hrow
    have hpast := of_decide_eq_true (mem_filter.1 (mem_of_mem_take hrow)).2
    exact lt_of_le_of_lt (Nat.zero_le _) hpast
  induction hverifies with
  | @finished cursor status hchunk =>
    subst hstatus
    rw [verifyChainChunk, log.chainedPast_toI64] at hchunk
    obtain ⟨n, done, rest, hwindow, hn, hlinked, hend⟩ := linked_of_walkRows (hpositive cursor)
      (Nat.zero_le _) hfits hchunk (by rintro _ _ ⟨⟩)
    rcases hend with ⟨rfl, hlength, hchunk⟩ | ⟨_, hchunk⟩
    · rw [append_nil] at hwindow
      have hall : log.chainedPast cursor.afterSeq = done := by
        rw [← hwindow, take_of_length_le]
        have hlengths := congrArg length hwindow
        rw [length_take] at hlengths
        omega
      obtain ⟨hchecked, _, hhead⟩ := ChainStatus.intact.inj (ChainChunk.finished.inj hchunk)
      refine ⟨n, hanchor cursor n hn, hall ▸ hlinked, hall ▸ hchecked, ?_⟩
      rw [hhead, hchecked, hall]
    · contradiction
  | @more cursor next status hchunk _ ih =>
    rw [verifyChainChunk, log.chainedPast_toI64] at hchunk
    obtain ⟨n, done, rest, hwindow, hn, hlinked, hend⟩ := linked_of_walkRows (hpositive cursor)
      (Nat.zero_le _) hfits hchunk (by rintro _ _ ⟨⟩)
    rcases hend with ⟨_, _, hchunk⟩ | ⟨hlength, hchunk⟩
    · contradiction
    obtain rfl := ChainChunk.more.inj hchunk
    have hsplit : log.chainedPast cursor.afterSeq =
        done ++ (rest ++ (log.chainedPast cursor.afterSeq).drop (chainChunkSize + 1)) := by
      rw [← append_assoc, ← hwindow, take_append_drop]
    cases hlast : done.getLast? with
    | none =>
      obtain rfl := getLast?_eq_none_iff.1 hlast
      contradiction
    | some last =>
      have hrest := chainedPast_of_append hdistinct hsplit hlast
      have hnumber : last.seq = n + done.length := (hlinked.getLast? hlast).1
      rw [hlast] at ih
      obtain ⟨n', hn', hlinked', hchecked, hhead⟩ := ih (min_le_right _ _) hstatus
      have hsame : n' = n + done.length := by
        rw [← hnumber]
        refine hn' ?_
        show last.seq ≠ 0
        rw [hnumber, hlength]
        exact Nat.ne_of_gt (Nat.add_pos_right n (show 0 < chainChunkSize - 0 by decide))
      have hrows : log.chainedPast cursor.afterSeq = done ++ log.chainedPast last.seq :=
        hsplit.trans (congrArg (done ++ ·) hrest.symm)
      refine ⟨n, hanchor cursor n hn, ?_, ?_, ?_⟩
      · rw [hrows]
        exact linked_append.2 ⟨hlinked, hsame ▸ hlinked'⟩
      · rw [hchecked, hrows, length_append]
        show u64SaturatingAdd (u64SaturatingAdd cursor.checked done.length) _ = _
        unfold u64SaturatingAdd
        show min (min (cursor.checked + done.length) u64Max +
          (log.chainedPast last.seq).length) u64Max = _
        omega
      · rw [hhead, hrows, endHash_append]
        rfl

end EventLog

/-! ## The head fixes the records -/

/-- Two rows at one position that hold the same record: envelopes that are equal without their
    links, with each payload as the JSON value its text reads as. -/
def ChainRow.SameRecord (serde : Serde) (a b : ChainRow) : Prop :=
  a.seq = b.seq ∧ ∃ record, a.envelope.bind (·.record serde) = some record ∧
    b.envelope.bind (·.record serde) = some record

/-- With a digest that tells its inputs apart, a row's hash fixes its link and its record. -/
theorem sameRecord_of_hash (hdigest : Injective digest) (a b : ChainRow)
    (ha : (chainLinks serde digest).Sound a) (hb : (chainLinks serde digest).Sound b)
    (hhash : (chainLinks serde digest).hash a = (chainLinks serde digest).hash b) :
    (chainLinks serde digest).prev a = (chainLinks serde digest).prev b ∧ a.SameRecord serde b := by
  obtain ⟨envelope, hstored, hhashed⟩ := ha
  obtain ⟨envelope', hstored', hhashed'⟩ := hb
  have hsame : a.columns.hash = b.columns.hash := hhash
  obtain ⟨hlink, record, hrecord, hrecord'⟩ :=
    EventEnvelope.chainHash_inj hdigest hhashed (hsame ▸ hhashed')
  refine ⟨congrArg ChainLink.prevHash hlink, congrArg ChainLink.seq hlink, record, ?_, ?_⟩
  · rw [hstored]
    exact hrecord
  · rw [hstored']
    exact hrecord'

/-- A chain's positions are integers of SQLite's, so a count of its rows does not saturate. -/
theorem length_le_of_linked {n : Nat} {h : ChainHash}
    (hrows : Linked (chainLinks serde digest) n h rows) : rows.length ≤ i64Max := by
  cases hlast : rows.getLast? with
  | none =>
    rw [getLast?_eq_none_iff.1 hlast]
    exact Nat.zero_le _
  | some last =>
    have hseq : last.seq = n + rows.length := (hrows.getLast? hlast).1
    have hle := last.seq_le
    omega

/-- Two contents of a store's log, in each of which no two rows share a position, that both walk
    intact from one checkpoint and end on one head after as many rows: past the checkpoint they hold
    the same records, position by position, up to the spelling of a payload. -/
theorem head_fixes_records (serde : Serde) (digest : String → ChainHash)
    (hdigest : Injective digest) (log log' : EventLog)
    (hcheckpoint : log.checkpoint = log'.checkpoint) (hdistinct : (log.chained.map seq).Nodup)
    (hdistinct' : (log'.chained.map seq).Nodup) (checked unchained unchained' : Nat)
    (head : Option ChainHash)
    (hverifies : log.Verifies serde digest log.verifyStart (.intact checked unchained head))
    (hverifies' : log'.Verifies serde digest log'.verifyStart (.intact checked unchained' head)) :
    Forall₂ (SameRecord serde) (log.chainedPast log.verifyStart.afterSeq)
      (log'.chainedPast log'.verifyStart.afterSeq) := by
  have hstart : log'.verifyStart = log.verifyStart := by
    unfold verifyStart
    rw [hcheckpoint]
  have hfresh : log.verifyStart.checked = 0 := by
    unfold verifyStart
    cases log.checkpoint <;> rfl
  rw [hstart] at hverifies' ⊢
  obtain ⟨n, _, hlinked, hchecked, hhead⟩ := linked_of_verifies hdistinct hverifies
    (hfresh ▸ Nat.zero_le _)
  obtain ⟨n', _, hlinked', hchecked', hhead'⟩ := linked_of_verifies hdistinct' hverifies'
    (hfresh ▸ Nat.zero_le _)
  have hbound := length_le_of_linked hlinked
  have hbound' := length_le_of_linked hlinked'
  have hlimit := i64Max_lt_u64Max
  rw [hfresh] at hchecked hchecked'
  unfold u64SaturatingAdd at hchecked hchecked'
  refine Linked.unique (sameRecord_of_hash hdigest) hlinked hlinked' (by omega) ?_
  by_cases hnone : checked = 0
  · refine .inl (length_eq_zero_iff.1 ?_)
    omega
  · rw [if_neg hnone] at hhead hhead'
    exact .inr (Option.some.inj (hhead.symm.trans hhead'))

/-- A log of two records, the payload of the first spelt in some way. -/
def twoRecordLog (json : String) : EventLog where
  events := [sampleRow 1 json, sampleRow 2 sampleJson].map toEventRow
  outbox := []
  lastPosition := 2
  checkpoint := none

theorem twoRecordLog_verifies (json : String)
    (hhash : (chainedSample 1 json).chainHash .sample textDigest .first = some (sampleHead 1)) :
    (twoRecordLog json).Verifies .sample textDigest (twoRecordLog json).verifyStart
      (.intact 2 0 (some (sampleHead 2))) := by
  have hlinked : Linked (chainLinks .sample textDigest) ChainCursor.start.afterSeq
      ChainCursor.start.expectPrev ((twoRecordLog json).chainedPast ChainCursor.start.afterSeq) :=
    .cons rfl rfl ⟨_, rfl, hhash⟩ (.cons rfl rfl ⟨_, rfl, by decide +kernel⟩ (.nil _ _))
  exact (twoRecordLog json).verifies_of_linked rfl hlinked (le_refl 0) rfl

/-- A blank put into a payload's text is not seen: the walk ends on the same head, and the two logs
    hold envelopes that differ. -/
theorem blank_in_payload_unseen :
    Injective textDigest ∧
    (twoRecordLog sampleJson).checkpoint = (twoRecordLog spacedJson).checkpoint ∧
    (∃ head, (twoRecordLog sampleJson).Verifies .sample textDigest
        (twoRecordLog sampleJson).verifyStart (.intact 2 0 (some head)) ∧
      (twoRecordLog spacedJson).Verifies .sample textDigest
        (twoRecordLog spacedJson).verifyStart (.intact 2 0 (some head))) ∧
    (twoRecordLog sampleJson).chained.map (fun row => row.envelope.map (·.unchained)) ≠
      (twoRecordLog spacedJson).chained.map fun row => row.envelope.map (·.unchained) := by
  refine ⟨textDigest_injective, rfl, ⟨_, twoRecordLog_verifies sampleJson (by decide +kernel),
    twoRecordLog_verifies spacedJson (by decide +kernel)⟩, ?_⟩
  intro h
  have hdata := congrArg (map (Option.map fun e : EventEnvelope RawPayload => e.data)) h
  exact absurd hdata (by decide +kernel)

/-- The two logs hold the same records, their payloads read as JSON. -/
theorem head_fixes_records_blank :
    Forall₂ (SameRecord .sample)
      ((twoRecordLog sampleJson).chainedPast (twoRecordLog sampleJson).verifyStart.afterSeq)
      ((twoRecordLog spacedJson).chainedPast (twoRecordLog spacedJson).verifyStart.afterSeq) :=
  head_fixes_records .sample textDigest textDigest_injective _ _ rfl (by decide +kernel)
    (by decide +kernel) 2 0 0 _ (twoRecordLog_verifies sampleJson (by decide +kernel))
    (twoRecordLog_verifies spacedJson (by decide +kernel))

end PosFramework
