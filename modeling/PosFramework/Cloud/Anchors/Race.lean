import PosFramework.Cloud.Anchors
import PosFramework.Lib.Transition
import PosFramework.Proto.Samples

set_option autoImplicit false

/-! # Anchors that are weighed at the same time

A weighing reads what is held, and writes in another call. In between, other weighings read and
write. A head that is in the ledger stays there, and a second one at its length is refused by the
weighing that sees the first; one that has read before the first was written is dropped without a
word. -/

namespace PosFramework

open AnchorLedger List Transition

/-- How far a weighing has got. -/
inductive WeighPhase
  /-- What is held has been read. -/
  | judging (held : HeldAnchors)
  /-- The head has moved, and its window is to be read. -/
  | recomputing (previous : Option StoreAnchor)
  | filing (reports : List ConflictReport)
  | weighed
deriving DecidableEq

/-- An anchor that is being weighed. -/
structure Weighing where
  event : EventEnvelope StoreChainAnchored
  phase : WeighPhase
deriving DecidableEq

/-- The ledger, and the anchors that have been offered to it. -/
structure CloudAnchors where
  ledger : AnchorLedger
  weighings : List Weighing

/-- One call of a weighing: its first, which checks the envelope and reads what is held, or its
    next, with what the read of the window answers if that is what is next. -/
inductive WeighCall
  | begin (event : EventEnvelope StoreChainAnchored)
  | next (i : Nat) (window : Option (List (EventEnvelope RawPayload)))

section

variable (serde : Serde) (digest : String → ChainHash)

/-- The first call of a weighing. -/
def AnchorLedger.begin (ledger : AnchorLedger) (event : EventEnvelope StoreChainAnchored) :
    AnchorLedger × WeighPhase :=
  match refusedEnvelope event with
  | some report => (ledger.recordConflicts event.tenantId report.toList, .weighed)
  | none => (ledger, .judging (ledger.heldFor event.tenantId event.storeId event.data.chainSeq))

/-- The next call of a weighing. -/
def AnchorLedger.next (ledger : AnchorLedger) (event : EventEnvelope StoreChainAnchored)
    (window : Option (List (EventEnvelope RawPayload))) : WeighPhase → AnchorLedger × WeighPhase
  | .judging held =>
    match judge held event.offered with
    | .forked heldHead =>
      (ledger.recordConflict event.tenantId
        ⟨event.storeId, event.data.chainSeq, heldHead, event.data.chainHead, event.eventId⟩,
        .weighed)
    | .repeated => (ledger, .weighed)
    | .backfilled =>
      match ledger.accept event.tenantId event.offered with
      | .error _ => (ledger, .weighed)
      | .ok kept => (kept, .weighed)
    | .extended =>
      match ledger.accept event.tenantId event.offered with
      | .error _ => (ledger, .weighed)
      | .ok kept => (kept, .recomputing held.head)
  | .recomputing previous => (ledger, .filing (recomputeChain serde digest event previous window))
  | .filing [] => (ledger, .weighed)
  | .filing (report :: rest) => (ledger.recordConflict event.tenantId report, .filing rest)
  | .weighed => (ledger, .weighed)

/-- What a call does. -/
def CloudAnchors.step (state : CloudAnchors) : WeighCall → CloudAnchors
  | .begin event =>
    let (ledger, phase) := state.ledger.begin event
    ⟨ledger, state.weighings ++ [⟨event, phase⟩]⟩
  | .next i window =>
    match state.weighings[i]? with
    | some weighing =>
      let (ledger, phase) := state.ledger.next serde digest weighing.event window weighing.phase
      ⟨ledger, state.weighings.set i ⟨weighing.event, phase⟩⟩
    | none => state

/-- Runs of the calls of any number of weighings. -/
abbrev CloudAnchors.Run (allowed : CloudAnchors → WeighCall → Prop) :
    CloudAnchors → List WeighCall → CloudAnchors → Prop :=
  Transition.Run (ε := AnchorError) (fun call state => .ok (state.step serde digest call)) allowed

end

/-! ## A weighing that nothing comes between -/

section

variable {serde : Serde} {digest : String → ChainHash}

/-- Filing ends with every conflict recorded. -/
theorem CloudAnchors.run_filing (serde : Serde) (digest : String → ChainHash)
    (ledger : AnchorLedger) (event : EventEnvelope StoreChainAnchored)
    (reports : List ConflictReport) :
    ∃ calls, CloudAnchors.Run serde digest (fun _ _ => True)
      ⟨ledger, [⟨event, .filing reports⟩]⟩ calls
      ⟨ledger.recordConflicts event.tenantId reports, [⟨event, .weighed⟩]⟩ := by
  induction reports generalizing ledger with
  | nil => exact ⟨[.next 0 none], .cons trivial rfl (.nil _)⟩
  | cons report rest ih =>
    obtain ⟨calls, hcalls⟩ := ih (ledger.recordConflict event.tenantId report)
    exact ⟨.next 0 none :: calls, .cons trivial rfl hcalls⟩

/-- The calls of a weighing, one after another, do what the weighing does. -/
theorem AnchorLedger.run_weighAnchor (ledger : AnchorLedger)
    (event : EventEnvelope StoreChainAnchored) (window : Option (List (EventEnvelope RawPayload))) :
    ∃ calls, CloudAnchors.Run serde digest (fun _ _ => True) ⟨ledger, []⟩ calls
      ⟨ledger.weighAnchor serde digest event window, [⟨event, .weighed⟩]⟩ := by
  unfold weighAnchor
  cases hrefused : refusedEnvelope event with
  | some =>
    refine ⟨[.begin event], .cons trivial ?_ (.nil _)⟩
    simp [CloudAnchors.step, AnchorLedger.begin, hrefused]
  | none =>
    have hbegin : CloudAnchors.step serde digest ⟨ledger, []⟩ (.begin event) = ⟨ledger, [⟨event,
        .judging (ledger.heldFor event.tenantId event.storeId event.data.chainSeq)⟩]⟩ := by
      simp [CloudAnchors.step, AnchorLedger.begin, hrefused]
    generalize ledger.heldFor event.tenantId event.storeId event.data.chainSeq = held at *
    -- the second call, where it is the last
    have hlast : ∀ ledger', ledger.next serde digest event none (.judging held) =
          (ledger', .weighed) →
        ∃ calls, CloudAnchors.Run serde digest (fun _ _ => True) ⟨ledger, []⟩ calls
          ⟨ledger', [⟨event, .weighed⟩]⟩ := by
      intro ledger' hnext
      refine ⟨[.begin event, .next 0 none], .cons trivial (congrArg _ hbegin) ?_⟩
      refine .cons trivial ?_ (.nil _)
      simp [CloudAnchors.step, hnext]
    dsimp only
    cases hverdict : judge held event.offered with
    | forked => exact hlast _ (by simp [next, hverdict])
    | repeated => exact hlast _ (by simp [next, hverdict])
    | backfilled =>
      cases haccept : ledger.accept event.tenantId event.offered with
      | error e => exact hlast _ (by simp [next, hverdict, haccept])
      | ok kept => exact hlast _ (by simp [next, hverdict, haccept])
    | extended =>
      cases haccept : ledger.accept event.tenantId event.offered with
      | error e => exact hlast _ (by simp [next, hverdict, haccept])
      | ok kept =>
        obtain ⟨calls, hcalls⟩ := CloudAnchors.run_filing serde digest kept event
          (recomputeChain serde digest event held.head window)
        have hnext : CloudAnchors.step serde digest ⟨ledger, [⟨event, .judging held⟩]⟩
            (.next 0 none) = ⟨kept, [⟨event, .recomputing held.head⟩]⟩ := by
          simp [CloudAnchors.step, next, hverdict, haccept]
        exact ⟨.begin event :: .next 0 none :: .next 0 window :: calls,
          .cons trivial (congrArg _ hbegin) (.cons trivial (congrArg _ hnext)
            (.cons trivial rfl hcalls))⟩

end

/-! ## What a call does -/

/-- The length of which store an event anchors. -/
def EventEnvelope.place (event : EventEnvelope StoreChainAnchored) : TenantId × StoreId × Nat :=
  (event.tenantId, event.storeId, event.data.chainSeq)

/-- The row that keeps an event's anchor. -/
def EventEnvelope.row (event : EventEnvelope StoreChainAnchored) : AnchorRow :=
  ⟨event.tenantId, { event.offered with unchained := toI64 event.data.unchained }⟩

/-- Whether a weighing has read and not yet written. -/
def WeighPhase.isJudging : WeighPhase → Bool
  | .judging _ => true
  | .recomputing _ | .filing _ | .weighed => false

variable {phase : WeighPhase} {row : AnchorRow}

theorem WeighPhase.eq_judging (h : phase.isJudging = true) : ∃ held, phase = .judging held := by
  match phase, h with
  | .judging held, _ => exact ⟨held, rfl⟩

section

variable (serde : Serde) (digest : String → ChainHash) (ledger : AnchorLedger)
  (event : EventEnvelope StoreChainAnchored) (window : Option (List (EventEnvelope RawPayload)))
  {held : HeldAnchors}

theorem AnchorLedger.anchors_recordConflicts {tenant : TenantId} (reports : List ConflictReport) :
    (ledger.recordConflicts tenant reports).anchors = ledger.anchors := by
  induction reports generalizing ledger with
  | nil => rfl
  | cons report rest ih =>
    show ((ledger.recordConflict tenant report).recordConflicts tenant rest).anchors = _
    rw [ih, anchors_recordConflict]

/-- Where an anchor is held at the length, the weighing is over: a repetition writes nothing and
    another head is a conflict. -/
theorem AnchorLedger.next_of_held {anchor : StoreAnchor}
    (hheld : held.atOfferedLength = some anchor) :
    (anchor.head = event.data.chainHead ∧
      ledger.next serde digest event window (.judging held) = (ledger, .weighed)) ∨
    ∃ report : ConflictReport, report.store = event.storeId ∧
      ledger.next serde digest event window (.judging held) =
        (ledger.recordConflict event.tenantId report, .weighed) := by
  by_cases hhead : anchor.head = event.data.chainHead
  · have hverdict : judge held event.offered = .repeated := by
      simp only [judge, hheld]
      exact if_pos hhead
    refine .inl ⟨hhead, ?_⟩
    simp only [next, hverdict]
  · have hverdict : judge held event.offered = .forked anchor.head := by
      simp only [judge, hheld]
      exact if_neg hhead
    refine .inr ⟨⟨event.storeId, event.data.chainSeq, anchor.head, event.data.chainHead,
      event.eventId⟩, rfl, ?_⟩
    simp only [next, hverdict]

/-- Where none is held at the length, the anchor is recorded. -/
theorem AnchorLedger.next_of_free (hfits : event.data.chainSeq ≤ i64Max)
    (hheld : held.atOfferedLength = none) :
    ∃ phase : WeighPhase, phase.isJudging = false ∧
      ledger.next serde digest event window (.judging held) =
        (ledger.recordAnchor event.row, phase) := by
  have haccept : ledger.accept event.tenantId event.offered = .ok (ledger.recordAnchor event.row) :=
    if_neg (not_lt.2 hfits)
  have hverdict : judge held event.offered = .extended ∨
      judge held event.offered = .backfilled := by
    simp only [judge, hheld]
    cases held.head with
    | none => exact .inl rfl
    | some longest =>
      by_cases hle : event.offered.chainSeq ≤ longest.chainSeq
      · exact .inr (if_pos hle)
      · exact .inl (if_neg hle)
  rcases hverdict with hextended | hbackfilled
  · exact ⟨.recomputing held.head, rfl, by simp only [next, hextended, haccept]⟩
  · exact ⟨.weighed, rfl, by simp only [next, hbackfilled, haccept]⟩

/-- Once it has written, a weighing only files conflicts. -/
theorem AnchorLedger.next_of_decided (hphase : phase.isJudging = false) :
    ∃ reports phase', WeighPhase.isJudging phase' = false ∧
      ledger.next serde digest event window phase =
        (ledger.recordConflicts event.tenantId reports, phase') := by
  match phase, hphase with
  | .recomputing _, _ => exact ⟨[], _, rfl, rfl⟩
  | .filing [], _ => exact ⟨[], _, rfl, rfl⟩
  | .filing (report :: rest), _ => exact ⟨[report], _, rfl, rfl⟩
  | .weighed, _ => exact ⟨[], _, rfl, rfl⟩

/-- Whatever a weighing does next, it keeps the anchors that are held. -/
theorem AnchorLedger.mem_next (hrow : row ∈ ledger.anchors) :
    row ∈ (ledger.next serde digest event window phase).1.anchors := by
  cases hphase : phase.isJudging with
  | true =>
    obtain ⟨held, rfl⟩ := WeighPhase.eq_judging hphase
    cases hheld : held.atOfferedLength with
    | some =>
      rcases ledger.next_of_held serde digest event window hheld with
        ⟨_, hnext⟩ | ⟨report, _, hnext⟩
      · rw [hnext]
        exact hrow
      · rw [hnext, anchors_recordConflict]
        exact hrow
    | none =>
      by_cases hfits : event.data.chainSeq ≤ i64Max
      · obtain ⟨phase, _, hnext⟩ :=
          ledger.next_of_free serde digest event window hfits hheld
        rw [hnext]
        exact mem_recordAnchor hrow
      · have haccept : ledger.accept event.tenantId event.offered =
            .error ⟨"a chain_seq beyond i64 cannot be recorded"⟩ := if_pos (not_le.1 hfits)
        simp only [next, haccept]
        split
        · rw [anchors_recordConflict]
          exact hrow
        · exact hrow
        · exact hrow
        · exact hrow
  | false =>
    obtain ⟨reports, phase', _, hnext⟩ := ledger.next_of_decided serde digest event window hphase
    rw [hnext, anchors_recordConflicts]
    exact hrow

end

/-- A call replaces no head. -/
theorem CloudAnchors.mem_step {serde : Serde} {digest : String → ChainHash} {state : CloudAnchors}
    (call : WeighCall) (hrow : row ∈ state.ledger.anchors) :
    row ∈ (state.step serde digest call).ledger.anchors := by
  cases call with
  | begin event =>
    show row ∈ (state.ledger.begin event).1.anchors
    unfold AnchorLedger.begin
    split
    · rw [anchors_recordConflicts]
      exact hrow
    · exact hrow
  | next =>
    simp only [CloudAnchors.step]
    split
    · exact mem_next serde digest _ _ _ hrow
    · exact hrow

/-! ## Where no weighing overtakes another -/

/-- What is known of a weighing. One that has read knows the anchor that is held at its length,
    or any that has come since has its head. One that has written is held, or a conflict is
    recorded. -/
def Weighing.Known (ledger : AnchorLedger) (weighing : Weighing) : Prop :=
  let event := weighing.event
  let anchors := ledger.ofStore event.tenantId event.storeId
  match weighing.phase with
  | .judging held =>
    (∃ anchor ∈ anchors, held.atOfferedLength = some anchor ∧
      anchor.chainSeq = event.data.chainSeq) ∨
    (held.atOfferedLength = none ∧ ∀ anchor ∈ anchors,
      anchor.chainSeq = event.data.chainSeq → anchor.head = event.data.chainHead)
  | .recomputing _ | .filing _ | .weighed =>
    ledger.Conflicted event.tenantId event.storeId ∨
    ∃ anchor ∈ anchors, anchor.chainSeq = event.data.chainSeq ∧ anchor.head = event.data.chainHead

variable {ledger : AnchorLedger} {weighing : Weighing} {event : EventEnvelope StoreChainAnchored}

theorem Weighing.known_of_decided (hphase : weighing.phase.isJudging = false) :
    weighing.Known ledger ↔
      ledger.Conflicted weighing.event.tenantId weighing.event.storeId ∨
      ∃ anchor ∈ ledger.ofStore weighing.event.tenantId weighing.event.storeId,
        anchor.chainSeq = weighing.event.data.chainSeq ∧
        anchor.head = weighing.event.data.chainHead := by
  unfold Weighing.Known
  cases hcase : weighing.phase with
  | judging held =>
    rw [hcase] at hphase
    contradiction
  | recomputing _ | filing _ | weighed => exact Iff.rfl

theorem Weighing.Known.recordConflicts (h : weighing.Known ledger) (tenant : TenantId)
    (reports : List ConflictReport) :
    weighing.Known (ledger.recordConflicts tenant reports) := by
  have hstore : ∀ tenant' store, (ledger.recordConflicts tenant reports).ofStore tenant' store =
      ledger.ofStore tenant' store := by
    intro tenant' store
    unfold ofStore
    rw [anchors_recordConflicts]
  unfold Weighing.Known at h ⊢
  dsimp only at h ⊢
  rw [hstore]
  cases hphase : weighing.phase with
  | judging held =>
    simp only [hphase] at h ⊢
    exact h
  | recomputing _ | filing _ | weighed =>
    simp only [hphase] at h ⊢
    exact h.imp_left fun hbefore => conflicted_recordConflicts.2 (.inl hbefore)

/-- Recording an anchor is safe for a weighing that has written, and for one that has read if the
    two agree. -/
theorem Weighing.Known.recordAnchor (h : weighing.Known ledger)
    (hagree : weighing.phase.isJudging = true → weighing.event.place = event.place →
      weighing.event.data.chainHead = event.data.chainHead) :
    weighing.Known (ledger.recordAnchor event.row) := by
  have hkeep : ∀ {anchor tenant store}, anchor ∈ ledger.ofStore tenant store →
      anchor ∈ (ledger.recordAnchor event.row).ofStore tenant store := by
    intro anchor tenant store hanchor
    obtain ⟨hmem, hstore⟩ := mem_ofStore.1 hanchor
    exact mem_ofStore.2 ⟨mem_recordAnchor hmem, hstore⟩
  unfold Weighing.Known at h ⊢
  cases hphase : weighing.phase with
  | judging held =>
    simp only [hphase] at h ⊢
    rcases h with ⟨anchor, hmem, hheld, hseq⟩ | ⟨hheld, hothers⟩
    · exact .inl ⟨anchor, hkeep hmem, hheld, hseq⟩
    · refine .inr ⟨hheld, ?_⟩
      intro anchor hanchor hseq
      obtain ⟨hmem, hstore⟩ := mem_ofStore.1 hanchor
      rcases of_mem_recordAnchor hmem with hold | hnew
      · exact hothers anchor (mem_ofStore.2 ⟨hold, hstore⟩) hseq
      · -- the anchor recorded now is of the place this weighing has read
        have htenant : weighing.event.tenantId = event.tenantId := congrArg AnchorRow.tenant hnew
        have hanchor' : anchor = event.row.anchor := congrArg AnchorRow.anchor hnew
        subst hanchor'
        refine (hagree (by rw [hphase]; rfl) ?_).symm
        unfold EventEnvelope.place
        rw [htenant, ← hstore, ← hseq]
        rfl
  | recomputing _ | filing _ | weighed =>
    simp only [hphase] at h ⊢
    rcases h with hconflict | ⟨anchor, hmem, hkept⟩
    · exact .inl ((conflicted_recordAnchor _).2 hconflict)
    · exact .inr ⟨anchor, hkeep hmem, hkept⟩

/-- Weighings of which no two that have read, and not written, disagree about a length. -/
structure CloudAnchors.Orderly (state : CloudAnchors) : Prop where
  fits : ∀ weighing ∈ state.weighings, weighing.event.data.chainSeq ≤ i64Max
  agree : ∀ first ∈ state.weighings, ∀ second ∈ state.weighings,
    first.phase.isJudging = true → second.phase.isJudging = true →
    first.event.place = second.event.place →
    first.event.data.chainHead = second.event.data.chainHead
  known : ∀ weighing ∈ state.weighings, weighing.Known state.ledger

/-- Every anchor passes the check of its envelope, and its length can be stored. -/
def WeighCall.Admitted : WeighCall → Prop
  | .begin event => refusedEnvelope event = none ∧ event.data.chainSeq ≤ i64Max
  | .next _ _ => True

/-- No anchor is read for while one of its length with another head has been read for and not
    written. -/
def CloudAnchors.Apart (state : CloudAnchors) : WeighCall → Prop
  | .begin event => ∀ weighing ∈ state.weighings, weighing.phase.isJudging = true →
      weighing.event.place = event.place → weighing.event.data.chainHead = event.data.chainHead
  | .next _ _ => True

section

variable {serde : Serde} {digest : String → ChainHash} {state : CloudAnchors} {i : Nat}
  {weighing : Weighing} {phase : WeighPhase} {ledger : AnchorLedger}

theorem CloudAnchors.Orderly.begin (h : state.Orderly)
    (hadmitted : (WeighCall.begin event).Admitted) (hapart : state.Apart (.begin event)) :
    (state.step serde digest (.begin event)).Orderly := by
  obtain ⟨hrefused, hfits⟩ := hadmitted
  have hstep : state.step serde digest (.begin event) = ⟨state.ledger, state.weighings ++
      [⟨event,
        .judging (state.ledger.heldFor event.tenantId event.storeId event.data.chainSeq)⟩]⟩ := by
    simp only [CloudAnchors.step, AnchorLedger.begin, hrefused]
  rw [hstep]
  refine ⟨?_, ?_, ?_⟩
  · intro weighing hmem
    rcases mem_append.1 hmem with hold | hnew
    · exact h.fits weighing hold
    · obtain rfl := mem_singleton.1 hnew
      exact hfits
  · intro first hfirst second hsecond hjudging hjudging' hplace
    rcases mem_append.1 hfirst with hold | hnew
    · rcases mem_append.1 hsecond with hold' | hnew'
      · exact h.agree first hold second hold' hjudging hjudging' hplace
      · obtain rfl := mem_singleton.1 hnew'
        exact hapart first hold hjudging hplace
    · obtain rfl := mem_singleton.1 hnew
      rcases mem_append.1 hsecond with hold' | hnew'
      · exact (hapart second hold' hjudging' hplace.symm).symm
      · obtain rfl := mem_singleton.1 hnew'
        rfl
  · intro weighing hmem
    rcases mem_append.1 hmem with hold | hnew
    · exact h.known weighing hold
    · obtain rfl := mem_singleton.1 hnew
      -- what was read is what is held
      unfold Weighing.Known
      dsimp only
      cases hheld : (state.ledger.heldFor event.tenantId event.storeId
          event.data.chainSeq).atOfferedLength with
      | some anchor =>
        obtain ⟨hanchor, hseq⟩ := mem_of_atOfferedLength hheld
        exact .inl ⟨anchor, hanchor, rfl, hseq⟩
      | none =>
        refine .inr ⟨rfl, ?_⟩
        intro anchor hanchor hseq
        exact absurd hseq (not_mem_of_atOfferedLength hfits hheld hanchor)

/-- A weighing that goes on, in a state where what the others know is still so. -/
theorem CloudAnchors.Orderly.set (h : state.Orderly)
    (hget : state.weighings[i]? = some weighing) (hphase : phase.isJudging = false)
    (hothers : ∀ other ∈ state.weighings, other.Known ledger)
    (hknown : Weighing.Known ledger ⟨weighing.event, phase⟩) :
    CloudAnchors.Orderly ⟨ledger, state.weighings.set i ⟨weighing.event, phase⟩⟩ := by
  have hmem := mem_of_getElem? hget
  refine ⟨?_, ?_, ?_⟩
  · intro other hother
    rcases mem_or_eq_of_mem_set hother with hold | rfl
    · exact h.fits other hold
    · exact h.fits weighing hmem
  · intro first hfirst second hsecond hjudging hjudging' hplace
    rcases mem_or_eq_of_mem_set hfirst with hold | rfl
    · rcases mem_or_eq_of_mem_set hsecond with hold' | rfl
      · exact h.agree first hold second hold' hjudging hjudging' hplace
      · rw [hphase] at hjudging'
        contradiction
    · rw [hphase] at hjudging
      contradiction
  · intro other hother
    rcases mem_or_eq_of_mem_set hother with hold | rfl
    · exact hothers other hold
    · exact hknown

theorem CloudAnchors.step_next (hget : state.weighings[i]? = some weighing)
    (window : Option (List (EventEnvelope RawPayload)))
    (hnext : state.ledger.next serde digest weighing.event window weighing.phase =
      (ledger, phase)) :
    state.step serde digest (.next i window) =
      ⟨ledger, state.weighings.set i ⟨weighing.event, phase⟩⟩ := by
  simp only [CloudAnchors.step, hget, hnext]

/-- An anchor that is recorded where none is held at its length. -/
theorem CloudAnchors.Orderly.record (h : state.Orderly) (hget : state.weighings[i]? = some weighing)
    (hjudging : weighing.phase.isJudging = true)
    (hothers : ∀ anchor ∈ state.ledger.ofStore weighing.event.tenantId weighing.event.storeId,
      anchor.chainSeq = weighing.event.data.chainSeq → anchor.head = weighing.event.data.chainHead)
    (hphase : phase.isJudging = false) :
    CloudAnchors.Orderly ⟨state.ledger.recordAnchor weighing.event.row,
      state.weighings.set i ⟨weighing.event, phase⟩⟩ := by
  have hmem := mem_of_getElem? hget
  refine h.set hget hphase ?_ ?_
  · intro other hother
    refine (h.known other hother).recordAnchor ?_
    intro hother' hplace
    exact h.agree other hother weighing hmem hother' hjudging hplace
  · rw [Weighing.known_of_decided hphase]
    -- the row of this length is this weighing's, or has come with the same head
    obtain ⟨⟨tenant, anchor⟩, hrow, hkey⟩ := state.ledger.key_mem_recordAnchor weighing.event.row
    obtain ⟨rfl, hkey⟩ := Prod.mk.inj hkey
    obtain ⟨hstore, hseq⟩ := Prod.mk.inj hkey
    refine .inr ⟨anchor, mem_ofStore.2 ⟨hrow, hstore⟩, hseq, ?_⟩
    rcases of_mem_recordAnchor hrow with hold | hnew
    · exact hothers anchor (mem_ofStore.2 ⟨hold, hstore⟩) hseq
    · exact congrArg (fun row => row.anchor.head) hnew

theorem CloudAnchors.Orderly.next (h : state.Orderly) (i : Nat)
    (window : Option (List (EventEnvelope RawPayload))) :
    (state.step serde digest (.next i window)).Orderly := by
  cases hget : state.weighings[i]? with
  | none =>
    have hstep : state.step serde digest (.next i window) = state := by
      simp only [CloudAnchors.step, hget]
    rw [hstep]
    exact h
  | some weighing =>
    have hmem := mem_of_getElem? hget
    have hknown := h.known weighing hmem
    cases hphase : weighing.phase.isJudging with
    | true =>
      obtain ⟨held, hheld⟩ := WeighPhase.eq_judging hphase
      have hread := hknown
      unfold Weighing.Known at hread
      simp only [hheld] at hread
      rcases hread with ⟨anchor, hanchor, hat, hseq⟩ | ⟨hat, hothers⟩
      · rcases state.ledger.next_of_held serde digest weighing.event window hat with
          ⟨hhead, hnext⟩ | ⟨report, hreport, hnext⟩
        · rw [CloudAnchors.step_next hget window (hheld ▸ hnext)]
          exact h.set hget rfl h.known (.inr ⟨anchor, hanchor, hseq, hhead⟩)
        · rw [CloudAnchors.step_next hget window (hheld ▸ hnext)]
          refine h.set hget rfl (fun other hother =>
            (h.known other hother).recordConflicts weighing.event.tenantId [report]) (.inl ?_)
          exact conflicted_recordConflict.2 (.inr ⟨rfl, hreport⟩)
      · obtain ⟨phase, hdecided, hnext⟩ :=
          state.ledger.next_of_free serde digest weighing.event window (h.fits weighing hmem) hat
        rw [CloudAnchors.step_next hget window (hheld ▸ hnext)]
        exact h.record hget hphase hothers hdecided
    | false =>
      obtain ⟨reports, phase, hdecided, hnext⟩ :=
        state.ledger.next_of_decided serde digest weighing.event window hphase
      rw [CloudAnchors.step_next hget window hnext]
      have hkept := hknown.recordConflicts weighing.event.tenantId reports
      rw [Weighing.known_of_decided hphase] at hkept
      exact h.set hget hdecided (fun other hother => (h.known other hother).recordConflicts _ _)
        ((Weighing.known_of_decided hdecided).2 hkept)

theorem CloudAnchors.Orderly.step (h : state.Orderly) (call : WeighCall) (hadmitted : call.Admitted)
    (hapart : state.Apart call) :
    (state.step serde digest call).Orderly := by
  cases call with
  | begin => exact h.begin hadmitted hapart
  | next i window => exact h.next i window

/-- A run replaces no head. -/
theorem CloudAnchors.mem_run {allowed : CloudAnchors → WeighCall → Prop} {state' : CloudAnchors}
    {calls : List WeighCall} (hrun : CloudAnchors.Run serde digest allowed state calls state')
    (hrow : row ∈ state.ledger.anchors) : row ∈ state'.ledger.anchors := by
  refine hrun.invariant (I := fun state => row ∈ state.ledger.anchors) ?_ hrow
  intro s call s' hs _ hstep
  cases hstep
  exact CloudAnchors.mem_step call hs

end

/-- A head is held for a length, or none; it stays; and of two that were weighed at one length a
    conflict is recorded, where no anchor is read for while another head of its length has been read
    for and not written. -/
theorem CloudAnchors.two_heads_are_noticed (serde : Serde) (digest : String → ChainHash)
    (ledger : AnchorLedger) (calls : List WeighCall) (state : CloudAnchors)
    (hrun : CloudAnchors.Run serde digest (fun state call => call.Admitted ∧ state.Apart call)
      ⟨ledger, []⟩ calls state) :
    (∀ tenant store, ∀ first ∈ state.ledger.ofStore tenant store,
      ∀ second ∈ state.ledger.ofStore tenant store, first.chainSeq = second.chainSeq →
      first = second) ∧
    (∀ row ∈ ledger.anchors, row ∈ state.ledger.anchors) ∧
    (∀ calls' state', CloudAnchors.Run serde digest (fun _ call => call.Admitted) state calls'
      state' → ∀ row ∈ state.ledger.anchors, row ∈ state'.ledger.anchors) ∧
    ∀ first ∈ state.weighings, ∀ second ∈ state.weighings,
      first.phase = .weighed → second.phase = .weighed → first.event.place = second.event.place →
      first.event.data.chainHead ≠ second.event.data.chainHead →
      state.ledger.Conflicted first.event.tenantId first.event.storeId := by
  have horderly : state.Orderly := by
    refine hrun.invariant (I := CloudAnchors.Orderly) ?_ ⟨?_, ?_, ?_⟩
    · intro s call s' hs hallowed hstep
      cases hstep
      exact hs.step call hallowed.1 hallowed.2
    · intro weighing hmem
      contradiction
    · intro first hfirst
      contradiction
    · intro weighing hmem
      contradiction
  refine ⟨?_, ?_, ?_, ?_⟩
  · intro tenant store first hfirst second hsecond hseq
    exact eq_of_chainSeq hfirst hsecond hseq
  · intro row hrow
    exact CloudAnchors.mem_run hrun hrow
  · intro calls' state' hlater row hrow
    exact CloudAnchors.mem_run hlater hrow
  · intro first hfirst second hsecond hweighed hweighed' hplace hheads
    obtain ⟨htenant, hplace⟩ := Prod.mk.inj hplace
    obtain ⟨hstore, hseq⟩ := Prod.mk.inj hplace
    have hone := (Weighing.known_of_decided (by rw [hweighed]; rfl)).1 (horderly.known first hfirst)
    have htwo :=
      (Weighing.known_of_decided (by rw [hweighed']; rfl)).1 (horderly.known second hsecond)
    rw [← htenant, ← hstore] at htwo
    rcases hone with hconflict | ⟨anchor, hanchor, hlength, hhead⟩
    · exact hconflict
    · rcases htwo with hconflict | ⟨anchor', hanchor', hlength', hhead'⟩
      · exact hconflict
      · -- both would be the one anchor of the length
        obtain rfl := eq_of_chainSeq hanchor hanchor'
          (hlength.trans (hseq.trans hlength'.symm))
        exact absurd (hhead.symm.trans hhead') hheads

/-! ## Two anchors that cross -/

/-- An anchor of a store's chain of two records. -/
def sampleAnchor (n : Nat) (head : String) : EventEnvelope StoreChainAnchored :=
  { sampleEvent n sampleJson with data := ⟨2, ⟨head⟩, 0⟩ }

/-- Two anchors of one length are read for, and then both are written; of neither is a record at
    that length in the window. -/
def crossingCalls : List WeighCall :=
  [.begin (sampleAnchor 1 "aa"), .begin (sampleAnchor 2 "bb"), .next 0 none, .next 1 none,
    .next 0 (some []), .next 1 (some []), .next 0 none, .next 1 none]

/-- The second head is dropped, and nothing says so. -/
theorem CloudAnchors.second_head_is_dropped :
    ∃ state, CloudAnchors.Run .sample textDigest (fun _ call => call.Admitted) ⟨.empty, []⟩
        crossingCalls state ∧
      state.weighings = [⟨sampleAnchor 1 "aa", .weighed⟩, ⟨sampleAnchor 2 "bb", .weighed⟩] ∧
      state.ledger.anchors = [(sampleAnchor 1 "aa").row] ∧ state.ledger.conflicts = [] := by
  refine ⟨_, run_of_allAllowed ?_, ?_, ?_, ?_⟩
  · exact ⟨⟨rfl, by decide⟩, ⟨rfl, by decide⟩, trivial, trivial, trivial, trivial, trivial,
      trivial, trivial⟩
  · decide
  · decide
  · decide

/-- The same two anchors, one after the other. -/
def successiveCalls : List WeighCall :=
  [.begin (sampleAnchor 1 "aa"), .next 0 none, .begin (sampleAnchor 2 "bb"), .next 1 none,
    .next 0 (some []), .next 0 none]

theorem successiveCalls_apart : AllAllowed (CloudAnchors.step .sample textDigest)
    (fun state call => call.Admitted ∧ state.Apart call) ⟨.empty, []⟩ successiveCalls := by
  refine ⟨⟨⟨rfl, by decide⟩, ?_⟩, ⟨trivial, trivial⟩, ⟨⟨rfl, by decide⟩, ?_⟩, ⟨trivial, trivial⟩,
    ⟨trivial, trivial⟩, ⟨trivial, trivial⟩, trivial⟩
  · intro weighing hmem
    contradiction
  · intro weighing hmem hjudging
    obtain rfl := mem_singleton.1 hmem
    exact absurd hjudging (by decide)

/-- Then the second is noticed. -/
theorem CloudAnchors.two_heads_are_noticed_sample :
    (successiveCalls.foldl (CloudAnchors.step .sample textDigest) ⟨.empty, []⟩).ledger.Conflicted
      (sampleAnchor 1 "aa").tenantId (sampleAnchor 1 "aa").storeId :=
  (CloudAnchors.two_heads_are_noticed .sample textDigest .empty successiveCalls _
    (run_of_allAllowed successiveCalls_apart)).2.2.2
    ⟨sampleAnchor 1 "aa", .weighed⟩ (by decide) ⟨sampleAnchor 2 "bb", .weighed⟩
      (by decide) rfl rfl rfl
    (by decide)

end PosFramework
