import PosFramework.Cloud.ChainAudit
import PosFramework.Store.Writer

set_option autoImplicit false

/-! # The anchor ledger

At every shift close a store publishes the length and the head of its chain. The cloud keeps one
head for a length and refuses another, and when a head moves it recomputes the chain between the two
lengths. -/

namespace PosFramework

open List ChainFinding

/-- What a store publishes of its chain. -/
structure StoreChainAnchored where
  chainSeq : Nat
  chainHead : ChainHash
  unchained : Nat
deriving DecidableEq

/-- A store's chain as it stood at a shift close. -/
structure StoreAnchor where
  store : StoreId
  chainSeq : Nat
  head : ChainHash
  unchained : Nat
  observedAt : Timestamp
deriving DecidableEq

/-- The anchor that an event offers. -/
def EventEnvelope.offered (event : EventEnvelope StoreChainAnchored) : StoreAnchor where
  store := event.storeId
  chainSeq := event.data.chainSeq
  head := event.data.chainHead
  unchained := event.data.unchained
  observedAt := event.eventTime

/-- What is held that bears on an offered anchor: the longest, and the one of its length. -/
structure HeldAnchors where
  head : Option StoreAnchor
  atOfferedLength : Option StoreAnchor
deriving DecidableEq

/-- What an offered anchor is to those held. -/
inductive AnchorVerdict
  /-- Longer than any that is held. -/
  | extended
  /-- One that is held already. -/
  | repeated
  /-- A late one of a length that was not held. -/
  | backfilled
  /-- Another head than the one that is held for the length. -/
  | forked (held : ChainHash)

/-- An offered anchor, against those held. -/
def judge (held : HeldAnchors) (offered : StoreAnchor) : AnchorVerdict :=
  match held.atOfferedLength with
  | some sameLength => if sameLength.head = offered.head then .repeated else .forked sameLength.head
  | none =>
    match held.head with
    | some longest => if offered.chainSeq ≤ longest.chainSeq then .backfilled else .extended
    | none => .extended

/-- Two heads at one length. -/
structure ConflictReport where
  store : StoreId
  chainSeq : Nat
  heldHead : ChainHash
  offeredHead : ChainHash
  offeredEventId : EventId
deriving DecidableEq

/-! ## The ledger -/

structure AnchorRow where
  tenant : TenantId
  anchor : StoreAnchor
deriving DecidableEq

/-- The primary key of an anchor. -/
def AnchorRow.key (row : AnchorRow) : TenantId × StoreId × Nat :=
  (row.tenant, row.anchor.store, row.anchor.chainSeq)

structure ConflictRow where
  tenant : TenantId
  report : ConflictReport

/-- What the id of a conflict is derived from. -/
def ConflictRow.key (row : ConflictRow) : TenantId × StoreId × Nat × ChainHash × ChainHash :=
  (row.tenant, row.report.store, row.report.chainSeq, row.report.heldHead, row.report.offeredHead)

/-- The anchors that are kept, of which no two have one key, and the conflicts that were noticed. -/
structure AnchorLedger where
  anchors : List AnchorRow
  conflicts : List ConflictRow
  distinct : (anchors.map AnchorRow.key).Nodup

structure AnchorError where
  message : String

namespace AnchorLedger

variable (ledger : AnchorLedger)

def empty : AnchorLedger := ⟨[], [], List.nodup_nil⟩

/-- The anchors of a store. -/
def ofStore (tenant : TenantId) (store : StoreId) : List StoreAnchor :=
  (ledger.anchors.filter fun row => row.tenant = tenant ∧ row.anchor.store = store).map
    AnchorRow.anchor

/-- The conflicts of a store. -/
def conflictsOf (tenant : TenantId) (store : StoreId) : List ConflictRow :=
  ledger.conflicts.filter fun row => row.tenant = tenant ∧ row.report.store = store

/-- Take a row of the query for what is held. One row can be both. -/
def holdRow (chainSeq : Nat) (held : HeldAnchors) (anchor : StoreAnchor) : HeldAnchors where
  atOfferedLength := if anchor.chainSeq = chainSeq then some anchor else held.atOfferedLength
  head :=
    match held.head with
    | some longest => if longest.chainSeq < anchor.chainSeq then some anchor else some longest
    | none => some anchor

/-- What is held of a store that bears on an anchor of a length: one query, for the row of that
    length and for the longest. -/
def heldFor (tenant : TenantId) (store : StoreId) (chainSeq : Nat) : HeldAnchors :=
  if i64Max < chainSeq then ⟨none, none⟩
  else
    let anchors := ledger.ofStore tenant store
    (anchors.filter fun anchor => anchor.chainSeq = chainSeq ∨
      ∀ other ∈ anchors, other.chainSeq ≤ anchor.chainSeq).foldl (holdRow chainSeq) ⟨none, none⟩

theorem distinct_concat {ledger : AnchorLedger} {row : AnchorRow}
    (h : row.key ∉ ledger.anchors.map AnchorRow.key) :
    ((ledger.anchors ++ [row]).map AnchorRow.key).Nodup := by
  rw [map_append, map_singleton, nodup_append]
  refine ⟨ledger.distinct, nodup_singleton _, ?_⟩
  rintro key hkey _ hrow rfl
  rw [mem_singleton.1 hrow] at hkey
  exact h hkey

/-- Insert an anchor; where its key is taken, nothing happens. -/
def recordAnchor (row : AnchorRow) : AnchorLedger :=
  if h : row.key ∈ ledger.anchors.map AnchorRow.key then ledger
  else { ledger with anchors := ledger.anchors ++ [row], distinct := distinct_concat h }

/-- Keep an anchor. -/
def accept (tenant : TenantId) (anchor : StoreAnchor) : Except AnchorError AnchorLedger :=
  if i64Max < anchor.chainSeq then .error ⟨"a chain_seq beyond i64 cannot be recorded"⟩
  else .ok (ledger.recordAnchor ⟨tenant, { anchor with unchained := toI64 anchor.unchained }⟩)

/-- Insert a conflict; one that is there already is not inserted again. -/
def recordConflict (tenant : TenantId) (report : ConflictReport) : AnchorLedger :=
  let row : ConflictRow := ⟨tenant, report⟩
  if row.key ∈ ledger.conflicts.map ConflictRow.key then ledger
  else { ledger with conflicts := ledger.conflicts ++ [row] }

/-- Record one conflict after another. -/
def recordConflicts (tenant : TenantId) (reports : List ConflictReport) : AnchorLedger :=
  reports.foldl (fun ledger report => ledger.recordConflict tenant report) ledger

end AnchorLedger

/-! ## Weighing an anchor -/

/-- Whether an anchor agrees with its envelope. -/
inductive EnvelopeCheck
  | consistent
  | unchained
  | impossibleLength (envelopeSeq claimedSeq : Nat)
  | headMismatch (linked claimed : ChainHash)

/-- Check an anchor against its own envelope. A sale can land between the two, so it is only where
    they are adjacent that the anchor links to the head it claims. -/
def checkEnvelope (link : Option ChainLink) (claimedSeq : Nat) (claimedHead : ChainHash) :
    EnvelopeCheck :=
  match link with
  | none => .unchained
  | some link =>
    if link.seq ≤ claimedSeq then .impossibleLength link.seq claimedSeq
    else if link.seq = u64SaturatingAdd claimedSeq 1 ∧ link.prevHash ≠ claimedHead then
      .headMismatch link.prevHash claimedHead
    else .consistent

/-- What a failed check of an envelope records; `none` where the anchor may be judged. -/
def refusedEnvelope (event : EventEnvelope StoreChainAnchored) : Option (Option ConflictReport) :=
  match checkEnvelope event.chain event.data.chainSeq event.data.chainHead with
  | .consistent | .unchained => none
  | .impossibleLength _ _ => some none
  | .headMismatch linked claimed =>
    some (some ⟨event.storeId, event.data.chainSeq, linked, claimed, event.eventId⟩)

/-- The conflict that a finding of tampering is filed as. -/
def ChainFinding.report? (event : EventEnvelope StoreChainAnchored) :
    ChainFinding → Option ConflictReport
  | .forked seq _ second firstHash secondHash =>
    some ⟨event.storeId, seq, firstHash, secondHash, second⟩
  | .brokenLink seq declared computed =>
    some ⟨event.storeId, seq, computed, declared, event.eventId⟩
  | .incomplete _ _ | .unverified _ => none

/-- Where the window of an anchor begins: past the anchor that was the longest before. -/
def windowStart (event : EventEnvelope StoreChainAnchored) (previous : Option StoreAnchor) : Nat :=
  min ((previous.map fun anchor => u64SaturatingAdd anchor.chainSeq 1).getD 1) event.data.chainSeq

section

variable (serde : Serde) (digest : String → ChainHash)

/-- Recompute the chain of the window that an anchor closes: the conflicts to file. A window that
    cannot be read is not recomputed. -/
def recomputeChain (event : EventEnvelope StoreChainAnchored) (previous : Option StoreAnchor)
    (window : Option (List (EventEnvelope RawPayload))) : List ConflictReport :=
  match window with
  | none => []
  | some events =>
    let audit := auditWindow serde digest events (windowStart event previous) event.data.chainSeq
      event.data.chainHead
    if audit.found = 0 then []
    else (audit.findings.filter isTampering).filterMap (report? event)

/-- Judge an anchor against what is held, and act on the verdict. -/
def AnchorLedger.weighAnchor (ledger : AnchorLedger) (event : EventEnvelope StoreChainAnchored)
    (window : Option (List (EventEnvelope RawPayload))) : AnchorLedger :=
  match refusedEnvelope event with
  | some report => ledger.recordConflicts event.tenantId report.toList
  | none =>
    let held := ledger.heldFor event.tenantId event.storeId event.data.chainSeq
    match judge held event.offered with
    | .forked heldHead =>
      ledger.recordConflict event.tenantId
        ⟨event.storeId, event.data.chainSeq, heldHead, event.data.chainHead, event.eventId⟩
    | .repeated => ledger
    | .backfilled =>
      match ledger.accept event.tenantId event.offered with
      | .error _ => ledger
      | .ok kept => kept
    | .extended =>
      match ledger.accept event.tenantId event.offered with
      | .error _ => ledger
      | .ok kept =>
        kept.recordConflicts event.tenantId
          (recomputeChain serde digest event held.head window)

end

/-! ## What the ledger's calls do -/

namespace AnchorLedger

variable {ledger : AnchorLedger} {tenant other : TenantId} {store : StoreId} {anchor : StoreAnchor}
  {report : ConflictReport} {chainSeq : Nat} {held : HeldAnchors} {row : ConflictRow}

theorem mem_ofStore : anchor ∈ ledger.ofStore tenant store ↔
    (⟨tenant, anchor⟩ : AnchorRow) ∈ ledger.anchors ∧ anchor.store = store := by
  unfold ofStore
  rw [mem_map]
  constructor
  · rintro ⟨row, hrow, rfl⟩
    obtain ⟨hmem, hkey⟩ := mem_filter.1 hrow
    obtain ⟨rfl, rfl⟩ := of_decide_eq_true hkey
    exact ⟨hmem, rfl⟩
  · rintro ⟨hmem, rfl⟩
    exact ⟨_, mem_filter.2 ⟨hmem, decide_eq_true ⟨rfl, rfl⟩⟩, rfl⟩

/-- A store has one anchor of a length. -/
theorem eq_of_chainSeq {first second : StoreAnchor} (hfirst : first ∈ ledger.ofStore tenant store)
    (hsecond : second ∈ ledger.ofStore tenant store) (hseq : first.chainSeq = second.chainSeq) :
    first = second := by
  obtain ⟨hfirst, hstore⟩ := mem_ofStore.1 hfirst
  obtain ⟨hsecond, hstore'⟩ := mem_ofStore.1 hsecond
  have hkey : (⟨tenant, first⟩ : AnchorRow).key = (⟨tenant, second⟩ : AnchorRow).key := by
    unfold AnchorRow.key
    rw [hstore, hstore', hseq]
  have hrows := inj_on_of_nodup_map ledger.distinct hfirst hsecond hkey
  exact congrArg AnchorRow.anchor hrows

@[simp] theorem anchors_recordConflict (report : ConflictReport) :
    (ledger.recordConflict tenant report).anchors = ledger.anchors := by
  unfold recordConflict
  dsimp only
  split <;> rfl

@[simp] theorem conflicts_recordAnchor (row : AnchorRow) :
    (ledger.recordAnchor row).conflicts = ledger.conflicts := by
  unfold recordAnchor
  split <;> rfl

theorem mem_recordAnchor {row other : AnchorRow} (h : other ∈ ledger.anchors) :
    other ∈ (ledger.recordAnchor row).anchors := by
  unfold recordAnchor
  split
  · exact h
  · exact mem_append_left _ h

theorem of_mem_recordAnchor {row other : AnchorRow}
    (h : other ∈ (ledger.recordAnchor row).anchors) :
    other ∈ ledger.anchors ∨ other = row := by
  unfold recordAnchor at h
  split at h
  · exact .inl h
  · rcases mem_append.1 h with hold | hnew
    · exact .inl hold
    · exact .inr (mem_singleton.1 hnew)

theorem key_mem_recordAnchor (row : AnchorRow) :
    ∃ other ∈ (ledger.recordAnchor row).anchors, other.key = row.key := by
  unfold recordAnchor
  split
  next hkey =>
    obtain ⟨other, hother, hsame⟩ := mem_map.1 hkey
    exact ⟨other, hother, hsame⟩
  next => exact ⟨row, mem_append_right _ (mem_singleton_self row), rfl⟩

theorem mem_recordConflict (h : row ∈ ledger.conflicts) :
    row ∈ (ledger.recordConflict tenant report).conflicts := by
  unfold recordConflict
  dsimp only
  split
  · exact h
  · exact mem_append_left _ h

theorem of_mem_recordConflict
    (h : row ∈ (ledger.recordConflict tenant report).conflicts) :
    row ∈ ledger.conflicts ∨ row = ⟨tenant, report⟩ := by
  unfold recordConflict at h
  dsimp only at h
  split at h
  · exact .inl h
  · rcases mem_append.1 h with hold | hnew
    · exact .inl hold
    · exact .inr (mem_singleton.1 hnew)

/-- Whether a conflict of a store has been recorded. -/
def Conflicted (ledger : AnchorLedger) (tenant : TenantId) (store : StoreId) : Prop :=
  ledger.conflictsOf tenant store ≠ []

instance (ledger : AnchorLedger) (tenant : TenantId) (store : StoreId) :
    Decidable (ledger.Conflicted tenant store) :=
  inferInstanceAs (Decidable (_ ≠ _))

theorem conflicted_iff : ledger.Conflicted tenant store ↔
    ∃ row ∈ ledger.conflicts, row.tenant = tenant ∧ row.report.store = store := by
  unfold Conflicted conflictsOf
  rw [ne_eq, filter_eq_nil_iff]
  push Not
  constructor
  · rintro ⟨row, hrow, hkey⟩
    exact ⟨row, hrow, of_decide_eq_true hkey⟩
  · rintro ⟨row, hrow, hkey⟩
    exact ⟨row, hrow, decide_eq_true hkey⟩

/-- A conflict that is recorded is there, now or from before. -/
theorem conflicted_recordConflict :
    (ledger.recordConflict other report).Conflicted tenant store ↔
      ledger.Conflicted tenant store ∨ (other = tenant ∧ report.store = store) := by
  rw [conflicted_iff, conflicted_iff]
  constructor
  · rintro ⟨row, hrow, hkey⟩
    rcases of_mem_recordConflict hrow with hold | rfl
    · exact .inl ⟨row, hold, hkey⟩
    · exact .inr hkey
  · rintro (⟨row, hrow, hkey⟩ | ⟨rfl, rfl⟩)
    · exact ⟨row, mem_recordConflict hrow, hkey⟩
    · unfold recordConflict
      dsimp only
      split
      next hkey =>
        obtain ⟨row, hrow, hsame⟩ := mem_map.1 hkey
        exact ⟨row, hrow, congrArg (·.1) hsame, congrArg (·.2.1) hsame⟩
      next => exact ⟨_, mem_append_right _ (mem_singleton_self _), rfl, rfl⟩

theorem conflicted_recordConflicts {reports : List ConflictReport} :
    (ledger.recordConflicts other reports).Conflicted tenant store ↔
      ledger.Conflicted tenant store ∨
      (other = tenant ∧ ∃ report ∈ reports, report.store = store) := by
  induction reports generalizing ledger with
  | nil => simp [recordConflicts]
  | cons report rest ih =>
    show ((ledger.recordConflict other report).recordConflicts other rest).Conflicted _ _ ↔ _
    rw [ih, conflicted_recordConflict]
    simp only [mem_cons, exists_eq_or_imp]
    tauto

@[simp] theorem conflicted_recordAnchor (row : AnchorRow) :
    (ledger.recordAnchor row).Conflicted tenant store ↔ ledger.Conflicted tenant store := by
  rw [conflicted_iff, conflicted_iff, conflicts_recordAnchor]

/-! ## What is held -/

theorem holdRow_atOfferedLength_eq_none {row : StoreAnchor} :
    (holdRow chainSeq held row).atOfferedLength = none ↔
      row.chainSeq ≠ chainSeq ∧ held.atOfferedLength = none := by
  unfold holdRow
  dsimp only
  split
  next hseq => exact ⟨fun h => absurd h (Option.some_ne_none _), fun h => absurd hseq h.1⟩
  next hseq => exact ⟨fun h => ⟨hseq, h⟩, fun h => h.2⟩

/-- No row is held at an offered length where none of the rows has that length. -/
theorem foldl_holdRow_eq_none (rows : List StoreAnchor) (held : HeldAnchors) :
    (rows.foldl (holdRow chainSeq) held).atOfferedLength = none ↔
      (∀ anchor ∈ rows, anchor.chainSeq ≠ chainSeq) ∧ held.atOfferedLength = none := by
  induction rows generalizing held with
  | nil => simp
  | cons row rest ih =>
    rw [foldl_cons, ih, holdRow_atOfferedLength_eq_none]
    simp only [mem_cons, forall_eq_or_imp]
    tauto

/-- A row that is held at an offered length is one of the rows, and has that length. -/
theorem mem_of_foldl_holdRow {rows : List StoreAnchor}
    (h : (rows.foldl (holdRow chainSeq) held).atOfferedLength = some anchor) :
    held.atOfferedLength = some anchor ∨ anchor ∈ rows ∧ anchor.chainSeq = chainSeq := by
  induction rows generalizing held with
  | nil => exact .inl h
  | cons row rest ih =>
    rcases ih h with hheld | ⟨hmem, hseq⟩
    · unfold holdRow at hheld
      dsimp only at hheld
      split at hheld
      next hseq =>
        obtain rfl := Option.some.inj hheld
        exact .inr ⟨mem_cons_self, hseq⟩
      next => exact .inl hheld
    · exact .inr ⟨mem_cons_of_mem _ hmem, hseq⟩

/-- The anchor that is held at an offered length is a store's anchor of that length. -/
theorem mem_of_atOfferedLength
    (h : (ledger.heldFor tenant store chainSeq).atOfferedLength = some anchor) :
    anchor ∈ ledger.ofStore tenant store ∧ anchor.chainSeq = chainSeq := by
  unfold heldFor at h
  split at h
  · contradiction
  · rcases mem_of_foldl_holdRow h with hnone | ⟨hmem, hseq⟩
    · contradiction
    · exact ⟨(mem_filter.1 hmem).1, hseq⟩

/-- Where none is held at an offered length, there is none. -/
theorem not_mem_of_atOfferedLength (hfits : chainSeq ≤ i64Max)
    (h : (ledger.heldFor tenant store chainSeq).atOfferedLength = none)
    (hanchor : anchor ∈ ledger.ofStore tenant store) : anchor.chainSeq ≠ chainSeq := by
  unfold heldFor at h
  rw [if_neg (not_lt.2 hfits)] at h
  intro hseq
  exact ((foldl_holdRow_eq_none _ _).1 h).1 anchor
    (mem_filter.2 ⟨hanchor, decide_eq_true (.inl hseq)⟩) hseq

/-- Where a store's longest anchor is shorter than an offered one, it is the head that is held and
    none is held at the offered length. -/
theorem heldFor_of_longest (hfits : chainSeq ≤ i64Max) {longest : StoreAnchor}
    (hmem : longest ∈ ledger.ofStore tenant store)
    (hlongest : ∀ anchor ∈ ledger.ofStore tenant store, anchor.chainSeq ≤ longest.chainSeq)
    (hlonger : longest.chainSeq < chainSeq) :
    ledger.heldFor tenant store chainSeq = ⟨some longest, none⟩ := by
  unfold heldFor
  rw [if_neg (not_lt.2 hfits)]
  dsimp only
  -- the query answers the longest alone
  have hall : ∀ anchor ∈ (ledger.ofStore tenant store).filter (fun anchor =>
      anchor.chainSeq = chainSeq ∨ ∀ other ∈ ledger.ofStore tenant store,
        other.chainSeq ≤ anchor.chainSeq), anchor = longest := by
    intro anchor hanchor
    obtain ⟨hanchor, hselected⟩ := mem_filter.1 hanchor
    have hshorter := hlongest anchor hanchor
    rcases of_decide_eq_true hselected with hseq | hmax
    · omega
    · exact eq_of_chainSeq hanchor hmem (le_antisymm hshorter (hmax longest hmem))
  have hsome : longest ∈ (ledger.ofStore tenant store).filter (fun anchor =>
      anchor.chainSeq = chainSeq ∨ ∀ other ∈ ledger.ofStore tenant store,
        other.chainSeq ≤ anchor.chainSeq) :=
    mem_filter.2 ⟨hmem, decide_eq_true (.inr hlongest)⟩
  have hreplicate := eq_replicate_of_mem hall
  rw [hreplicate] at hsome ⊢
  have hnonzero := (mem_replicate.1 hsome).1
  obtain ⟨n, hn⟩ := Nat.exists_eq_succ_of_ne_zero hnonzero
  rw [hn, replicate_succ, foldl_cons]
  have hfirst : holdRow chainSeq ⟨none, none⟩ longest = ⟨some longest, none⟩ := by
    unfold holdRow
    rw [if_neg (Nat.ne_of_lt hlonger)]
  have hagain : holdRow chainSeq ⟨some longest, none⟩ longest = ⟨some longest, none⟩ := by
    unfold holdRow
    simp [Nat.ne_of_lt hlonger]
  rw [hfirst]
  clear hn hnonzero hsome hreplicate
  induction n with
  | zero => rfl
  | succ n ih =>
    rw [replicate_succ, foldl_cons, hagain]
    exact ih

end AnchorLedger

end PosFramework
