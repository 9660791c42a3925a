import PosFramework.Cloud.Anchors
import PosFramework.Cloud.ChainAudit.Honest

set_option autoImplicit false

/-! # From one anchor to the next

When an anchor moves a store's head, the cloud recomputes the chain of the records between the two
lengths. Each is compared with the one before it in the window, and the last with the new head; the
first has none before it in the window, and is not compared with the head that was held. -/

namespace PosFramework

open AnchorLedger List ChainFinding

section

variable (serde : Serde) (digest : String → ChainHash) (record : Nat → EventEnvelope RawPayload)
  (toSeq : Nat) (head : ChainHash)

/-- What a record of a window is expected to hash to: what the next links to, or the head. -/
def expectedHash (seq : Nat) : Option ChainHash :=
  if seq = toSeq then some head else (record (seq + 1)).chain.map (·.prevHash)

/-- The records past a length continue the chain that has a head there, to a head of their own. -/
structure ContinuesFrom (fromSeq : Nat) (heldHead : ChainHash) : Prop where
  first : (record (fromSeq + 1)).chain.map (·.prevHash) = some heldHead
  hashed : ∀ seq, fromSeq < seq → seq ≤ toSeq → ∀ link expected,
    (record seq).chain = some link → expectedHash record toSeq head seq = some expected →
    HashesAs serde digest (record seq) link expected

/-- Some record past a length does not hash to what is expected of it. -/
def SomeBroken (fromSeq : Nat) : Prop :=
  ∃ seq, fromSeq < seq ∧ seq ≤ toSeq ∧ ∃ link expected, (record seq).chain = some link ∧
    expectedHash record toSeq head seq = some expected ∧
    hashesTo serde digest (record seq) link expected ≠ .ok ()

end

/-- A window holds exactly one record at each position past a length. -/
def HoldsEach (window : List (EventEnvelope RawPayload)) (fromSeq toSeq : Nat)
    (record : Nat → EventEnvelope RawPayload) : Prop :=
  ∀ seq, fromSeq < seq → seq ≤ toSeq → window.filter (·.isAt seq) = [record seq]

section

variable {serde : Serde} {digest : String → ChainHash} {record : Nat → EventEnvelope RawPayload}
  {fromSeq toSeq seq : Nat} {head : ChainHash} {window : List (EventEnvelope RawPayload)}
  {forks : List ChainFinding} {held : Positions} {event : EventEnvelope RawPayload}
  {link : ChainLink}

theorem HashesAs.writable
    {expected : ChainHash} (h : HashesAs serde digest event link expected) :
    (serde.value event.data).isSome := by
  rcases h with hheld | hstamped
  · have hsome : (event.chainHash serde digest link).isSome := by
      rw [hheld]
      rfl
    rw [isSome_chainHash] at hsome
    exact hsome
  · have hsome : (event.published.chainHash serde digest link).isSome := by
      rw [hstamped]
      rfl
    rw [isSome_chainHash] at hsome
    exact hsome

/-! ## The window -/

theorem HoldsEach.mem (h : HoldsEach window fromSeq toSeq record) (hfrom : fromSeq < seq)
    (hto : seq ≤ toSeq) :
    record seq ∈ window ∧ ∃ link, (record seq).chain = some link ∧ link.seq = seq := by
  have hmem : record seq ∈ window.filter (·.isAt seq) := by
    rw [h seq hfrom hto]
    exact mem_singleton_self _
  obtain ⟨hmem, hat⟩ := mem_filter.1 hmem
  exact ⟨hmem, isAt_iff.1 hat⟩

theorem HoldsEach.eq (h : HoldsEach window fromSeq toSeq record)
    (hevent : event ∈ window) (hlink : event.chain = some link)
    (hfrom : fromSeq < link.seq) (hto : link.seq ≤ toSeq) : event = record link.seq := by
  have hmem : event ∈ window.filter (·.isAt link.seq) :=
    mem_filter.2 ⟨hevent, isAt_iff.2 ⟨link, hlink, rfl⟩⟩
  rw [h link.seq hfrom hto] at hmem
  exact mem_singleton.1 hmem

theorem HoldsEach.exists_expected (h : HoldsEach window fromSeq toSeq record) (head : ChainHash)
    (hfrom : fromSeq < seq) (hto : seq ≤ toSeq) :
    ∃ expected, expectedHash record toSeq head seq = some expected := by
  unfold expectedHash
  by_cases hlast : seq = toSeq
  · exact ⟨head, if_pos hlast⟩
  · have hafter : fromSeq < seq + 1 := Nat.lt_succ_of_lt hfrom
    obtain ⟨_, next, hnext, _⟩ := h.mem hafter (by omega)
    exact ⟨next.prevHash, by rw [if_neg hlast, hnext]; rfl⟩

/-- Where a window holds one record at each position, there is no fork and they are what is
    indexed. -/
theorem HoldsEach.indexed (h : HoldsEach window fromSeq toSeq record)
    (hindexed : Indexed window (fromSeq + 1) toSeq forks held) :
    forks = [] ∧ ∀ seq, fromSeq < seq → seq ≤ toSeq → held[seq]? = some (record seq) := by
  constructor
  · by_contra hforks
    obtain ⟨first, hfirst, second, hsecond, link, link', hlink, hlink', hseq, hother, hfrom, hto⟩ :=
      hindexed.forked hforks
    have hone := h.eq hfirst hlink hfrom hto
    have htwo := h.eq hsecond hlink' (hseq ▸ hfrom) (hseq ▸ hto)
    rw [← hseq] at htwo
    exact hother (congrArg EventEnvelope.eventId (hone.trans htwo.symm))
  · intro seq hfrom hto
    obtain ⟨hmem, link, hlink, rfl⟩ := h.mem hfrom hto
    obtain ⟨kept, hkept, _⟩ := hindexed.complete _ hmem link hlink hfrom hto
    obtain ⟨hkeptMem, _, _, link', hlink', hseq⟩ := hindexed.sound _ kept hkept
    rw [hkept, h.eq hkeptMem hlink' (hseq ▸ hfrom) (hseq ▸ hto), hseq]

/-- The links and the head are found to hold unless some record is broken. -/
theorem HoldsEach.checks_hold (h : HoldsEach window fromSeq toSeq record)
    (hindexed : Indexed window (fromSeq + 1) toSeq forks held) :
    (walkLinks serde digest held = [] ∧ headFinding serde digest held toSeq head = none) ↔
      ¬ SomeBroken serde digest record toSeq head fromSeq := by
  obtain ⟨_, hheld⟩ := h.indexed hindexed
  rw [walkLinks_eq_nil_iff, headFinding_eq_none_iff]
  constructor
  · rintro ⟨hlinks, hhead⟩ ⟨seq, hfrom, hto, link, expected, hlink, hexpected, hbroken⟩
    unfold expectedHash at hexpected
    split at hexpected
    · next hlast =>
      obtain rfl := Option.some.inj hexpected
      subst hlast
      exact hbroken (hhead _ link (hheld seq hfrom hto) hlink)
    · obtain ⟨next, hnext, rfl⟩ := Option.map_eq_some_iff.1 hexpected
      exact hbroken (hlinks seq _ _ next link (hheld (seq + 1) (by omega) (by omega))
        (hheld seq hfrom hto) hnext hlink)
  · intro hnone
    -- what is not broken is as expected
    have hok : ∀ seq, fromSeq < seq → seq ≤ toSeq → ∀ link expected,
        (record seq).chain = some link → expectedHash record toSeq head seq = some expected →
        hashesTo serde digest (record seq) link expected = .ok () := by
      intro seq hfrom hto link expected hlink hexpected
      by_contra hbroken
      exact hnone ⟨seq, hfrom, hto, link, expected, hlink, hexpected, hbroken⟩
    constructor
    · intro seq event previous link previousLink hevent hprevious hlink hpreviousLink
      obtain ⟨_, _, hto, _⟩ := hindexed.sound _ event hevent
      obtain ⟨_, hfrom, _, _⟩ := hindexed.sound _ previous hprevious
      have hevent' := hheld (seq + 1) (by omega) hto
      have hprevious' := hheld seq hfrom (by omega)
      obtain rfl := Option.some.inj (hevent.symm.trans hevent')
      obtain rfl := Option.some.inj (hprevious.symm.trans hprevious')
      refine hok seq hfrom (by omega) previousLink link.prevHash hpreviousLink ?_
      unfold expectedHash
      rw [if_neg (by omega), hlink]
      rfl
    · intro event link hevent hlink
      obtain ⟨_, hfrom, hto, _⟩ := hindexed.sound _ event hevent
      obtain rfl := Option.some.inj (hevent.symm.trans (hheld toSeq hfrom hto))
      exact hok toSeq hfrom hto link head hlink (if_pos rfl)

theorem gapFinding_isTampering {finding : ChainFinding}
    (h : gapFinding held fromSeq toSeq = some finding) : finding.isTampering = false := by
  unfold gapFinding at h
  dsimp only at h
  split at h
  · contradiction
  · rw [← Option.some.inj h]
    rfl

/-- An audit of such a window accuses where a record is broken, and says so. -/
theorem HoldsEach.audit (serde : Serde) (digest : String → ChainHash) (head : ChainHash)
    (h : HoldsEach window fromSeq toSeq record) (hlt : fromSeq < toSeq)
    (hcap : toSeq - fromSeq ≤ maxWindow) :
    ((auditWindow serde digest window (fromSeq + 1) toSeq head).foundTampering = true ↔
      SomeBroken serde digest record toSeq head fromSeq) ∧
    ((auditWindow serde digest window (fromSeq + 1) toSeq head).found = 0 →
      (auditWindow serde digest window (fromSeq + 1) toSeq head).findings = []) := by
  obtain ⟨forks, held, hindexed, _, hsomething⟩ :=
    auditWindow_eq serde digest window head (Nat.succ_le_of_lt hlt)
      (by omega : toSeq - (fromSeq + 1) + 1 ≤ maxWindow)
  obtain ⟨hforks, hheld⟩ := h.indexed hindexed
  have hne : held ≠ ∅ := by
    rintro rfl
    have hsome := hheld toSeq hlt le_rfl
    simp at hsome
  obtain ⟨hfindings, hfound⟩ := hsomething hne
  constructor
  · unfold ChainAudit.foundTampering
    rw [hfindings, any_take_auditFindings hindexed, ← not_iff_not, ← h.checks_hold hindexed]
    unfold auditFindings
    rw [hforks, nil_append, any_append, Bool.or_eq_true, not_or]
    have hgap : ¬ ((gapFinding held (fromSeq + 1) toSeq).toList.any
        isTampering = true) := by
      rw [any_eq_true]
      rintro ⟨finding, hmem, haccuses⟩
      rw [gapFinding_isTampering (Option.mem_toList.1 hmem)] at haccuses
      contradiction
    constructor
    · rintro ⟨_, hchecks⟩
      rw [← Option.toList_eq_nil_iff, ← append_eq_nil_iff, eq_nil_iff_forall_not_mem]
      intro finding hmem
      exact hchecks (any_eq_true.2 ⟨finding, hmem, mem_checks_isTampering hmem⟩)
    · rintro ⟨hlinks, hhead⟩
      refine ⟨hgap, ?_⟩
      rw [hlinks, hhead]
      exact Bool.false_ne_true
  · intro hzero
    rw [hfindings, hfound.1 hzero]
    rfl

end

/-! ## The weighing -/

section

variable {serde : Serde} {digest : String → ChainHash} {event : EventEnvelope StoreChainAnchored}

theorem ChainFinding.report?_store {finding : ChainFinding} {report : ConflictReport}
    (h : finding.report? event = some report) : report.store = event.storeId := by
  cases finding with
  | forked =>
    rw [← Option.some.inj h]
  | brokenLink =>
    rw [← Option.some.inj h]
  | incomplete _ _ | unverified _ => contradiction

theorem ChainFinding.report?_isSome (event : EventEnvelope StoreChainAnchored)
    {finding : ChainFinding} (h : finding.isTampering = true) :
    ∃ report, finding.report? event = some report := by
  cases finding with
  | forked => exact ⟨_, rfl⟩
  | brokenLink => exact ⟨_, rfl⟩
  | incomplete _ _ | unverified _ => contradiction

/-- Recomputing files a conflict of the store where a record of the window is broken. -/
theorem HoldsEach.recomputeChain {window : List (EventEnvelope RawPayload)} {previous : StoreAnchor}
    {record : Nat → EventEnvelope RawPayload}
    (h : HoldsEach window previous.chainSeq event.data.chainSeq record)
    (hlt : previous.chainSeq < event.data.chainSeq) (hfits : event.data.chainSeq ≤ i64Max)
    (hcap : event.data.chainSeq - previous.chainSeq ≤ maxWindow) :
    (∃ report ∈ recomputeChain serde digest event (some previous) (some window),
      report.store = event.storeId) ↔
    SomeBroken serde digest record event.data.chainSeq event.data.chainHead previous.chainSeq := by
  have hstart : windowStart event (some previous) = previous.chainSeq + 1 := by
    have hlimit := i64Max_lt_u64Max
    show min (u64SaturatingAdd previous.chainSeq 1) event.data.chainSeq = _
    unfold u64SaturatingAdd
    omega
  obtain ⟨htampering, hnothing⟩ := h.audit serde digest event.data.chainHead hlt hcap
  rw [← htampering]
  unfold PosFramework.recomputeChain
  dsimp only
  rw [hstart]
  constructor
  · rintro ⟨report, hreport, _⟩
    split at hreport
    · contradiction
    · obtain ⟨finding, hfinding, _⟩ := mem_filterMap.1 hreport
      obtain ⟨hmem, haccuses⟩ := mem_filter.1 hfinding
      exact any_eq_true.2 ⟨finding, hmem, haccuses⟩
  · intro hfound
    obtain ⟨finding, hmem, haccuses⟩ := any_eq_true.1 hfound
    rw [if_neg (fun hzero => by rw [hnothing hzero] at hmem; contradiction)]
    obtain ⟨report, hreport⟩ := report?_isSome event haccuses
    exact ⟨report, mem_filterMap.2 ⟨finding, mem_filter.2 ⟨hmem, haccuses⟩, hreport⟩,
      report?_store hreport⟩

end

/-- An anchor that is longer than the longest of its store is kept, and its window recomputed. -/
theorem AnchorLedger.weighAnchor_of_longer (serde : Serde) (digest : String → ChainHash)
    {ledger : AnchorLedger} {event : EventEnvelope StoreChainAnchored} {previous : StoreAnchor}
    (hrefused : refusedEnvelope event = none)
    (hprevious : previous ∈ ledger.ofStore event.tenantId event.storeId)
    (hlongest : ∀ anchor ∈ ledger.ofStore event.tenantId event.storeId,
      anchor.chainSeq ≤ previous.chainSeq)
    (hlt : previous.chainSeq < event.data.chainSeq) (hfits : event.data.chainSeq ≤ i64Max)
    (window : Option (List (EventEnvelope RawPayload))) :
    ∃ kept : AnchorLedger, ledger.accept event.tenantId event.offered = .ok kept ∧
      kept.conflicts = ledger.conflicts ∧
      ledger.weighAnchor serde digest event window =
        kept.recordConflicts event.tenantId
          (recomputeChain serde digest event (some previous) window) := by
  have hheld := heldFor_of_longest hfits hprevious hlongest hlt
  have hverdict : judge ⟨some previous, none⟩ event.offered = .extended :=
    if_neg (Nat.not_le.2 hlt)
  have haccept : ledger.accept event.tenantId event.offered = .ok (ledger.recordAnchor
      ⟨event.tenantId, { event.offered with unchained := toI64 event.data.unchained }⟩) :=
    if_neg (Nat.not_lt.2 hfits)
  refine ⟨_, haccept, conflicts_recordAnchor _, ?_⟩
  simp only [weighAnchor, hrefused, hheld, hverdict, haccept]

/-- After an anchor has moved a store's head past the one that was held, the records between them
    continue the chain from one head to the other or a conflict of the store is recorded, just where
    the first record links to the head that was held and every record can be written, or one of them
    does not hash to what is expected of it, or a conflict was recorded before. -/
theorem AnchorLedger.moved_head_continues_iff (serde : Serde) (digest : String → ChainHash)
    (ledger : AnchorLedger) (event : EventEnvelope StoreChainAnchored) (previous : StoreAnchor)
    (window : List (EventEnvelope RawPayload)) (record : Nat → EventEnvelope RawPayload)
    (hrefused : refusedEnvelope event = none)
    (hprevious : previous ∈ ledger.ofStore event.tenantId event.storeId)
    (hlongest : ∀ anchor ∈ ledger.ofStore event.tenantId event.storeId,
      anchor.chainSeq ≤ previous.chainSeq)
    (hlt : previous.chainSeq < event.data.chainSeq) (hfits : event.data.chainSeq ≤ i64Max)
    (hcap : event.data.chainSeq - previous.chainSeq ≤ maxWindow)
    (hwindow : HoldsEach window previous.chainSeq event.data.chainSeq record) :
    (ContinuesFrom serde digest record event.data.chainSeq event.data.chainHead previous.chainSeq
        previous.head ∨
      (ledger.weighAnchor serde digest event (some window)).Conflicted event.tenantId
        event.storeId) ↔
    (((record (previous.chainSeq + 1)).chain.map (·.prevHash) = some previous.head ∧
        ∀ seq, previous.chainSeq < seq → seq ≤ event.data.chainSeq →
          (serde.value (record seq).data).isSome) ∨
      SomeBroken serde digest record event.data.chainSeq event.data.chainHead previous.chainSeq ∨
      ledger.Conflicted event.tenantId event.storeId) := by
  obtain ⟨kept, _, hconflicts, hweighed⟩ := weighAnchor_of_longer serde digest hrefused
    hprevious hlongest hlt hfits (some window)
  have hkept : kept.Conflicted event.tenantId event.storeId ↔
      ledger.Conflicted event.tenantId event.storeId := by
    rw [conflicted_iff, conflicted_iff, hconflicts]
  rw [hweighed, conflicted_recordConflicts, hkept, and_iff_right rfl,
    hwindow.recomputeChain hlt hfits hcap, or_comm (a := ledger.Conflicted _ _)]
  by_cases hbroken : SomeBroken serde digest record event.data.chainSeq event.data.chainHead
      previous.chainSeq
  · exact iff_of_true (.inr (.inl hbroken)) (.inr (.inl hbroken))
  refine or_congr_left ?_
  -- where no record is broken, one hashes as expected just where it can be written
  constructor
  · intro hcontinues
    refine ⟨hcontinues.first, ?_⟩
    intro seq hfrom hto
    obtain ⟨_, link, hlink, _⟩ := hwindow.mem hfrom hto
    obtain ⟨expected, hexpected⟩ := hwindow.exists_expected event.data.chainHead hfrom hto
    exact (hcontinues.hashed seq hfrom hto link expected hlink hexpected).writable
  · rintro ⟨hfirst, hwritable⟩
    refine ⟨hfirst, ?_⟩
    intro seq hfrom hto link expected hlink hexpected
    rw [← hashesTo_eq_ok (hwritable seq hfrom hto)]
    by_contra hwrong
    exact hbroken ⟨seq, hfrom, hto, link, expected, hlink, hexpected, hwrong⟩

/-! ## A log that was rewritten below its anchor -/

/-- What the cloud holds of a store's anchor at length one. -/
def firstAnchor : StoreAnchor := ⟨⟨9⟩, 1, sampleHead 1, 0, ⟨0⟩⟩

def oneAnchorLedger : AnchorLedger :=
  AnchorLedger.empty.recordAnchor ⟨⟨0⟩, firstAnchor⟩

/-- A second record, that links to some first one. -/
def secondRecord (first : ChainHash) : EventEnvelope RawPayload :=
  { sampleEvent 2 sampleJson with chain := some ⟨2, first⟩ }

/-- The anchor of a store's first records. -/
def chainedAnchor (seq : Nat) (head : ChainHash) : EventEnvelope StoreChainAnchored :=
  { sampleEvent (seq + 1) sampleJson with
    chain := some ⟨seq + 1, head⟩
    data := ⟨seq, head, 0⟩ }

/-- The second record links to another first one than the cloud holds the head of; the anchor is
    kept and no conflict is recorded. -/
theorem AnchorLedger.rewritten_border_is_unseen :
    let rewritten : ChainHash := ⟨"rewritten"⟩
    let event := chainedAnchor 2 (textDigest (preimage ⟨2, rewritten⟩ (sampleText 2)))
    Function.Injective textDigest ∧ refusedEnvelope event = none ∧
    oneAnchorLedger.ofStore event.tenantId event.storeId = [firstAnchor] ∧
    HoldsEach [secondRecord rewritten] firstAnchor.chainSeq event.data.chainSeq
      (fun _ => secondRecord rewritten) ∧
    ¬ ContinuesFrom .sample textDigest (fun _ => secondRecord rewritten) event.data.chainSeq
      event.data.chainHead firstAnchor.chainSeq firstAnchor.head ∧
    ¬ (oneAnchorLedger.weighAnchor .sample textDigest event
      (some [secondRecord rewritten])).Conflicted event.tenantId event.storeId := by
  refine ⟨textDigest_injective, by decide +kernel, by decide +kernel, ?_, ?_, by decide +kernel⟩
  · intro seq hfrom hto
    obtain rfl : seq = 2 := le_antisymm hto hfrom
    rfl
  · intro hcontinues
    exact absurd hcontinues.first (by decide +kernel)

/-- An honest second and third record continue the chain. -/
theorem AnchorLedger.moved_head_continues_sample :
    ContinuesFrom .sample textDigest (chainedSample · sampleJson) 3 (sampleHead 3) 1
        (sampleHead 1) ∨
      (oneAnchorLedger.weighAnchor .sample textDigest (chainedAnchor 3 (sampleHead 3))
        (some [chainedSample 2 sampleJson, chainedSample 3 sampleJson])).Conflicted ⟨0⟩ ⟨9⟩ := by
  refine (moved_head_continues_iff .sample textDigest oneAnchorLedger
    (chainedAnchor 3 (sampleHead 3)) firstAnchor _ (chainedSample · sampleJson)
    (by decide +kernel) ?_ ?_ (by decide) (by decide) (by decide) ?_).2
    (.inl ⟨rfl, fun _ _ _ => rfl⟩)
  · exact mem_singleton_self _
  · intro anchor hanchor
    change anchor ∈ oneAnchorLedger.ofStore ⟨0⟩ ⟨9⟩ at hanchor
    rw [mem_singleton.1 hanchor]
  · intro seq hfrom hto
    obtain rfl | rfl : seq = 2 ∨ seq = 3 := by
      change 1 < seq at hfrom
      change seq ≤ 3 at hto
      omega
    · rfl
    · rfl

end PosFramework
