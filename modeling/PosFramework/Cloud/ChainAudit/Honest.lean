import PosFramework.Cloud.ChainAudit.Proofs
import PosFramework.Store.Walk

set_option autoImplicit false

/-! # Whom an audit accuses

An honest store's chain, of which the cloud holds some records, each stamped with an owner: the
audit accuses nobody, and says what is missing. The other way round, an audit of a whole window
against the store's own head that finds nothing has found the store's own records. -/

namespace PosFramework

open HashChain List Function EventEnvelope

variable {serde : Serde} {digest : String → ChainHash}

/-- The records of a store since its first, with no owner. -/
structure StoreChain (serde : Serde) (digest : String → ChainHash)
    (rows : List ChainRow) : Prop where
  linked : Linked (chainLinks serde digest) 0 .genesis rows
  published : ∀ row ∈ rows, ∀ event, row.envelope = some event →
    event.chain = some row.link ∧ event.tenantId = ⟨0⟩ ∧ event.brandId = ⟨0⟩

/-- A record of a store's chain, as the cloud holds it: stamped with some owner. -/
def HeldFrom (rows : List ChainRow) (held : EventEnvelope RawPayload) : Prop :=
  ∃ row ∈ rows, ∃ event tenantId brandId, row.envelope = some event ∧
    held = { event with tenantId := tenantId, brandId := brandId }

/-- Whether an event stands at a position. -/
def EventEnvelope.isAt (event : EventEnvelope RawPayload) (seq : Nat) : Bool :=
  event.chain.any fun link => decide (link.seq = seq)

/-- The positions of a window at which no event stands. -/
def missingFrom (window : List (EventEnvelope RawPayload)) (fromSeq toSeq : Nat) : List Nat :=
  (List.range' fromSeq (toSeq + 1 - fromSeq)).filter fun seq => !window.any (·.isAt seq)

variable {event event : EventEnvelope RawPayload} {seq fromSeq toSeq seq : Nat}
  {rows : List ChainRow} {window : List (EventEnvelope RawPayload)} {head : ChainRow}

theorem isAt_iff : event.isAt seq = true ↔ ∃ link, event.chain = some link ∧ link.seq = seq := by
  unfold isAt
  rw [Option.any_eq_true]
  constructor
  · rintro ⟨link, hlink, hseq⟩
    exact ⟨link, hlink, of_decide_eq_true hseq⟩
  · rintro ⟨link, hlink, hseq⟩
    exact ⟨link, hlink, decide_eq_true hseq⟩

/-! ## A record that is held -/

/-- What the cloud knows of a record of an honest chain. -/
theorem HeldFrom.known (hchain : StoreChain serde digest rows) {held : EventEnvelope RawPayload}
    (h : HeldFrom rows held) :
    ∃ row ∈ rows, held.chain = some row.link ∧
      (∃ event, row.envelope = some event ∧ event.eventId = held.eventId) ∧
      (serde.value held.data).isSome ∧
      HashesAs serde digest held row.link row.columns.hash := by
  obtain ⟨row, hrow, event, tenantId, brandId, hstored, rfl⟩ := h
  obtain ⟨hlink, htenant, hbrand⟩ := hchain.published row hrow event hstored
  obtain ⟨event', hstored', hhash⟩ := hchain.linked.sound_of_mem hrow
  obtain rfl : event = event' := Option.some.inj (hstored.symm.trans hstored')
  refine ⟨row, hrow, hlink, ⟨event, hstored, rfl⟩, ?_, .inr ?_⟩
  · have hwritten : (event.chainHash serde digest row.link).isSome := by
      rw [hhash]
      rfl
    rw [isSome_chainHash] at hwritten
    exact hwritten
  · have hpublished : published
        { event with tenantId := tenantId, brandId := brandId } = event := by
      unfold published
      rw [← htenant, ← hbrand]
    rw [hpublished]
    exact hhash

/-! ## The honest store -/

section

variable {rows : List ChainRow} {window : List (EventEnvelope RawPayload)} {fromSeq toSeq : Nat}
  {forks : List ChainFinding} {held : Positions}

/-- What the index holds of an honest chain. -/
theorem Indexed.known (h : Indexed window fromSeq toSeq forks held)
    (hchain : StoreChain serde digest rows) (hwindow : ∀ event ∈ window, HeldFrom rows event)
    (hevent : held[seq]? = some event) :
    ∃ row ∈ rows, row.seq = seq ∧ event.chain = some row.link ∧
      (serde.value event.data).isSome ∧
      HashesAs serde digest event row.link row.columns.hash := by
  obtain ⟨hmem, _, _, link, hlink, hseq⟩ := h.sound seq event hevent
  obtain ⟨row, hrow, hrowLink, _, hwritable, hhash⟩ := (hwindow event hmem).known hchain
  refine ⟨row, hrow, ?_, hrowLink, hwritable, hhash⟩
  rw [← hseq]
  rw [hlink] at hrowLink
  exact (congrArg ChainLink.seq (Option.some.inj hrowLink)).symm

/-- Two records at one position of an honest chain are one. -/
theorem Indexed.forks_eq_nil (h : Indexed window fromSeq toSeq forks held)
    (hchain : StoreChain serde digest rows) (hwindow : ∀ event ∈ window, HeldFrom rows event) :
    forks = [] := by
  by_contra hforks
  obtain ⟨first, hfirst, second, hsecond, link, link', hlink, hlink', hseq, hother, _⟩ :=
    h.forked hforks
  obtain ⟨row, hrow, hrowLink, ⟨event, hstored, hid⟩, _⟩ := (hwindow first hfirst).known hchain
  obtain ⟨row', hrow', hrowLink', ⟨event', hstored', hid'⟩, _⟩ :=
    (hwindow second hsecond).known hchain
  rw [hlink] at hrowLink
  rw [hlink'] at hrowLink'
  have hseqs : row.seq = row'.seq := by
    rw [Option.some.inj hrowLink, Option.some.inj hrowLink'] at hseq
    exact hseq
  obtain rfl := hchain.linked.eq_of_seq hrow hrow' hseqs
  obtain rfl : event = event' := Option.some.inj (hstored.symm.trans hstored')
  exact hother (hid.symm.trans hid')

/-- No link of an honest chain is broken. -/
theorem Indexed.walkLinks_eq_nil (h : Indexed window fromSeq toSeq forks held)
    (hchain : StoreChain serde digest rows) (hwindow : ∀ event ∈ window, HeldFrom rows event) :
    walkLinks serde digest held = [] := by
  rw [walkLinks_eq_nil_iff]
  intro seq event previous link previousLink hevent hprevious hlink hpreviousLink
  obtain ⟨row, hrow, hseq, hrowLink, _⟩ := h.known hchain hwindow hevent
  obtain ⟨row', hrow', hseq', hrowLink', hwritable, hhash⟩ := h.known hchain hwindow hprevious
  obtain rfl : row.link = link := Option.some.inj (hrowLink.symm.trans hlink)
  obtain rfl : row'.link = previousLink := Option.some.inj (hrowLink'.symm.trans hpreviousLink)
  have hprev : row.columns.prevHash = row'.columns.hash := by
    refine hchain.linked.prev_eq hrow' hrow ?_
    show row.seq = row'.seq + 1
    omega
  rw [hashesTo_eq_ok hwritable]
  show HashesAs serde digest previous row'.link row.columns.prevHash
  rw [hprev]
  exact hhash

/-- The head of an honest chain is what its record hashes to. -/
theorem Indexed.headFinding_eq_none (h : Indexed window fromSeq toSeq forks held)
    (hchain : StoreChain serde digest rows) (hwindow : ∀ event ∈ window, HeldFrom rows event)
    (hhead : head ∈ rows) (hto : head.seq = toSeq) :
    headFinding serde digest held toSeq head.columns.hash = none := by
  rw [headFinding_eq_none_iff]
  intro event link hevent hlink
  obtain ⟨row, hrow, hseq, hrowLink, hwritable, hhash⟩ := h.known hchain hwindow hevent
  obtain rfl : row.link = link := Option.some.inj (hrowLink.symm.trans hlink)
  obtain rfl := hchain.linked.eq_of_seq hrow hhead (hseq.trans hto.symm)
  exact (hashesTo_eq_ok hwritable).2 hhash

/-- What is missing of the index is what is missing of the window. -/
theorem Indexed.missing_eq (h : Indexed window fromSeq toSeq forks held) :
    held.missing fromSeq toSeq = missingFrom window fromSeq toSeq := by
  refine filter_congr fun seq hseq => ?_
  rw [mem_range'_1] at hseq
  congr 1
  rw [Bool.eq_iff_iff, Std.ExtTreeMap.contains_iff_mem, ← Std.ExtTreeMap.isSome_getElem?_iff_mem,
    Option.isSome_iff_exists, any_eq_true]
  constructor
  · rintro ⟨event, hevent⟩
    obtain ⟨hmem, _, _, hlink⟩ := h.sound seq event hevent
    exact ⟨event, hmem, isAt_iff.2 hlink⟩
  · rintro ⟨event, hmem, hat⟩
    obtain ⟨link, hlink, rfl⟩ := isAt_iff.1 hat
    obtain ⟨kept, hkept, _⟩ := h.complete event hmem link hlink hseq.1 (by omega)
    exact ⟨kept, hkept⟩

theorem Indexed.ne_empty (h : Indexed window fromSeq toSeq forks held)
    (hfrom : fromSeq ≤ seq) (hto : seq ≤ toSeq) (hheld : seq ∉ missingFrom window fromSeq toSeq) :
    held ≠ ∅ := by
  rintro rfl
  rw [← h.missing_eq, mem_missing] at hheld
  exact hheld ⟨hfrom, hto, by simp⟩

/-- The gap an audit reports, in terms of the window. -/
theorem Indexed.gapFinding_eq (h : Indexed window fromSeq toSeq forks held) (hle : fromSeq ≤ toSeq)
    (hcap : toSeq - fromSeq + 1 ≤ maxWindow) :
    gapFinding held fromSeq toSeq = (missingFrom window fromSeq toSeq).head?.map fun lowest =>
      .incomplete lowest (missingFrom window fromSeq toSeq).length := by
  rw [PosFramework.gapFinding_eq hle hcap fun seq hseq => h.inside hseq, h.missing_eq]

end

/-- The audit of an honest chain. -/
theorem audit_of_honest (hchain : StoreChain serde digest rows)
    (hwindow : ∀ event ∈ window, HeldFrom rows event) (hle : fromSeq ≤ toSeq)
    (hcap : toSeq - fromSeq + 1 ≤ maxWindow) (hhead : head ∈ rows) (hto : head.seq = toSeq) :
    (auditWindow serde digest window fromSeq toSeq head.columns.hash).foundTampering = false ∧
    ∀ seq, fromSeq ≤ seq → seq ≤ toSeq → seq ∉ missingFrom window fromSeq toSeq →
      (auditWindow serde digest window fromSeq toSeq head.columns.hash).findings =
        ((missingFrom window fromSeq toSeq).head?.map fun lowest =>
          .incomplete lowest (missingFrom window fromSeq toSeq).length).toList := by
  obtain ⟨forks, held, hindexed, hnothing, hsomething⟩ :=
    auditWindow_eq serde digest window head.columns.hash hle hcap
  have hall : auditFindings serde digest forks held fromSeq toSeq head.columns.hash =
      ((missingFrom window fromSeq toSeq).head?.map fun lowest =>
        .incomplete lowest (missingFrom window fromSeq toSeq).length).toList := by
    unfold auditFindings
    rw [hindexed.forks_eq_nil hchain hwindow, hindexed.walkLinks_eq_nil hchain hwindow,
      hindexed.headFinding_eq_none hchain hwindow hhead hto, hindexed.gapFinding_eq hle hcap]
    simp
  have htake : (auditFindings serde digest forks held fromSeq toSeq head.columns.hash).take
      maxFindings = auditFindings serde digest forks held fromSeq toSeq head.columns.hash := by
    refine take_of_length_le ?_
    rw [hall]
    exact le_trans Option.length_toList_le (by decide)
  constructor
  · by_cases hempty : held = ∅
    · rw [hnothing hempty]
      rfl
    · unfold ChainAudit.foundTampering
      rw [(hsomething hempty).1, htake, hall]
      cases (missingFrom window fromSeq toSeq).head? <;> rfl
  · intro seq hfrom hseq hheld
    rw [(hsomething (hindexed.ne_empty hfrom hseq hheld)).1, htake, hall]

/-! ## The guilty one -/

/-- Two events at one position are found. -/
theorem audit_of_fork (hle : fromSeq ≤ toSeq) (hcap : toSeq - fromSeq + 1 ≤ maxWindow)
    (claimedHead : ChainHash) {first second : EventEnvelope RawPayload} (hfirst : first ∈ window)
    (hsecond : second ∈ window) (hfrom : fromSeq ≤ seq) (hto : seq ≤ toSeq)
    (hat : first.isAt seq = true) (hat' : second.isAt seq = true)
    (hother : first.eventId ≠ second.eventId) :
    (auditWindow serde digest window fromSeq toSeq claimedHead).foundTampering = true := by
  obtain ⟨forks, held, hindexed, _, hsomething⟩ :=
    auditWindow_eq serde digest window claimedHead hle hcap
  obtain ⟨link, hlink, rfl⟩ := isAt_iff.1 hat
  obtain ⟨link', hlink', hseq⟩ := isAt_iff.1 hat'
  obtain ⟨kept, hkept, hsame⟩ := hindexed.complete first hfirst link hlink hfrom hto
  obtain ⟨kept', hkept', hsame'⟩ :=
    hindexed.complete second hsecond link' hlink' (hseq ▸ hfrom) (hseq ▸ hto)
  have hforks : forks ≠ [] := by
    intro hnil
    rw [hseq, hkept] at hkept'
    obtain rfl := Option.some.inj hkept'
    exact hother ((hsame.resolve_right (absurd hnil)).symm.trans
      (hsame'.resolve_right (absurd hnil)))
  have hheld : held ≠ ∅ := by
    rintro rfl
    simp at hkept
  unfold ChainAudit.foundTampering
  rw [(hsomething hheld).1, any_take_auditFindings hindexed, any_eq_true]
  obtain ⟨fork, hfork⟩ := exists_mem_of_ne_nil forks hforks
  exact ⟨fork, mem_append_left _ hfork, hindexed.accuse fork hfork⟩

/-- The same record with the same link, up to the owner: the payloads read as one JSON value. -/
def SamePublished (serde : Serde) (a b : EventEnvelope RawPayload) : Prop :=
  a.chain = b.chain ∧ ∃ record, a.published.record serde = some record ∧
    b.published.record serde = some record

/-- With a digest that tells its inputs apart, a record that hashes to what a record of an honest
    chain does is that record. -/
theorem samePublished_of_hashesAs (hdigest : Injective digest)
    (hchain : StoreChain serde digest rows) {row : ChainRow} (hrow : row ∈ rows) {link : ChainLink}
    (hlink : event.chain = some link) (hhash : HashesAs serde digest event link row.columns.hash) :
    link = row.link ∧
      ∃ honest, row.envelope = some honest ∧ SamePublished serde event honest := by
  obtain ⟨honest, hstored, hhonest⟩ := hchain.linked.sound_of_mem hrow
  obtain ⟨hchained, htenant, hbrand⟩ := hchain.published row hrow honest hstored
  have hpublished : honest.published = honest := by
    unfold published
    rw [← htenant, ← hbrand]
  rcases hhash with hheld | hstamped
  · obtain ⟨rfl, record, hrecord, hrecord'⟩ := chainHash_inj hdigest hheld hhonest
    -- hashed as it is held, the record has no owner
    have howner : event.published = event := by
      obtain ⟨value, _, rfl⟩ := Option.map_eq_some_iff.1 hrecord
      obtain ⟨value', _, hsame⟩ := Option.map_eq_some_iff.1 hrecord'
      have htenants := congrArg tenantId hsame
      have hbrands := congrArg brandId hsame
      change honest.tenantId = event.tenantId at htenants
      change honest.brandId = event.brandId at hbrands
      unfold published
      rw [← htenant, ← hbrand, htenants, hbrands]
    refine ⟨rfl, honest, hstored, hlink.trans hchained.symm, record, ?_, ?_⟩
    · rw [howner]
      exact hrecord
    · rw [hpublished]
      exact hrecord'
  · obtain ⟨rfl, record, hrecord, hrecord'⟩ := chainHash_inj hdigest hstamped hhonest
    refine ⟨rfl, honest, hstored, hlink.trans hchained.symm, record, hrecord, ?_⟩
    rw [hpublished]
    exact hrecord'

section

variable {rows : List ChainRow} {window : List (EventEnvelope RawPayload)} {fromSeq toSeq : Nat}
  {forks : List ChainFinding} {held : Positions}

/-- From the head backwards: each record is the one that the next names. -/
theorem Indexed.hashesAs_back (hdigest : Injective digest)
    (h : Indexed window fromSeq toSeq forks held) (hchain : StoreChain serde digest rows)
    (hwritable : ∀ event ∈ window, (serde.value event.data).isSome)
    (hmissing : held.missing fromSeq toSeq = []) (hlinks : walkLinks serde digest held = [])
    (hhead : head ∈ rows) (hto : head.seq = toSeq)
    (hheadFinding : headFinding serde digest held toSeq head.columns.hash = none) (left : Nat)
    (hseq : seq + left = toSeq) (hfrom : fromSeq ≤ seq) (hpositive : 0 < seq)
    (hevent : held[seq]? = some event) :
    ∃ row ∈ rows, row.seq = seq ∧ event.chain = some row.link ∧
      HashesAs serde digest event row.link row.columns.hash := by
  induction left generalizing seq event with
  | zero =>
    obtain ⟨hmem, _, _, link, hlink, _⟩ := h.sound seq event hevent
    obtain rfl : seq = toSeq := hseq
    have hhash := (hashesTo_eq_ok (hwritable event hmem)).1
      (headFinding_eq_none_iff.1 hheadFinding event link hevent hlink)
    obtain ⟨rfl, _⟩ := samePublished_of_hashesAs hdigest hchain hhead hlink hhash
    exact ⟨head, hhead, hto, hlink, hhash⟩
  | succ left ih =>
    obtain ⟨hmem, _, _, link, hlink, _⟩ := h.sound seq event hevent
    -- the next position is held, and its record is the honest one
    have hnext : ∃ next, held[seq + 1]? = some next := by
      rw [← Option.isSome_iff_exists, ← Option.not_isNone, Bool.not_eq_true',
        ← Bool.not_eq_true, Option.isNone_iff_eq_none]
      intro hnone
      have hmissed : seq + 1 ∈ held.missing fromSeq toSeq :=
        mem_missing.2 ⟨by omega, by omega, hnone⟩
      rw [hmissing] at hmissed
      contradiction
    obtain ⟨next, hnext⟩ := hnext
    obtain ⟨row', hrow', hrowSeq, hrowLink, _⟩ :=
      ih (by omega) (by omega) (Nat.succ_pos seq) hnext
    have hbound := (hchain.linked.seq_mem hrow').2
    have hbound' : row'.seq ≤ 0 + rows.length := hbound
    obtain ⟨row, hrow, hrowSeq'⟩ := hchain.linked.exists_seq hpositive (by omega)
    have hrowSeq'' : row.seq = seq := hrowSeq'
    have hprev : row'.columns.prevHash = row.columns.hash := by
      refine hchain.linked.prev_eq hrow hrow' ?_
      show row'.seq = row.seq + 1
      omega
    have hok := walkLinks_eq_nil_iff.1 hlinks seq next event row'.link link hnext hevent hrowLink
      hlink
    have hhash := (hashesTo_eq_ok (hwritable event hmem)).1 hok
    have hhash' : HashesAs serde digest event link row.columns.hash := by
      rw [← hprev]
      exact hhash
    obtain ⟨rfl, _⟩ := samePublished_of_hashesAs hdigest hchain hrow hlink hhash'
    exact ⟨row, hrow, hrowSeq'', hlink, hhash'⟩

end

/-- An audit of a whole window against the store's own head that finds nothing has found the store's
    own records. -/
theorem audit_of_silence (hdigest : Injective digest) (hchain : StoreChain serde digest rows)
    (hwritable : ∀ event ∈ window, (serde.value event.data).isSome)
    (hcopies : ∀ a ∈ window, ∀ b ∈ window, a.eventId = b.eventId → SamePublished serde a b)
    (hle : fromSeq ≤ toSeq) (hcap : toSeq - fromSeq + 1 ≤ maxWindow)
    (hhead : head ∈ rows) (hto : head.seq = toSeq)
    (hmissing : missingFrom window fromSeq toSeq = [])
    (hfound : (auditWindow serde digest window fromSeq toSeq head.columns.hash).found = 0)
    (hevent : event ∈ window) (hat : event.isAt seq = true) (hfrom : fromSeq ≤ seq)
    (hseq : seq ≤ toSeq) (hpositive : 0 < seq) :
    ∃ row ∈ rows, row.seq = seq ∧
      ∃ honest, row.envelope = some honest ∧ SamePublished serde event honest := by
  obtain ⟨forks, held, hindexed, _, hsomething⟩ :=
    auditWindow_eq serde digest window head.columns.hash hle hcap
  have hheld : held ≠ ∅ := hindexed.ne_empty hfrom hseq (by rw [hmissing]; exact not_mem_nil)
  have hnothing := (hsomething hheld).2.1 hfound
  obtain ⟨hforks, hrest⟩ := append_eq_nil_iff.1 hnothing
  obtain ⟨_, hrest⟩ := append_eq_nil_iff.1 hrest
  obtain ⟨hlinks, hheadFinding⟩ := append_eq_nil_iff.1 hrest
  obtain ⟨link, hlink, rfl⟩ := isAt_iff.1 hat
  obtain ⟨kept, hkept, hsame⟩ := hindexed.complete event hevent link hlink hfrom hseq
  obtain ⟨row, hrow, hrowSeq, hrowLink, hhash⟩ := hindexed.hashesAs_back hdigest hchain hwritable
    (hindexed.missing_eq.trans hmissing) hlinks hhead hto (Option.toList_eq_nil_iff.1 hheadFinding)
    (toSeq - link.seq) (by omega) hfrom hpositive hkept
  obtain ⟨_, honest, hstored, hchained, record, hrecord, hrecord'⟩ :=
    samePublished_of_hashesAs hdigest hchain hrow hrowLink hhash
  -- the event that was looked at is the one, or a copy of it
  obtain ⟨hlinks', record', hkept', hevent'⟩ := hcopies kept (hindexed.sound _ kept hkept).1 event
    hevent (hsame.resolve_right (absurd hforks))
  obtain rfl : record' = record := Option.some.inj (hkept'.symm.trans hrecord)
  exact ⟨row, hrow, hrowSeq, honest, hstored, hlinks'.symm.trans hchained, record', hevent',
    hrecord'⟩

/-- An honest store is not accused, and what is missing is said. Two events at one position are
    found. A whole window that ends on the store's head and in which nothing is found holds the
    store's records, where the copies of one event are the same record. -/
theorem audit_accuses_the_guilty (serde : Serde) (digest : String → ChainHash)
    (hdigest : Injective digest) (window : List (EventEnvelope RawPayload))
    (hwritable : ∀ event ∈ window, (serde.value event.data).isSome) (fromSeq toSeq : Nat)
    (hle : fromSeq ≤ toSeq) (hcap : toSeq - fromSeq + 1 ≤ maxWindow) :
    (∀ rows, StoreChain serde digest rows → ∀ head ∈ rows, head.seq = toSeq →
      (∀ event ∈ window, HeldFrom rows event) →
      (auditWindow serde digest window fromSeq toSeq head.columns.hash).foundTampering = false ∧
      ∀ seq, fromSeq ≤ seq → seq ≤ toSeq → seq ∉ missingFrom window fromSeq toSeq →
        (auditWindow serde digest window fromSeq toSeq head.columns.hash).findings =
          ((missingFrom window fromSeq toSeq).head?.map fun lowest =>
            .incomplete lowest (missingFrom window fromSeq toSeq).length).toList) ∧
    (∀ claimedHead seq, fromSeq ≤ seq → seq ≤ toSeq →
      ∀ first ∈ window, first.isAt seq → ∀ second ∈ window, second.isAt seq →
      first.eventId ≠ second.eventId →
      (auditWindow serde digest window fromSeq toSeq claimedHead).foundTampering = true) ∧
    (∀ rows, StoreChain serde digest rows → ∀ head ∈ rows, head.seq = toSeq →
      (∀ a ∈ window, ∀ b ∈ window, a.eventId = b.eventId → SamePublished serde a b) →
      missingFrom window fromSeq toSeq = [] →
      (auditWindow serde digest window fromSeq toSeq head.columns.hash).found = 0 →
      ∀ seq, fromSeq ≤ seq → seq ≤ toSeq → 0 < seq → ∀ event ∈ window, event.isAt seq →
        ∃ row ∈ rows, row.seq = seq ∧
          ∃ honest, row.envelope = some honest ∧ SamePublished serde event honest) := by
  refine ⟨?_, ?_, ?_⟩
  · intro rows hchain head hhead hto hheld
    exact audit_of_honest hchain hheld hle hcap hhead hto
  · intro claimedHead seq hfrom hto first hfirst hat second hsecond hat' hother
    exact audit_of_fork hle hcap claimedHead hfirst hsecond hfrom hto hat hat' hother
  · intro rows hchain head hhead hto hcopies hmissing hfound seq hfrom hseq hpositive
      event hevent hat
    exact audit_of_silence hdigest hchain hwritable hcopies hle hcap hhead hto hmissing
      hfound hevent
      hat hfrom hseq hpositive

/-! ## Copies that are not looked at -/

/-- A store's first three records. -/
def sampleRows : List ChainRow := [1, 2, 3].map (sampleRow · sampleJson)

theorem sampleRows_storeChain : StoreChain .sample textDigest sampleRows where
  linked := .cons rfl rfl ⟨_, rfl, by decide +kernel⟩ (.cons rfl rfl ⟨_, rfl, by decide +kernel⟩
    (.cons rfl rfl ⟨_, rfl, by decide +kernel⟩ (.nil _ _)))
  published := by decide +kernel

theorem mem_sampleRows (hseq : seq ∈ [1, 2, 3]) : sampleRow seq sampleJson ∈ sampleRows :=
  mem_map_of_mem (f := (sampleRow · sampleJson)) hseq

/-- The payload of another event. -/
def otherJson : String := "\x7b\"a\":2\x7d"

/-- A blank of a payload is not looked at, and neither is a second copy of an event. -/
theorem copies_of_an_event_unseen :
    Injective textDigest ∧
    StoreChain .sample textDigest sampleRows ∧ sampleRow 1 sampleJson ∈ sampleRows ∧
    ∀ window ∈
      [[chainedSample 1 spacedJson], [chainedSample 1 sampleJson, chainedSample 1 otherJson]],
      (∀ event ∈ window, (Serde.sample.value event.data).isSome) ∧
      missingFrom window 1 1 = [] ∧
      (auditWindow .sample textDigest window 1 1 (sampleRow 1 sampleJson).columns.hash).found = 0 ∧
      ∃ event ∈ window, event.isAt 1 ∧
        event.published.data ≠ (chainedSample 1 sampleJson).published.data := by
  refine ⟨textDigest_injective, sampleRows_storeChain, mem_sampleRows (by decide), ?_⟩
  decide +kernel

/-- A store's first two records, the second held twice, once with a blank. -/
def respeltWindow : List (EventEnvelope RawPayload) :=
  [chainedSample 2 spacedJson, chainedSample 1 sampleJson, chainedSample 2 sampleJson]

/-- Where a store's third record is held, and its first twice, once stamped with an owner, the
    second is missing and nobody is accused; another event in the place of the first is found; and
    the one with a blank is the store's second record. -/

theorem audit_accuses_the_guilty_sample :
    (auditWindow .sample textDigest [chainedSample 3 sampleJson, chainedSample 1 sampleJson,
        { chainedSample 1 sampleJson with tenantId := ⟨5⟩, brandId := ⟨6⟩ }] 1 3
      (sampleHead 3)).findings = [.incomplete 2 1] ∧
    (auditWindow .sample textDigest [chainedSample 1 sampleJson,
        { chainedSample 1 sampleJson with eventId := ⟨7⟩ }] 1 1 (sampleHead 1)).foundTampering =
          true ∧
    ∃ row ∈ sampleRows, row.seq = 2 ∧ ∃ honest, row.envelope = some honest ∧
      SamePublished .sample (chainedSample 2 spacedJson) honest := by
  refine ⟨?_, ?_, ?_⟩
  · refine ((audit_accuses_the_guilty .sample textDigest textDigest_injective _ (fun _ _ => rfl) 1 3
      (by decide) (by decide)).1 _ sampleRows_storeChain (sampleRow 3 sampleJson)
      (mem_sampleRows (by decide)) rfl ?_).2 1 le_rfl (by decide) (by decide +kernel)
    intro event hevent
    simp only [mem_cons, not_mem_nil, or_false] at hevent
    rcases hevent with rfl | rfl | rfl
    · exact ⟨_, @mem_sampleRows 3 (by decide), _, _, _, rfl, rfl⟩
    · exact ⟨_, @mem_sampleRows 1 (by decide), _, _, _, rfl, rfl⟩
    · exact ⟨_, @mem_sampleRows 1 (by decide), _, _, _, rfl, rfl⟩
  · exact (audit_accuses_the_guilty .sample textDigest textDigest_injective _ (fun _ _ => rfl) 1 1
      le_rfl (by decide)).2.1 _ 1 le_rfl le_rfl _ mem_cons_self rfl _
      (mem_cons_of_mem _ mem_cons_self) rfl (by decide)
  · refine (audit_accuses_the_guilty .sample textDigest textDigest_injective respeltWindow
      (fun _ _ => rfl) 1 2 (by decide) (by decide)).2.2 _ sampleRows_storeChain
      (sampleRow 2 sampleJson) (mem_sampleRows (by decide)) rfl ?_ (by decide +kernel)
      (by decide +kernel) 2 (by decide) le_rfl two_pos _ mem_cons_self rfl
    intro a ha b hb hsame
    simp only [respeltWindow, mem_cons, not_mem_nil, or_false] at ha hb
    rcases ha with rfl | rfl | rfl <;> rcases hb with rfl | rfl | rfl <;>
      first | exact absurd hsame (by decide) | exact ⟨rfl, _, rfl, rfl⟩

end PosFramework
