import PosFramework.Cloud.ChainAudit

set_option autoImplicit false

/-! # What an audit reports

The findings of an audit are forks, then at most one gap, then broken links, in one list of which
the first are kept. So an audit that found nothing has an empty list, and one whose list has a
finding that accuses keeps such a one. -/

namespace PosFramework

open Findings List Option EventEnvelope ChainFinding

/-! ## Findings -/

namespace Findings

theorem pushAll_append (findings : Findings) (some more : List ChainFinding) :
    (findings.pushAll some).pushAll more = findings.pushAll (some ++ more) :=
  foldl_append.symm

variable {findings : Findings}

theorem total_pushAll {more : List ChainFinding} :
    (findings.pushAll more).total = 0 ↔ findings.total = 0 ∧ more = [] := by
  induction more generalizing findings with
  | nil =>
    show findings.total = 0 ↔ _
    simp
  | cons finding rest ih =>
    show ((findings.push finding).pushAll rest).total = 0 ↔ _
    rw [ih]
    constructor
    · rintro ⟨htotal, _⟩
      simp only [push, u64SaturatingAdd, u64Max] at htotal
      omega
    · rintro ⟨_, hnil⟩
      contradiction

theorem kept_pushAll (hfull : findings.kept.length ≤ maxFindings) (more : List ChainFinding) :
    (findings.pushAll more).kept = (findings.kept ++ more).take maxFindings := by
  induction more generalizing findings with
  | nil =>
    rw [append_nil, take_of_length_le hfull]
    rfl
  | cons finding rest ih =>
    show ((findings.push finding).pushAll rest).kept = _
    by_cases hroom : findings.kept.length < maxFindings
    · have hkept : (findings.push finding).kept = findings.kept ++ [finding] := if_pos hroom
      rw [ih (by rw [hkept, length_append]; exact hroom), hkept, append_assoc]
      rfl
    · have hkept : (findings.push finding).kept = findings.kept := if_neg hroom
      have hlength : findings.kept.length = maxFindings := le_antisymm hfull (Nat.not_lt.1 hroom)
      rw [ih (by rw [hkept]; exact hfull), hkept, ← hlength, take_left, take_left]

end Findings

/-! ## Positions -/

/-- What the index of a window says, with the forks found on the way. -/
structure Indexed (window : List (EventEnvelope RawPayload)) (fromSeq toSeq : Nat)
    (forks : List ChainFinding) (held : Positions) : Prop where
  sound : ∀ (seq : Nat) (event : EventEnvelope RawPayload), held[seq]? = some event →
    event ∈ window ∧ fromSeq ≤ seq ∧ seq ≤ toSeq ∧ ∃ link, event.chain = some link ∧ link.seq = seq
  complete : ∀ event ∈ window, ∀ link : ChainLink, event.chain = some link → fromSeq ≤ link.seq →
    link.seq ≤ toSeq →
    ∃ kept : EventEnvelope RawPayload, held[link.seq]? = some kept ∧
      (kept.eventId = event.eventId ∨ forks ≠ [])
  accuse : ∀ fork ∈ forks, fork.isTampering = true
  forked : forks ≠ [] → ∃ first ∈ window, ∃ second ∈ window, ∃ link link' : ChainLink,
    first.chain = some link ∧ second.chain = some link' ∧ link.seq = link'.seq ∧
    first.eventId ≠ second.eventId ∧ fromSeq ≤ link.seq ∧ link.seq ≤ toSeq

section

variable {serde : Serde} {digest : String → ChainHash} {window : List (EventEnvelope RawPayload)}
  {fromSeq toSeq : Nat} {forks : List ChainFinding} {held : Positions}

theorem forkOf_isTampering (serde : Serde) (digest : String → ChainHash) (seq : Nat)
    (first second : EventEnvelope RawPayload) :
    (forkOf serde digest seq first second).isTampering = true := by
  unfold forkOf
  split <;> rfl

variable {event : EventEnvelope RawPayload} {link : ChainLink}

theorem Indexed.pass (h : Indexed window fromSeq toSeq forks held)
    (hkept : ∀ link, event.chain = some link → fromSeq ≤ link.seq → link.seq ≤ toSeq →
      ∃ kept : EventEnvelope RawPayload, held[link.seq]? = some kept ∧
      (kept.eventId = event.eventId ∨ forks ≠ [])) :
    Indexed (window ++ [event]) fromSeq toSeq forks held := by
  refine ⟨?_, ?_, h.accuse, ?_⟩
  · intro seq other hother
    obtain ⟨hmem, hrest⟩ := h.sound seq other hother
    exact ⟨mem_append_left _ hmem, hrest⟩
  · intro other hother
    rcases mem_append.1 hother with hold | hnew
    · exact h.complete other hold
    · rw [mem_singleton.1 hnew]
      exact hkept
  · intro hforks
    obtain ⟨first, hfirst, second, hsecond, hrest⟩ := h.forked hforks
    exact ⟨first, mem_append_left _ hfirst, second, mem_append_left _ hsecond, hrest⟩

/-- An event that claims a position held by another. -/
theorem Indexed.fork (h : Indexed window fromSeq toSeq forks held) {old : EventEnvelope RawPayload}
    (hlink : event.chain = some link) (hold : held[link.seq]? = some old)
    (hother : old.eventId ≠ event.eventId) {fork : ChainFinding} (hfork : fork.isTampering = true) :
    Indexed (window ++ [event]) fromSeq toSeq (forks ++ [fork]) held := by
  have hsome : forks ++ [fork] ≠ [] := by simp
  refine ⟨?_, ?_, ?_, ?_⟩
  · intro seq other hseq
    obtain ⟨hmem, hrest⟩ := h.sound seq other hseq
    exact ⟨mem_append_left _ hmem, hrest⟩
  · intro other hmem otherLink hotherLink hfrom hto
    rcases mem_append.1 hmem with hbefore | hnew
    · obtain ⟨kept, hkept, _⟩ := h.complete other hbefore otherLink hotherLink hfrom hto
      exact ⟨kept, hkept, .inr hsome⟩
    · rw [mem_singleton.1 hnew, hlink] at hotherLink
      obtain rfl := some.inj hotherLink
      exact ⟨old, hold, .inr hsome⟩
  · intro other hmem
    rcases mem_append.1 hmem with hbefore | hnew
    · exact h.accuse other hbefore
    · rw [mem_singleton.1 hnew]
      exact hfork
  · intro _
    obtain ⟨hmem, hfrom, hto, oldLink, holdLink, hseq⟩ := h.sound _ _ hold
    exact ⟨old, mem_append_left _ hmem, event, by simp, oldLink, link, holdLink, hlink, hseq,
      hother, hseq ▸ hfrom, hseq ▸ hto⟩

/-- An event takes its position, where it is free or held by another that it forks. -/
theorem Indexed.take (h : Indexed window fromSeq toSeq forks held)
    (hlink : event.chain = some link) (hfrom : fromSeq ≤ link.seq) (hto : link.seq ≤ toSeq)
    {more : List ChainFinding} (hmore : ∀ fork ∈ more, fork.isTampering = true)
    (hreplace : ∀ old : EventEnvelope RawPayload, held[link.seq]? = some old →
      more ≠ [] ∧ old.eventId ≠ event.eventId)
    (hnone : held[link.seq]? = none → more = []) :
    Indexed (window ++ [event]) fromSeq toSeq (forks ++ more) (held.insert link.seq event) := by
  refine ⟨?_, ?_, ?_, ?_⟩
  · intro seq other hother
    rw [Keyed.get_insert] at hother
    split at hother
    · obtain rfl := some.inj hother
      subst seq
      exact ⟨by simp, hfrom, hto, link, hlink, rfl⟩
    · obtain ⟨hmem, hrest⟩ := h.sound seq other hother
      exact ⟨mem_append_left _ hmem, hrest⟩
  · intro other hother otherLink hotherLink hfrom' hto'
    rw [Keyed.get_insert]
    split
    · next hseq =>
        refine ⟨event, rfl, ?_⟩
        rcases mem_append.1 hother with hold | hnew
        · obtain ⟨kept, hkept, _⟩ := h.complete other hold otherLink hotherLink hfrom' hto'
          rw [← hseq] at hkept
          refine .inr ?_
          intro hnil
          exact (hreplace kept hkept).1 (append_eq_nil_iff.1 hnil).2
        · rw [mem_singleton.1 hnew]
          exact .inl rfl
    · next hseq =>
        rcases mem_append.1 hother with hold | hnew
        · obtain ⟨kept, hkept, hsame⟩ := h.complete other hold otherLink hotherLink hfrom' hto'
          refine ⟨kept, hkept, hsame.imp_right ?_⟩
          intro hforks hnil
          exact hforks (append_eq_nil_iff.1 hnil).1
        · rw [mem_singleton.1 hnew, hlink] at hotherLink
          exact absurd (congrArg ChainLink.seq (some.inj hotherLink)) hseq
  · intro fork hfork
    rcases mem_append.1 hfork with hold | hnew
    · exact h.accuse fork hold
    · exact hmore fork hnew
  · intro hforks
    cases hold : held[link.seq]? with
    | none =>
      rw [hnone hold, append_nil] at hforks
      obtain ⟨first, hfirst, second, hsecond, hrest⟩ := h.forked hforks
      exact ⟨first, mem_append_left _ hfirst, second, mem_append_left _ hsecond, hrest⟩
    | some old =>
      obtain ⟨hmem, _, _, oldLink, holdLink, hseq⟩ := h.sound _ _ hold
      exact ⟨old, mem_append_left _ hmem, event, by simp, oldLink, link, holdLink, hlink, hseq,
        (hreplace old hold).2, hseq ▸ hfrom, hseq ▸ hto⟩

/-- One event of the window. -/
theorem Indexed.indexEvent (serde : Serde) (digest : String → ChainHash)
    (h : Indexed window fromSeq toSeq forks held) (event : EventEnvelope RawPayload) :
    ∃ more held', PosFramework.indexEvent serde digest fromSeq toSeq (.pushAll .empty forks, held)
        event = (.pushAll .empty (forks ++ more), held') ∧
      Indexed (window ++ [event]) fromSeq toSeq (forks ++ more) held' := by
  unfold PosFramework.indexEvent
  cases hlink : event.chain with
  | none =>
    refine ⟨[], held, by rw [append_nil], ?_⟩
    rw [append_nil]
    refine h.pass ?_
    intro link hsome
    rw [hlink] at hsome
    contradiction
  | some link =>
    by_cases hout : link.seq < fromSeq ∨ toSeq < link.seq
    · refine ⟨[], held, by rw [append_nil]; exact if_pos hout, ?_⟩
      rw [append_nil]
      refine h.pass ?_
      intro other hother hfrom hto
      rw [hlink] at hother
      obtain rfl := some.inj hother
      omega
    simp only [if_neg hout]
    have hfrom : fromSeq ≤ link.seq := by omega
    have hto : link.seq ≤ toSeq := by omega
    cases hold : held[link.seq]? with
    | none =>
      refine ⟨[], held.insert link.seq event, by rw [append_nil], ?_⟩
      refine h.take hlink hfrom hto (fun fork hfork => absurd hfork not_mem_nil) ?_
        (fun _ => rfl)
      intro old hsome
      rw [hold] at hsome
      contradiction
    | some old =>
      by_cases hsame : old.eventId = event.eventId
      · refine ⟨[], held, by rw [append_nil]; exact if_pos hsame, ?_⟩
        rw [append_nil]
        refine h.pass ?_
        intro other hother _ _
        rw [hlink] at hother
        obtain rfl := some.inj hother
        exact ⟨old, hold, .inl hsame⟩
      · have hpush : Findings.push (.pushAll .empty forks)
            (forkOf serde digest link.seq old event) =
            .pushAll .empty (forks ++ [forkOf serde digest link.seq old event]) := by
          rw [← pushAll_append]
          rfl
        have hfork := forkOf_isTampering serde digest link.seq old event
        simp only [if_neg hsame, hpush]
        by_cases hlower : event.eventId < old.eventId
        · refine ⟨_, held.insert link.seq event, by rw [if_pos hlower], ?_⟩
          refine h.take hlink hfrom hto ?_ ?_ ?_
          · intro fork hmem
            rw [mem_singleton.1 hmem]
            exact hfork
          · intro kept hkept
            rw [hold] at hkept
            obtain rfl := some.inj hkept
            exact ⟨cons_ne_nil _ _, hsame⟩
          · intro hnone
            rw [hold] at hnone
            contradiction
        · exact ⟨_, held, by rw [if_neg hlower], h.fork hlink hold hsame hfork⟩

/-- What the index of a window is. -/
theorem indexed_indexByPosition (serde : Serde) (digest : String → ChainHash)
    (window : List (EventEnvelope RawPayload)) (fromSeq toSeq : Nat) :
    ∃ forks, (indexByPosition serde digest window fromSeq toSeq).1 = .pushAll .empty forks ∧
      Indexed window fromSeq toSeq forks (indexByPosition serde digest window fromSeq toSeq).2 := by
  induction window using reverseRecOn with
  | nil =>
    refine ⟨[], rfl, ?_, ?_, ?_, fun hforks => absurd rfl hforks⟩
    · intro seq event hevent
      simp [indexByPosition] at hevent
    · intro event hevent
      contradiction
    · intro fork hfork
      contradiction
  | append_singleton window event ih =>
    obtain ⟨forks, hforks, hindexed⟩ := ih
    obtain ⟨more, held, hstep, hindexed'⟩ := hindexed.indexEvent serde digest event
    have hall : indexByPosition serde digest (window ++ [event]) fromSeq toSeq =
        (.pushAll .empty (forks ++ more), held) := by
      rw [← hstep, ← hforks]
      exact foldl_append
    rw [hall]
    exact ⟨forks ++ more, rfl, hindexed'⟩

end

/-! ## Gaps -/

/-- The positions of a window that are not held. -/
def Positions.missing (held : Positions) (fromSeq toSeq : Nat) : List Nat :=
  (range' fromSeq (toSeq + 1 - fromSeq)).filter fun seq => !held.contains seq

variable {held : Positions} {fromSeq toSeq toSeq seq : Nat} {claimedHead : ChainHash}

theorem mem_missing :
    seq ∈ held.missing fromSeq toSeq ↔ fromSeq ≤ seq ∧ seq ≤ toSeq ∧ held[seq]? = none := by
  unfold Positions.missing
  rw [mem_filter, mem_range'_1, Bool.not_eq_true', ← Bool.not_eq_true,
    Std.ExtTreeMap.contains_iff_mem, ← Std.ExtTreeMap.isSome_getElem?_iff_mem,
    Bool.not_eq_true, isSome_eq_false_iff, isNone_iff_eq_none]
  constructor
  · rintro ⟨hrange, hnone⟩
    exact ⟨hrange.1, by omega, hnone⟩
  · rintro ⟨hfrom, hto, hnone⟩
    exact ⟨⟨hfrom, by omega⟩, hnone⟩

/-- How many positions are held, where none is held outside the window. -/
theorem size_add_missing (hinside : ∀ seq, seq ∈ held → fromSeq ≤ seq ∧ seq ≤ toSeq) :
    held.size + (held.missing fromSeq toSeq).length = toSeq + 1 - fromSeq := by
  have hperm : held.keys.Perm
      ((range' fromSeq (toSeq + 1 - fromSeq)).filter fun seq => held.contains seq) := by
    refine (perm_ext_iff_of_nodup Std.ExtTreeMap.nodup_keys
      (Nodup.filter _ (nodup_range' _))).2 ?_
    intro seq
    rw [Std.ExtTreeMap.mem_keys, mem_filter, mem_range'_1,
      Std.ExtTreeMap.contains_iff_mem]
    constructor
    · intro hmem
      obtain ⟨hfrom, hto⟩ := hinside seq hmem
      exact ⟨⟨hfrom, by omega⟩, hmem⟩
    · rintro ⟨_, hmem⟩
      exact hmem
  have hsplit := length_eq_length_filter_add
    (l := range' fromSeq (toSeq + 1 - fromSeq)) fun seq => held.contains seq
  rw [length_range', ← hperm.length_eq, Std.ExtTreeMap.length_keys] at hsplit
  exact hsplit.symm

/-- The gap an audit reports: the lowest missing position, and how many there are. -/
theorem gapFinding_eq (hle : fromSeq ≤ toSeq) (hcap : toSeq - fromSeq + 1 ≤ maxWindow)
    (hinside : ∀ seq, seq ∈ held → fromSeq ≤ seq ∧ seq ≤ toSeq) :
    gapFinding held fromSeq toSeq = (held.missing fromSeq toSeq).head?.map fun lowest =>
      .incomplete lowest (held.missing fromSeq toSeq).length := by
  have hcount := size_add_missing hinside
  have hexpected : u64SaturatingAdd (toSeq - fromSeq) 1 = toSeq + 1 - fromSeq := by
    unfold u64SaturatingAdd u64Max
    unfold maxWindow at hcap
    omega
  have hlowest : (range' fromSeq (toSeq + 1 - fromSeq)).find?
      (fun seq => !held.contains seq) = (held.missing fromSeq toSeq).head? := by
    unfold Positions.missing
    rw [head?_filter]
  dsimp only [gapFinding]
  rw [hexpected, hlowest]
  cases hmissing : held.missing fromSeq toSeq with
  | nil =>
    rw [hmissing] at hcount
    rw [if_pos (by rw [← hcount]; exact le_refl _)]
    rfl
  | cons =>
    rw [hmissing] at hcount
    have hsome : ¬ toSeq + 1 - fromSeq ≤ held.size := by
      rw [length_cons] at hcount
      omega
    rw [if_neg hsome, ← hcount, Nat.add_sub_cancel_left]
    rfl

/-! ## The audit's list -/

section

variable {serde : Serde} {digest : String → ChainHash} {window : List (EventEnvelope RawPayload)}
  {fromSeq toSeq : Nat} {forks : List ChainFinding} {held : Positions}

theorem Indexed.inside (h : Indexed window fromSeq toSeq forks held)
    (hseq : seq ∈ held) : fromSeq ≤ seq ∧ seq ≤ toSeq := by
  obtain ⟨hfrom, hto, _⟩ := (h.sound seq _ (Std.ExtTreeMap.getElem?_eq_some_getElem hseq)).2
  exact ⟨hfrom, hto⟩

/-- All that an audit finds, in the order it finds it. -/
def auditFindings (serde : Serde) (digest : String → ChainHash) (forks : List ChainFinding)
    (held : Positions) (fromSeq toSeq : Nat) (claimedHead : ChainHash) : List ChainFinding :=
  forks ++ ((gapFinding held fromSeq toSeq).toList ++ (walkLinks serde digest held ++
    (headFinding serde digest held toSeq claimedHead).toList))

/-- An audit of a window within the limit that holds something. -/
theorem auditWindow_eq (serde : Serde) (digest : String → ChainHash)
    (window : List (EventEnvelope RawPayload)) (claimedHead : ChainHash) (hle : fromSeq ≤ toSeq)
    (hcap : toSeq - fromSeq + 1 ≤ maxWindow) :
    ∃ forks held, Indexed window fromSeq toSeq forks held ∧
      (held = ∅ → auditWindow serde digest window fromSeq toSeq claimedHead =
        .unverified fromSeq toSeq .nothingChained) ∧
      (held ≠ ∅ →
        (auditWindow serde digest window fromSeq toSeq claimedHead).findings =
          (auditFindings serde digest forks held fromSeq toSeq claimedHead).take maxFindings ∧
        ((auditWindow serde digest window fromSeq toSeq claimedHead).found = 0 ↔
          auditFindings serde digest forks held fromSeq toSeq claimedHead = [])) := by
  obtain ⟨forks, hforks, hindexed⟩ := indexed_indexByPosition serde digest window fromSeq toSeq
  have hwidth : ¬ maxWindow < u64SaturatingAdd (toSeq - fromSeq) 1 := by
    unfold u64SaturatingAdd
    omega
  refine ⟨forks, _, hindexed, ?_, ?_⟩
  · intro hempty
    unfold auditWindow
    rw [if_neg (Nat.not_lt.2 hle), if_neg hwidth]
    dsimp only
    rw [hempty]
    rfl
  · intro hsome
    have hisEmpty : (indexByPosition serde digest window fromSeq toSeq).2.isEmpty = false := by
      rw [← Bool.not_eq_true, Std.ExtTreeMap.isEmpty_iff]
      exact hsome
    have haudit : auditWindow serde digest window fromSeq toSeq claimedHead =
        ⟨fromSeq, toSeq, (indexByPosition serde digest window fromSeq toSeq).2.size,
          (Findings.pushAll .empty (auditFindings serde digest forks
            (indexByPosition serde digest window fromSeq toSeq).2 fromSeq toSeq claimedHead)).kept,
          (Findings.pushAll .empty (auditFindings serde digest forks
            (indexByPosition serde digest window fromSeq toSeq).2 fromSeq toSeq
            claimedHead)).total⟩ := by
      unfold auditWindow
      rw [if_neg (Nat.not_lt.2 hle), if_neg hwidth]
      dsimp only
      rw [hisEmpty, hforks, pushAll_append, pushAll_append,
        pushAll_append]
      rfl
    rw [haudit]
    refine ⟨?_, ?_⟩
    · exact kept_pushAll (Nat.zero_le _) _
    · rw [total_pushAll]
      exact ⟨fun h => h.2, fun h => ⟨rfl, h⟩⟩

/-! ## Accusations -/

variable {finding : ChainFinding} {held : Positions}

theorem linkFinding_isTampering {event : EventEnvelope RawPayload}
    (h : linkFinding serde digest held seq event = some finding) :
    finding.isTampering = true := by
  unfold linkFinding at h
  split at h
  · split at h
    · split at h
      · rw [← some.inj h]
        rfl
      · contradiction
    · contradiction
  · contradiction

theorem headFinding_isTampering
    (h : headFinding serde digest held toSeq claimedHead = some finding) :
    finding.isTampering = true := by
  unfold headFinding at h
  split at h
  · split at h
    · split at h
      · rw [← some.inj h]
        rfl
      · contradiction
    · contradiction
  · contradiction

theorem mem_checks_isTampering
    (h : finding ∈ walkLinks serde digest held ++
      (headFinding serde digest held toSeq claimedHead).toList) :
    finding.isTampering = true := by
  rcases mem_append.1 h with hlink | hhead
  · obtain ⟨entry, _, hentry⟩ := mem_filterMap.1 hlink
    exact linkFinding_isTampering hentry
  · exact headFinding_isTampering (mem_toList.1 hhead)

/-- Of findings of which at most one does not accuse, the first ones accuse if any does. -/
theorem any_take_isTampering {forks checks : List ChainFinding} (gap : Option ChainFinding)
    (hforks : ∀ finding ∈ forks, finding.isTampering = true)
    (hchecks : ∀ finding ∈ checks, finding.isTampering = true) :
    ((forks ++ (gap.toList ++ checks)).take maxFindings).any isTampering =
      (forks ++ (gap.toList ++ checks)).any isTampering := by
  cases forks with
  | cons fork rest =>
    have hfork := hforks fork mem_cons_self
    simp [maxFindings, hfork]
  | nil =>
    cases gap with
    | none =>
      cases checks with
      | nil => rfl
      | cons check rest =>
        have hcheck := hchecks check mem_cons_self
        simp [maxFindings, hcheck]
    | some gap =>
      cases checks with
      | nil => rfl
      | cons check rest =>
        have hcheck := hchecks check mem_cons_self
        simp [maxFindings, hcheck]

/-- An audit accuses where one of its findings does, kept or not. -/
theorem any_take_auditFindings (hindexed : Indexed window fromSeq toSeq forks held)
    (claimedHead : ChainHash) :
    ((auditFindings serde digest forks held fromSeq toSeq claimedHead).take maxFindings).any
      isTampering =
      (auditFindings serde digest forks held fromSeq toSeq claimedHead).any
        isTampering :=
  any_take_isTampering _ hindexed.accuse fun _ hmem => mem_checks_isTampering hmem

end

/-! ## Links and heads that hold -/

section

variable {serde : Serde} {digest : String → ChainHash} {held : Positions}

/-- No link is reported where every record that is held hashes to what the next one names. -/
theorem walkLinks_eq_nil_iff : walkLinks serde digest held = [] ↔
    ∀ (seq : Nat) (event previous : EventEnvelope RawPayload) (link previousLink : ChainLink),
      held[seq + 1]? = some event → held[seq]? = some previous → event.chain = some link →
      previous.chain = some previousLink →
      hashesTo serde digest previous previousLink link.prevHash = .ok () := by
  unfold walkLinks
  rw [filterMap_eq_nil_iff]
  constructor
  · intro hlinks seq event previous link previousLink hevent hprevious hlink hpreviousLink
    have hnone := hlinks (seq + 1, event)
      (Std.ExtTreeMap.mem_toList_iff_getElem?_eq_some.2 hevent)
    simp only [linkFinding, hlink, Nat.succ_ne_zero, if_false, Nat.add_sub_cancel, hprevious,
      hpreviousLink] at hnone
    cases hhash : hashesTo serde digest previous previousLink link.prevHash with
    | ok _ => rfl
    | error =>
      rw [hhash] at hnone
      contradiction
  · rintro hlinks ⟨seq, event⟩ hentry
    have hevent : held[seq]? = some event :=
      Std.ExtTreeMap.mem_toList_iff_getElem?_eq_some.1 hentry
    unfold linkFinding
    cases hlink : event.chain with
    | none => rfl
    | some link =>
      cases seq with
      | zero => rfl
      | succ seq =>
        simp only [Nat.succ_ne_zero, if_false, Nat.add_sub_cancel]
        cases hprevious : held[seq]? with
        | none => rfl
        | some previous =>
          cases hpreviousLink : previous.chain with
          | none => simp only [hpreviousLink]
          | some previousLink =>
            simp only [hpreviousLink, hlinks seq event previous link previousLink hevent
              hprevious hlink hpreviousLink]

/-- No head is reported where the record that is held there hashes to it. -/
theorem headFinding_eq_none_iff :
    headFinding serde digest held toSeq claimedHead = none ↔
      ∀ (event : EventEnvelope RawPayload) (link : ChainLink), held[toSeq]? = some event →
        event.chain = some link → hashesTo serde digest event link claimedHead = .ok () := by
  unfold headFinding
  constructor
  · intro hnone event link hevent hlink
    simp only [hevent, hlink] at hnone
    cases hhash : hashesTo serde digest event link claimedHead with
    | ok _ => rfl
    | error =>
      rw [hhash] at hnone
      contradiction
  · intro hhead
    cases hevent : held[toSeq]? with
    | none => rfl
    | some event =>
      cases hlink : event.chain with
      | none => simp only [hlink]
      | some link => simp only [hlink, hhead event link hevent hlink]

end

/-! ## What a record hashes to -/

section

variable {serde : Serde} {digest : String → ChainHash} {event : EventEnvelope RawPayload}
  {link : ChainLink} {expected : ChainHash}

/-- A record hashes to what is expected, as it is held or as it was published. -/
def HashesAs (serde : Serde) (digest : String → ChainHash) (event : EventEnvelope RawPayload)
    (link : ChainLink) (expected : ChainHash) : Prop :=
  event.chainHash serde digest link = some expected ∨
    event.published.chainHash serde digest link = some expected

theorem isSome_chainHash : (event.chainHash serde digest link).isSome =
    (serde.value event.data).isSome := by
  unfold chainHash chainPreimage record
  rw [isSome_map, isSome_map, isSome_map]

theorem hashesTo_eq_ok (hwritable : (serde.value event.data).isSome) :
    hashesTo serde digest event link expected = .ok () ↔
      HashesAs serde digest event link expected := by
  have hheld : (event.chainHash serde digest link).isSome := by
    rw [isSome_chainHash]
    exact hwritable
  have hpublished : (event.published.chainHash serde digest link).isSome := by
    rw [isSome_chainHash]
    exact hwritable
  obtain ⟨held, hheld⟩ := isSome_iff_exists.1 hheld
  obtain ⟨stamped, hstamped⟩ := isSome_iff_exists.1 hpublished
  unfold hashesTo HashesAs
  rw [hheld, hstamped]
  by_cases hsame : held = expected
  · simp [hsame]
  · by_cases hsame' : stamped = expected
    · simp [hsame, hsame']
    · simp [hsame, hsame']

end

end PosFramework
