import PosFramework.Lib.Keyed
import PosFramework.Proto.Envelope

set_option autoImplicit false

/-! # The chain audit

The cloud recomputes a store's chain from its own copies of the store's events, over the window
between two anchors. A copy carries the owner that the cloud stamped it with; the store hashed it
with a nil one, so a record is taken to hash to what either gives. -/

namespace PosFramework

/-- The widest window that is audited. -/
def maxWindow : Nat := 50000

/-- How many findings an audit carries back. -/
def maxFindings : Nat := 32

/-- Why an audit has no answer. -/
inductive Unverified
  | windowTooLarge
  | nothingChained

/-- What an audit may find. -/
inductive ChainFinding
  /-- Two events claim one position. -/
  | forked (seq : Nat) (first second : EventId) (firstHash secondHash : ChainHash)
  /-- A record names another hash than that of the record before it. -/
  | brokenLink (seq : Nat) (declared computed : ChainHash)
  | incomplete (fromSeq missing : Nat)
  | unverified (why : Unverified)

/-- Whether a finding says that a store's log disagrees with itself. -/
def ChainFinding.isTampering : ChainFinding → Bool
  | .forked _ _ _ _ _ | .brokenLink _ _ _ => true
  | .incomplete _ _ | .unverified _ => false

/-- Findings, as many as are kept and how many there were. -/
structure Findings where
  kept : List ChainFinding
  total : Nat

namespace Findings

def empty : Findings := ⟨[], 0⟩

/-- A finding is counted, and kept while there is room. -/
def push (findings : Findings) (finding : ChainFinding) : Findings where
  kept := if findings.kept.length < maxFindings then findings.kept ++ [finding] else findings.kept
  total := u64SaturatingAdd findings.total 1

def pushAll (findings : Findings) (more : List ChainFinding) : Findings := more.foldl push findings

end Findings

/-- What an audit answers. -/
structure ChainAudit where
  fromSeq : Nat
  toSeq : Nat
  checked : Nat
  findings : List ChainFinding
  found : Nat

namespace ChainAudit

/-- Whether a finding accuses somebody. -/
def foundTampering (audit : ChainAudit) : Bool := audit.findings.any ChainFinding.isTampering

def unverified (fromSeq toSeq : Nat) (why : Unverified) : ChainAudit :=
  ⟨fromSeq, toSeq, 0, [.unverified why], 1⟩

end ChainAudit

/-- The record as the store published it, with no owner. -/
def EventEnvelope.published (event : EventEnvelope RawPayload) : EventEnvelope RawPayload :=
  { event with tenantId := ⟨0⟩, brandId := ⟨0⟩ }

/-- The events the cloud holds, by their position. -/
abbrev Positions := Std.ExtTreeMap Nat (EventEnvelope RawPayload)

section

variable (serde : Serde) (digest : String → ChainHash)

/-- Whether a record hashes to what is expected, as it is held or as it was published; else what it
    hashes to. One that cannot be written is passed over. -/
def hashesTo (event : EventEnvelope RawPayload) (link : ChainLink) (expected : ChainHash) :
    Except ChainHash Unit :=
  match event.chainHash serde digest link with
  | none => .ok ()
  | some held =>
    if held = expected then .ok ()
    else
      match event.published.chainHash serde digest link with
      | some stamped => if stamped = expected then .ok () else .error stamped
      | none => .error held

/-- What a fork says a record hashes to. -/
def forkHash (event : EventEnvelope RawPayload) : ChainHash :=
  (event.chain.bind fun link => event.chainHash serde digest link).getD .genesis

/-- The finding of two events at one position. -/
def forkOf (seq : Nat) (held event : EventEnvelope RawPayload) : ChainFinding :=
  if held.eventId < event.eventId then
    .forked seq held.eventId event.eventId (forkHash serde digest held)
      (forkHash serde digest event)
  else
    .forked seq event.eventId held.eventId (forkHash serde digest event)
      (forkHash serde digest held)

/-- Give an event of the window its position. Of two events that claim one, the lower id has it. -/
def indexEvent (fromSeq toSeq : Nat) (state : Findings × Positions)
    (event : EventEnvelope RawPayload) : Findings × Positions :=
  match event.chain with
  | none => state
  | some link =>
    if link.seq < fromSeq ∨ toSeq < link.seq then state
    else
      match state.2[link.seq]? with
      | none => (state.1, state.2.insert link.seq event)
      | some held =>
        if held.eventId = event.eventId then state
        else
          (state.1.push (forkOf serde digest link.seq held event),
            if event.eventId < held.eventId then state.2.insert link.seq event else state.2)

/-- The records by position, and the forks among them. -/
def indexByPosition (window : List (EventEnvelope RawPayload)) (fromSeq toSeq : Nat) :
    Findings × Positions :=
  window.foldl (indexEvent serde digest fromSeq toSeq) (.empty, ∅)

/-- What is missing of a window. -/
def gapFinding (held : Positions) (fromSeq toSeq : Nat) : Option ChainFinding :=
  let expected := u64SaturatingAdd (toSeq - fromSeq) 1
  if expected ≤ held.size then none
  else
    let lowestMissing := ((List.range' fromSeq (toSeq + 1 - fromSeq)).find? fun seq =>
      !held.contains seq).getD fromSeq
    some (.incomplete lowestMissing (expected - held.size))

/-- The link of a record, against the record the cloud holds before it. Where it holds none there is
    nothing to compare. -/
def linkFinding (held : Positions) (seq : Nat) (event : EventEnvelope RawPayload) :
    Option ChainFinding :=
  match event.chain, if seq = 0 then none else held[seq - 1]? with
  | some link, some previous =>
    match previous.chain with
    | some previousLink =>
      match hashesTo serde digest previous previousLink link.prevHash with
      | .error computed => some (.brokenLink seq link.prevHash computed)
      | .ok _ => none
    | none => none
  | _, _ => none

/-- The head that an anchor claims, against the record the cloud holds there. -/
def headFinding (held : Positions) (toSeq : Nat) (claimedHead : ChainHash) : Option ChainFinding :=
  match held[toSeq]? with
  | some headEvent =>
    match headEvent.chain with
    | some link =>
      match hashesTo serde digest headEvent link claimedHead with
      | .error computed => some (.brokenLink toSeq claimedHead computed)
      | .ok _ => none
    | none => none
  | none => none

/-- Each record, against the one before it. -/
def walkLinks (held : Positions) : List ChainFinding :=
  held.toList.filterMap fun entry => linkFinding serde digest held entry.1 entry.2

/-- Recompute the chain that the events of a window make, and compare it with the head that is
    claimed. -/
def auditWindow (window : List (EventEnvelope RawPayload)) (fromSeq toSeq : Nat)
    (claimedHead : ChainHash) : ChainAudit :=
  if toSeq < fromSeq then .unverified fromSeq toSeq .nothingChained
  else if maxWindow < u64SaturatingAdd (toSeq - fromSeq) 1 then
    .unverified fromSeq toSeq .windowTooLarge
  else
    let (forks, held) := indexByPosition serde digest window fromSeq toSeq
    if held.isEmpty then .unverified fromSeq toSeq .nothingChained
    else
      let findings := ((forks.pushAll (gapFinding held fromSeq toSeq).toList).pushAll
        (walkLinks serde digest held)).pushAll
          (headFinding serde digest held toSeq claimedHead).toList
      ⟨fromSeq, toSeq, held.size, findings.kept, findings.total⟩

end

end PosFramework
