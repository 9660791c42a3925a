import PosFramework.Proto.Ids

set_option autoImplicit false

/-! # Envelopes and their chain

A record of the log as it crosses every channel: its context, the link that says where it sits in
its store's chain, and its payload as received. What a record's chain hash is taken over is decided
here; the digest is the caller's. -/

namespace PosFramework

open List

/-- A chain hash, in hexadecimal. One read back from storage is not validated. -/
structure ChainHash where
  hex : String
deriving DecidableEq

/-- What a store's first record links to. -/
def ChainHash.genesis : ChainHash :=
  ⟨"0000000000000000000000000000000000000000000000000000000000000000"⟩

/-- Where a record sits in its store's chain. -/
structure ChainLink where
  seq : Nat
  prevHash : ChainHash
deriving DecidableEq

/-- The largest 64-bit unsigned integer. -/
def u64Max : Nat := 18446744073709551615

def u64SaturatingAdd (n k : Nat) : Nat := min (n + k) u64Max

/-- The link of a store's first record. -/
def ChainLink.first : ChainLink := ⟨1, .genesis⟩

/-- The link of a record that follows one. -/
def ChainLink.following (seq : Nat) (hash : ChainHash) : ChainLink := ⟨u64SaturatingAdd seq 1, hash⟩

/-- A payload as it arrived: the text of a JSON value. -/
structure RawPayload where
  json : String
deriving DecidableEq

/-- An event, as it is stored and sent. -/
structure EventEnvelope (δ : Type) where
  eventId : EventId
  /-- The token of the event's type, known to this build or not. -/
  eventType : String
  eventTime : Timestamp
  businessDate : BusinessDate
  schemaVersion : Nat
  tenantId : TenantId
  brandId : BrandId
  storeId : StoreId
  deviceId : DeviceId
  employeeId : Option EmployeeId
  shiftId : Option ShiftId
  chain : Option ChainLink
  data : δ
deriving DecidableEq

namespace EventEnvelope

variable {δ τ : Type}

/-- The envelope with another payload. -/
def withData (envelope : EventEnvelope δ) (data : τ) : EventEnvelope τ where
  eventId := envelope.eventId
  eventType := envelope.eventType
  eventTime := envelope.eventTime
  businessDate := envelope.businessDate
  schemaVersion := envelope.schemaVersion
  tenantId := envelope.tenantId
  brandId := envelope.brandId
  storeId := envelope.storeId
  deviceId := envelope.deviceId
  employeeId := envelope.employeeId
  shiftId := envelope.shiftId
  chain := envelope.chain
  data := data

/-- The record without its own link, which it cannot be hashed with. -/
def unchained (envelope : EventEnvelope δ) : EventEnvelope δ := { envelope with chain := none }

end EventEnvelope

/-- How JSON is read and written. A payload's text reads as a value, unless it is nested too deep; a
    record is written on one line, from which the record can be told. -/
structure Serde where
  Value : Type
  value : RawPayload → Option Value
  write : EventEnvelope Value → String
  write_injective : Function.Injective write
  newline_notMem_write : ∀ record, '\n' ∉ (write record).toList

/-- The bytes a chain hash is taken over: the hash before it, its number and the record, on lines of
    their own. -/
def preimage (link : ChainLink) (body : String) : String :=
  link.prevHash.hex ++ "\n" ++ link.seq.repr ++ "\n" ++ body

namespace EventEnvelope

variable (serde : Serde) (envelope : EventEnvelope RawPayload)

/-- The record without its link, with its payload as the value its text reads as. -/
def record : Option (EventEnvelope serde.Value) :=
  (serde.value envelope.data).map fun value => envelope.unchained.withData value

/-- What a record's hash is taken of. -/
def chainPreimage (link : ChainLink) : Option String :=
  (envelope.record serde).map fun record => preimage link (serde.write record)

/-- The record's hash at a link, by the caller's digest; none where it cannot be written. -/
def chainHash (digest : String → ChainHash) (link : ChainLink) : Option ChainHash :=
  (envelope.chainPreimage serde link).map digest

end EventEnvelope

/-! ## What a hash determines -/

/-- A text is split at its last separator in one way. -/
theorem append_cons_inj_of_notMem {α : Type} {sep : α} {front front' tail tail' : List α}
    (htail : sep ∉ tail) (htail' : sep ∉ tail')
    (h : front ++ sep :: tail = front' ++ sep :: tail') : front = front' ∧ tail = tail' := by
  induction front generalizing front' with
  | nil =>
    cases front' with
    | nil => exact ⟨rfl, (cons.inj h).2⟩
    | cons =>
      have hmem : sep ∈ tail := by
        rw [(cons.inj h).2]
        simp
      exact absurd hmem htail
  | cons first rest ih =>
    cases front' with
    | nil =>
      have hmem : sep ∈ tail' := by
        rw [← (cons.inj h).2]
        simp
      exact absurd hmem htail'
    | cons =>
      obtain ⟨rfl, hrest⟩ := cons.inj h
      obtain ⟨rfl, rfl⟩ := ih hrest
      exact ⟨rfl, rfl⟩

theorem newline_notMem_repr (n : Nat) : '\n' ∉ n.repr.toList := by
  intro hmem
  have hdigit := Nat.isDigit_of_mem_toDigits (by decide : 0 < 10) (le_refl 10)
    (by simpa [Nat.repr] using hmem : '\n' ∈ Nat.toDigits 10 n)
  exact absurd hdigit (by decide)

/-- A preimage says which link and which body it is of. The hash a link names may be any text:
    neither the number nor the body has a line of its own in it. -/
theorem preimage_inj {link link' : ChainLink} {body body' : String} (hbody : '\n' ∉ body.toList)
    (hbody' : '\n' ∉ body'.toList) (h : preimage link body = preimage link' body') :
    link = link' ∧ body = body' := by
  have hchars := congrArg String.toList h
  simp only [preimage, String.toList_append, append_assoc] at hchars
  have hnewline : ("\n" : String).toList = ['\n'] := rfl
  rw [hnewline] at hchars
  have hsplit : (link.prevHash.hex.toList ++ '\n' :: link.seq.repr.toList) ++ '\n' :: body.toList =
      (link'.prevHash.hex.toList ++ '\n' :: link'.seq.repr.toList) ++ '\n' :: body'.toList := by
    simpa using hchars
  obtain ⟨hlinks, hbodies⟩ := append_cons_inj_of_notMem hbody hbody' hsplit
  obtain ⟨hprevs, hseqs⟩ := append_cons_inj_of_notMem (newline_notMem_repr _)
    (newline_notMem_repr _)
    hlinks
  refine ⟨?_, String.toList_injective hbodies⟩
  obtain ⟨seq, prevHash⟩ := link
  obtain ⟨seq', prevHash'⟩ := link'
  obtain rfl := Nat.repr_inj.1 (String.toList_injective hseqs)
  obtain ⟨hex'⟩ := prevHash'
  obtain rfl := String.toList_injective hprevs
  rfl

/-- With a digest that tells its inputs apart, a chain hash says what link it was taken at and of
    what record. -/
theorem EventEnvelope.chainHash_inj {serde : Serde} {digest : String → ChainHash}
    (hdigest : Function.Injective digest) {envelope envelope' : EventEnvelope RawPayload}
    {link link' : ChainLink} {hash : ChainHash}
    (h : envelope.chainHash serde digest link = some hash)
    (h' : envelope'.chainHash serde digest link' = some hash) :
    link = link' ∧ ∃ record, envelope.record serde = some record ∧
      envelope'.record serde = some record := by
  unfold chainHash chainPreimage at h h'
  rw [Option.map_map] at h h'
  obtain ⟨record, hrecord, heq⟩ := Option.map_eq_some_iff.1 h
  obtain ⟨record', hrecord', heq'⟩ := Option.map_eq_some_iff.1 h'
  obtain ⟨hlink, hwritten⟩ := preimage_inj (serde.newline_notMem_write record)
    (serde.newline_notMem_write record') (hdigest (heq.trans heq'.symm))
  obtain rfl := serde.write_injective hwritten
  exact ⟨hlink, record, hrecord, hrecord'⟩

end PosFramework
