import PosFramework.Proto.Envelope

set_option autoImplicit false

/-! # Sample records

Ten records to try the chain on, with JSON read and written as it is for them. Any other record is
written as a number that encodes it. -/

namespace PosFramework

open Function List

/-! ## Encoding -/

instance encodableChar : Encodable Char :=
  Encodable.ofLeftInjection Char.toNat (fun n => some (Char.ofNat n)) fun c => by
    rw [Char.ofNat_toNat]

instance encodableString : Encodable String :=
  Encodable.ofLeftInjection String.toList (fun chars => some (String.ofList chars)) fun s => by
    rw [String.ofList_toList]

deriving instance Encodable for ResourceId
deriving instance Encodable for Timestamp
deriving instance Encodable for BusinessDate
deriving instance Encodable for ChainHash
deriving instance Encodable for ChainLink
deriving instance Encodable for EventEnvelope

/-! ## The samples -/

/-- A JSON text without the blanks outside its strings. -/
def compact (quoted : Bool) : List Char → List Char
  | [] => []
  | c :: rest =>
    if c = ' ' ∧ quoted = false then compact quoted rest
    else c :: compact (if c = '"' then !quoted else quoted) rest

/-- An event of a store, as its edge writes it: the owner is not known there. -/
def sampleEvent (n : Nat) (json : String) : EventEnvelope RawPayload where
  eventId := ⟨n⟩
  eventType := "sales.table.closed"
  eventTime := ⟨0⟩
  businessDate := ⟨0⟩
  schemaVersion := 1
  tenantId := ⟨0⟩
  brandId := ⟨0⟩
  storeId := ⟨9⟩
  deviceId := ⟨8⟩
  employeeId := none
  shiftId := none
  chain := none
  data := ⟨json⟩

/-- The payload of a sample, in as few characters as it takes. -/
def sampleJson : String := "\x7b\"a\":1\x7d"

/-- The same payload with a blank in it. -/
def spacedJson : String := "\x7b\"a\": 1\x7d"

def sampleRecord (n : Nat) : EventEnvelope String := (sampleEvent n sampleJson).withData sampleJson

def sampleTextBefore : String :=
  "\x7b\"brand_id\":\"00000000000000000000000000\",\"business_date\":\"1970-01-01\"," ++
  "\"data\":\x7b\"a\":1\x7d,\"device_id\":\"00000000000000000000000008\"," ++
  "\"event_id\":\"0000000000000000000000000"

def sampleTextAfter : String :=
  "\",\"event_time\":\"1970-01-01T00:00:00Z\",\"event_type\":\"sales.table.closed\"," ++
  "\"schema_version\":1,\"store_id\":\"00000000000000000000000009\"," ++
  "\"tenant_id\":\"00000000000000000000000000\"\x7d"

/-- The JSON of a sample whose number has one digit. -/
def sampleText (n : Nat) : String := sampleTextBefore ++ n.repr ++ sampleTextAfter

def writeSample (record : EventEnvelope String) : String :=
  if record.eventId.ulid < 10 ∧ record = sampleRecord record.eventId.ulid then
    sampleText record.eventId.ulid
  else (Encodable.encode record).repr

theorem sampleText_injective : Injective sampleText := by
  intro n m h
  have hchars := congrArg String.toList h
  simp only [sampleText, String.toList_append, append_assoc] at hchars
  have hdigits := append_cancel_right (append_cancel_left hchars)
  exact Nat.repr_inj.1 (String.toList_injective hdigits)

theorem sampleText_ne_repr (n k : Nat) : sampleText n ≠ k.repr := by
  intro h
  have hbrace : '\x7b' ∈ (sampleText n).toList := by
    have hbefore : '\x7b' ∈ sampleTextBefore.toList := by decide +kernel
    simp [sampleText, String.toList_append, hbefore]
  rw [h] at hbrace
  have hdigit := Nat.isDigit_of_mem_toDigits (by decide : 0 < 10) (le_refl 10)
    (by simpa [Nat.repr] using hbrace : '\x7b' ∈ Nat.toDigits 10 k)
  exact absurd hdigit (by decide)

theorem writeSample_injective : Injective writeSample := by
  intro a b h
  unfold writeSample at h
  by_cases ha : a.eventId.ulid < 10 ∧ a = sampleRecord a.eventId.ulid
  · by_cases hb : b.eventId.ulid < 10 ∧ b = sampleRecord b.eventId.ulid
    · rw [if_pos ha, if_pos hb] at h
      rw [ha.2, hb.2, sampleText_injective h]
    · rw [if_pos ha, if_neg hb] at h
      exact absurd h (sampleText_ne_repr _ _)
  · by_cases hb : b.eventId.ulid < 10 ∧ b = sampleRecord b.eventId.ulid
    · rw [if_neg ha, if_pos hb] at h
      exact absurd h.symm (sampleText_ne_repr _ _)
    · rw [if_neg ha, if_neg hb] at h
      exact Encodable.encode_injective (Nat.repr_inj.1 h)

theorem newline_notMem_writeSample (record : EventEnvelope String) :
    '\n' ∉ (writeSample record).toList := by
  unfold writeSample
  split
  · have hbefore : '\n' ∉ sampleTextBefore.toList := by decide +kernel
    have hafter : '\n' ∉ sampleTextAfter.toList := by decide +kernel
    simp only [sampleText, String.toList_append, mem_append, not_or]
    exact ⟨⟨hbefore, newline_notMem_repr _⟩, hafter⟩
  · exact newline_notMem_repr _

/-- JSON on the samples. -/
def Serde.sample : Serde where
  Value := String
  value payload := some (String.ofList (compact false payload.json.toList))
  write := writeSample
  write_injective := writeSample_injective
  newline_notMem_write := newline_notMem_writeSample

/-- A digest that tells any two texts apart: the text itself. -/
def textDigest (text : String) : ChainHash := ⟨text⟩

theorem textDigest_injective : Injective textDigest := by
  intro a b h
  exact congrArg ChainHash.hex h

/-- The hash a chain of samples ends on. -/
def sampleHead : Nat → ChainHash
  | 0 => .genesis
  | n + 1 => textDigest (preimage ⟨n + 1, sampleHead n⟩ (sampleText (n + 1)))

/-- A sample in its place of a chain of them. -/
def chainedSample (seq : Nat) (json : String) : EventEnvelope RawPayload :=
  { sampleEvent seq json with chain := some ⟨seq, sampleHead (seq - 1)⟩ }

end PosFramework
