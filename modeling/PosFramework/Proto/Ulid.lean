import PosFramework.Lib.Fallible

set_option autoImplicit false

/-! # Ulids and their texts

An identifier is a number of 128 bits. Its text is twenty-six digits in base 32, the highest first,
of an alphabet in which bytes order as the digits they stand for. The parser reads letters in either
case, so the texts of one identifier are those that differ in the case of letters only. -/

namespace PosFramework

open Fallible List

/-- A 128-bit, time-sortable identifier. -/
abbrev Ulid := Fin (2 ^ 128)

namespace Ulid

/-- The identifier of a time of 48 bits and a random part of 80. -/
def fromParts (timestampMs randomness : Nat) : Ulid :=
  ⟨timestampMs % 2 ^ 48 * 2 ^ 80 + randomness % 2 ^ 80, by omega⟩

def timestampMs (id : Ulid) : Nat := id.val >>> 80

/-- A digit of the text, in Crockford base 32. -/
def encodeDigit (value : Nat) : UInt8 :=
  .ofNat <|
    if value ≤ 9 then 48 + value
    else if value ≤ 17 then 65 + (value - 10)
    else if value ≤ 19 then 74 + (value - 18)
    else if value ≤ 21 then 77 + (value - 20)
    else if value ≤ 26 then 80 + (value - 22)
    else if value ≤ 31 then 86 + (value - 27)
    else 48

/-- What a character stands for. -/
def decodeDigit (c : UInt8) : Option Nat :=
  let c := c.toNat
  if 48 ≤ c ∧ c ≤ 57 then some (c - 48)
  else if 65 ≤ c ∧ c ≤ 72 then some (c - 65 + 10)
  else if 74 ≤ c ∧ c ≤ 75 then some (c - 74 + 18)
  else if 77 ≤ c ∧ c ≤ 78 then some (c - 77 + 20)
  else if 80 ≤ c ∧ c ≤ 84 then some (c - 80 + 22)
  else if 86 ≤ c ∧ c ≤ 90 then some (c - 86 + 27)
  else none

/-- The digits that are left to write. -/
def displayFrom : Nat → Nat → List UInt8
  | 0, _ => []
  | left + 1, value => encodeDigit ((value >>> (5 * left)) % 32) :: displayFrom left value

/-- An id, as text. -/
def display (id : Ulid) : List UInt8 := displayFrom 26 id

def toAsciiUppercase (c : UInt8) : UInt8 := if 97 ≤ c ∧ c ≤ 122 then c - 32 else c

inductive Error
  | length (found : Nat)
  | character (index : Nat) (found : UInt8)
  | overflow
deriving DecidableEq

/-- The loop over the bytes of a text. -/
def parseFrom : Nat → Nat → List UInt8 → Except Error Nat
  | _, value, [] => .ok value
  | index, value, raw :: rest =>
    match decodeDigit (toAsciiUppercase raw) with
    | none => .error (.character index raw)
    | some digit =>
      if index = 0 ∧ 7 < digit then .error .overflow
      else parseFrom (index + 1) (value * 32 + digit) rest

/-- Text, as an id. -/
def fromStr (text : List UInt8) : Except Error Ulid :=
  if text.length ≠ 26 then .error (.length text.length)
  else Fin.ofNat (2 ^ 128) <$> parseFrom 0 0 text

/-! ## Digits -/

/-- A byte of the alphabet, in either case of its letters. -/
def IsDigit (c : UInt8) : Prop := (decodeDigit (toAsciiUppercase c)).isSome = true

/-- The number a text stands for in base 32. -/
def valueOf : List UInt8 → Nat
  | [] => 0
  | c :: rest => (decodeDigit (toAsciiUppercase c)).getD 0 * 32 ^ rest.length + valueOf rest

theorem encode_decode : ∀ c : UInt8, ∀ digit ∈ decodeDigit (toAsciiUppercase c),
    digit < 32 ∧ encodeDigit digit = toAsciiUppercase c := by
  decide +kernel

theorem decode_encode : ∀ digit < 32,
    decodeDigit (toAsciiUppercase (encodeDigit digit)) = some digit ∧
    toAsciiUppercase (encodeDigit digit) = encodeDigit digit := by
  decide +kernel

theorem encode_lt_iff : ∀ a < 32, ∀ b < 32, (encodeDigit a < encodeDigit b ↔ a < b) ∧
    (encodeDigit a = encodeDigit b ↔ a = b) := by
  decide +kernel

theorem valueOf_lt (text : List UInt8) : valueOf text < 32 ^ text.length := by
  induction text with
  | nil => exact Nat.one_pos
  | cons c rest ih =>
    have hdigit : (decodeDigit (toAsciiUppercase c)).getD 0 < 32 := by
      cases h : decodeDigit (toAsciiUppercase c) with
      | none => exact Nat.succ_pos _
      | some digit => exact (encode_decode c digit h).1
    rw [valueOf, length_cons, pow_succ]
    nlinarith

theorem displayFrom_succ (left value : Nat) :
    displayFrom (left + 1) value = encodeDigit (value / 32 ^ left % 32) ::
      displayFrom left value := by
  rw [displayFrom, Nat.shiftRight_eq_div_pow, pow_mul]
  rfl

theorem displayFrom_add (left high value : Nat) :
    displayFrom left (32 ^ left * high + value) = displayFrom left value := by
  induction left generalizing high with
  | zero => rfl
  | succ left ih =>
    have htail := ih (32 * high)
    rw [← mul_assoc, ← pow_succ] at htail
    rw [displayFrom_succ, displayFrom_succ, htail, pow_succ, mul_assoc,
      Nat.mul_add_div (by positivity), Nat.mul_add_mod]

variable {text : List UInt8} {id : Ulid}

/-- A text of digits is, but for case, what its number is displayed as. -/
theorem displayFrom_valueOf (h : ∀ c ∈ text, IsDigit c) :
    displayFrom text.length (valueOf text) = text.map toAsciiUppercase := by
  induction text with
  | nil => rfl
  | cons c rest ih =>
    rw [forall_mem_cons] at h
    obtain ⟨digit, hdigit⟩ := Option.isSome_iff_exists.1 h.1
    obtain ⟨hlt, hencode⟩ := encode_decode c digit hdigit
    have htop : valueOf (c :: rest) = 32 ^ rest.length * digit + valueOf rest := by
      rw [valueOf, hdigit, Option.getD_some, mul_comm]
    rw [length_cons, displayFrom_succ, htop, displayFrom_add, ih h.2,
      Nat.mul_add_div (by positivity), Nat.div_eq_of_lt (valueOf_lt rest), add_zero,
      Nat.mod_eq_of_lt hlt, hencode, map_cons]

theorem valueOf_displayFrom (left value : Nat) :
    (displayFrom left value).length = left ∧ (∀ c ∈ displayFrom left value, IsDigit c) ∧
      valueOf (displayFrom left value) = value % 32 ^ left := by
  induction left with
  | zero => exact ⟨rfl, fun _ h => absurd h not_mem_nil, (Nat.mod_one value).symm⟩
  | succ left ih =>
    obtain ⟨hlength, hdigits, hvalue⟩ := ih
    have hdecode := (decode_encode (value / 32 ^ left % 32) (Nat.mod_lt _ (by decide))).1
    rw [displayFrom_succ, valueOf, hdecode, hlength, hvalue, forall_mem_cons, Nat.mod_pow_succ]
    refine ⟨congrArg _ hlength, ⟨?_, hdigits⟩, ?_⟩
    · rw [IsDigit, hdecode, Option.isSome_some]
    · rw [Option.getD_some, mul_comm, add_comm]

theorem parseFrom_eq_ok {index value parsed : Nat} :
    parseFrom (index + 1) value text = .ok parsed ↔
      (∀ c ∈ text, IsDigit c) ∧ parsed = value * 32 ^ text.length + valueOf text := by
  induction text generalizing index value with
  | nil => simp [parseFrom, valueOf, eq_comm]
  | cons c rest ih =>
    rw [parseFrom, forall_mem_cons, IsDigit, valueOf]
    cases decodeDigit (toAsciiUppercase c) with
    | none => simp
    | some digit =>
      simp only [Nat.succ_ne_zero, false_and, if_false, ih, Option.isSome_some, true_and,
        Option.getD_some, length_cons, pow_succ]
      rw [show (value * 32 + digit) * 32 ^ rest.length + valueOf rest =
        value * (32 ^ rest.length * 32) + (digit * 32 ^ rest.length + valueOf rest) by ring]

/-- Past seven the first digit alone is past 128 bits. -/
theorem parseFrom_zero_eq_ok {parsed : Nat} (hlength : text.length = 26) :
    parseFrom 0 0 text = .ok parsed ↔
      (∀ c ∈ text, IsDigit c) ∧ parsed = valueOf text ∧ valueOf text < 2 ^ 128 := by
  obtain ⟨first, rest, rfl⟩ := exists_cons_of_length_eq_add_one hlength
  have hrest : rest.length = 25 := Nat.succ.inj hlength
  have hlt : valueOf rest < 32 ^ 25 := hrest ▸ valueOf_lt rest
  rw [parseFrom, forall_mem_cons, IsDigit, valueOf, hrest]
  cases decodeDigit (toAsciiUppercase first) with
  | none => simp
  | some digit =>
    have hfits : digit * 32 ^ 25 + valueOf rest < 2 ^ 128 ↔ ¬ 7 < digit := by omega
    rw [Option.getD_some, hfits]
    by_cases hhigh : 7 < digit
    · simp [hhigh]
    · simp [hhigh, parseFrom_eq_ok, hrest]

/-- The parser reads the texts of twenty-six digits that stand for a number of 128 bits. -/
theorem fromStr_eq_ok :
    fromStr text = .ok id ↔
      text.length = 26 ∧ (∀ c ∈ text, IsDigit c) ∧ valueOf text = id.val := by
  rw [fromStr]
  by_cases hlength : text.length = 26
  · rw [if_neg (not_not.2 hlength), map_eq_ok]
    simp only [parseFrom_zero_eq_ok hlength, hlength, true_and]
    constructor
    · rintro ⟨_, ⟨hdigits, rfl, hfits⟩, rfl⟩
      exact ⟨hdigits, (Nat.mod_eq_of_lt hfits).symm⟩
    · rintro ⟨hdigits, hvalue⟩
      have hfits := hvalue ▸ id.isLt
      exact ⟨_, ⟨hdigits, rfl, hfits⟩, Fin.ext ((Nat.mod_eq_of_lt hfits).trans hvalue)⟩
  · simp [hlength]

theorem fromStr_display (id : Ulid) : fromStr (display id) = .ok id := by
  obtain ⟨hlength, hdigits, hvalue⟩ := valueOf_displayFrom 26 id
  exact fromStr_eq_ok.2 ⟨hlength, hdigits, hvalue.trans (Nat.mod_eq_of_lt (by omega))⟩

theorem display_of_fromStr (h : fromStr text = .ok id) :
    text.map toAsciiUppercase = display id := by
  obtain ⟨hlength, hdigits, hvalue⟩ := fromStr_eq_ok.1 h
  rw [← displayFrom_valueOf hdigits, hlength, hvalue, display]

theorem higher_digit_first {unit high high' low low' : Nat} (h : low < unit) (h' : low' < unit) :
    (high < high' ∨ high = high' ∧ low < low') ↔ low + unit * high < low' + unit * high' := by
  rcases lt_trichotomy high high' with hlt | rfl | hgt
  · have hmul : unit * (high + 1) ≤ unit * high' := Nat.mul_le_mul_left _ hlt
    simp only [hlt, true_or, true_iff]
    linarith
  · simp
  · have hmul : unit * (high' + 1) ≤ unit * high := Nat.mul_le_mul_left _ hgt
    simp only [hgt.not_gt, hgt.ne', false_and, or_self, false_iff, not_lt]
    linarith

theorem displayFrom_lt_iff (left a b : Nat) :
    displayFrom left a < displayFrom left b ↔ a % 32 ^ left < b % 32 ^ left := by
  induction left with
  | zero => simp [displayFrom, Nat.mod_one]
  | succ left ih =>
    have hdigits := encode_lt_iff (a / 32 ^ left % 32) (Nat.mod_lt _ (by decide))
      (b / 32 ^ left % 32)
      (Nat.mod_lt _ (by decide))
    rw [displayFrom_succ, displayFrom_succ, cons_lt_cons_iff, hdigits.1, hdigits.2, ih,
      Nat.mod_pow_succ, Nat.mod_pow_succ]
    exact higher_digit_first (Nat.mod_lt _ (by positivity)) (Nat.mod_lt _ (by positivity))

theorem display_lt_iff {another : Ulid} : display id < display another ↔ id < another := by
  rw [display, display, displayFrom_lt_iff, Nat.mod_eq_of_lt (by omega),
    Nat.mod_eq_of_lt (by omega)]
  rfl

/-- An identifier is read back from its display; the parser reads the texts of twenty-six digits
    whose number fits 128 bits; displays order as their identifiers; and two texts that are read
    stand for two identifiers at exactly the texts that differ in more than the case of their
    letters. -/
theorem text_stands_for_one_iff (id another : Ulid) (text text' : List UInt8) :
    fromStr (display id) = .ok id ∧
    ((∃ read, fromStr text = .ok read) ↔
      text.length = 26 ∧ (∀ c ∈ text, IsDigit c) ∧ valueOf text < 2 ^ 128) ∧
    (display id < display another ↔ id < another) ∧
    (fromStr text = .ok id → fromStr text' = .ok another →
      ((text ≠ text' → id ≠ another) ↔
        (text ≠ text' → text.map toAsciiUppercase ≠ text'.map toAsciiUppercase))) := by
  refine ⟨fromStr_display id, ?_, display_lt_iff, fun h h' => ?_⟩
  · simp only [fromStr_eq_ok]
    exact ⟨fun ⟨read, hlength, hdigits, hvalue⟩ => ⟨hlength, hdigits, hvalue ▸ read.isLt⟩,
      fun ⟨hlength, hdigits, hlt⟩ => ⟨⟨_, hlt⟩, hlength, hdigits, rfl⟩⟩
  · have hsame : display id = display another ↔ id = another :=
      ⟨fun heq => Except.ok.inj <| by rw [← fromStr_display id, heq, fromStr_display],
        congrArg display⟩
    rw [display_of_fromStr h, display_of_fromStr h', Ne, Ne, Ne, hsame]

/-- The two texts of the highest identifier that the tests read, in capitals and in small
    letters. -/
theorem highest_has_two_texts :
    let capitals : List UInt8 := 55 :: List.replicate 25 90
    let small : List UInt8 := 55 :: List.replicate 25 122
    capitals ≠ small ∧ fromStr capitals = .ok (Fin.last _) ∧ fromStr small = .ok (Fin.last _) := by
  decide +kernel

end Ulid

end PosFramework
