import PosFramework.Proto.Ulid

set_option autoImplicit false

/-! # Minting ids

A store mints an id from the clock and a random part. Within one millisecond, and while the clock is
behind, the random part counts up; when it runs out the millisecond moves on. So ids increase until
the millisecond itself runs out of its 48 bits. -/

namespace PosFramework

open List

/-- Where ids come from: every one is greater than the ones before it. -/
structure IdSource where
  mint : Nat → Nat
  increasing : StrictMono mint

/-- A source of ids that increase, and of greater ones after them. -/
def IdSource.following (ids : List Nat) (hids : ids.Pairwise (· < ·)) : IdSource where
  mint n := ids.getD n (ids.sum + n + 1)
  increasing := by
    refine strictMono_nat_of_lt_succ fun n => ?_
    rcases Nat.lt_or_ge (n + 1) ids.length with hnext | hlast
    · rw [getD_eq_getElem _ _ hnext, getD_eq_getElem _ _ (Nat.lt_of_succ_lt hnext)]
      exact pairwise_iff_getElem.1 hids _ _ _ hnext n.lt_succ_self
    · rw [getD_eq_default _ _ hlast]
      rcases Nat.lt_or_ge n ids.length with hn | hn
      · rw [getD_eq_getElem _ _ hn]
        have hle := le_sum_of_mem (getElem_mem hn)
        omega
      · rw [getD_eq_default _ _ hn]
        omega

namespace SplitMix64

/-- The next number of the stream and the state after it. -/
def nextU64 (state : BitVec 64) : BitVec 64 × BitVec 64 :=
  let state := state + 0x9E3779B97F4A7C15#64
  let z := (state ^^^ (state >>> 30)) * 0xBF58476D1CE4E5B9#64
  let z := (z ^^^ (z >>> 27)) * 0x94D049BB133111EB#64
  (z ^^^ (z >>> 31), state)

end SplitMix64

/-- The generator's state. -/
structure EdgeIdGenerator where
  rng : BitVec 64
  lastMs : Nat
  lastRandom : BitVec 80

namespace EdgeIdGenerator

/-- A generator as it starts. -/
def seeded (seed : BitVec 64) : EdgeIdGenerator := ⟨seed, 0, 0⟩

/-- A fresh random part and the state of the stream after it. -/
def freshRandom (generator : EdgeIdGenerator) : BitVec 80 × BitVec 64 :=
  let (high, rng) := SplitMix64.nextU64 generator.rng
  let (low, rng) := SplitMix64.nextU64 rng
  ((high ++ low).setWidth 80, rng)

/-- The generator after an id: what the id is made of. -/
def advance (generator : EdgeIdGenerator) (now : Int) : EdgeIdGenerator :=
  let ms := max now.toNat generator.lastMs
  let (random, rng) := generator.freshRandom
  if ms = generator.lastMs then
    let next := generator.lastRandom + 1#80
    if next = 0#80 then ⟨rng, min (ms + 1) (2 ^ 64 - 1), random⟩ else ⟨generator.rng, ms, next⟩
  else ⟨rng, ms, random⟩

/-- The next id, by the clock's reading. -/
def nextId (generator : EdgeIdGenerator) (now : Int) : Ulid × EdgeIdGenerator :=
  let generator := generator.advance now
  (.fromParts generator.lastMs generator.lastRandom.toNat, generator)

/-- The ids minted at a sequence of clock readings, and the generator after them. -/
def mint : EdgeIdGenerator → List Int → List Ulid × EdgeIdGenerator
  | generator, [] => ([], generator)
  | generator, now :: rest =>
    let (id, generator) := generator.nextId now
    let (ids, generator) := generator.mint rest
    (id :: ids, generator)

/-- After every id the generator's millisecond is one of 48 bits. -/
def KeepsTime : EdgeIdGenerator → List Int → Prop
  | _, [] => True
  | generator, now :: rest =>
    (generator.advance now).lastMs < 2 ^ 48 ∧ (generator.advance now).KeepsTime rest

/-- Where a generator stands. -/
def mark (generator : EdgeIdGenerator) : Nat :=
  generator.lastMs * 2 ^ 80 + generator.lastRandom.toNat

variable (generator : EdgeIdGenerator) (now : Int)

/-- An id moves the generator on, past the clock. -/
theorem advance_mark (htime : (generator.advance now).lastMs < 2 ^ 48) :
    generator.mark < (generator.advance now).mark ∧ now ≤ (generator.advance now).lastMs := by
  unfold advance at htime ⊢
  dsimp only at htime ⊢
  split at htime
  · next hsame =>
    rw [if_pos hsame]
    split at htime
    · next hwrapped =>
      rw [if_pos hwrapped]
      dsimp only [mark] at htime ⊢
      omega
    · next hnext =>
      have hadd : (generator.lastRandom + 1#80).toNat =
          generator.lastRandom.toNat + 1 := by
        bv_omega
      rw [if_neg hnext]
      dsimp only [mark]
      omega
  · next hlater =>
    rw [if_neg hlater]
    dsimp only [mark]
    omega

variable {generator now} {readings : List Int}

theorem nextId_val (htime : (generator.advance now).lastMs < 2 ^ 48) :
    (generator.nextId now).1.val = (generator.advance now).mark ∧
      (generator.nextId now).1.timestampMs = (generator.advance now).lastMs := by
  dsimp only [nextId, Ulid.timestampMs, Ulid.fromParts, mark]
  omega

theorem mint_cons (generator : EdgeIdGenerator) (now : Int) (rest : List Int) :
    (generator.mint (now :: rest)).1 =
      (generator.nextId now).1 :: ((generator.advance now).mint rest).1 := rfl

/-- Every id of a run is past where the generator stood, past the ids before it and past the
    clock. -/
theorem mint_increasing (htime : generator.KeepsTime readings) :
    (∀ id ∈ (generator.mint readings).1, generator.mark < id.val) ∧
      (generator.mint readings).1.Pairwise (· < ·) ∧
      Forall₂ (fun now id => now ≤ (id.timestampMs : ℤ)) readings (generator.mint readings).1 := by
  induction readings generalizing generator with
  | nil => exact ⟨fun _ h => absurd h not_mem_nil, .nil, .nil⟩
  | cons now rest ih =>
    obtain ⟨hlater, hclock⟩ := advance_mark generator now htime.1
    obtain ⟨hval, hms⟩ := nextId_val htime.1
    obtain ⟨hpast, hpairwise, hclocks⟩ := ih htime.2
    rw [mint_cons, forall_mem_cons, pairwise_cons, forall₂_cons, hms, hval]
    refine ⟨⟨hlater, fun id hid => hlater.trans (hpast id hid)⟩,
      ⟨fun id hid => ?_, hpairwise⟩, hclock,
      hclocks⟩
    rw [Fin.lt_def, hval]
    exact hpast id hid

/-- The ids of a generator that keeps to 48 bits are the first ones of a source. -/
theorem exists_idSource (htime : generator.KeepsTime readings) :
    ∃ ids : IdSource, ∀ n id, (generator.mint readings).1[n]? = some id → ids.mint n = id.val := by
  have hincreasing : ((generator.mint readings).1.map Fin.val).Pairwise (· < ·) :=
    pairwise_map.2 (mint_increasing htime).2.1
  refine ⟨.following _ hincreasing, fun n id hid => ?_⟩
  simp [IdSource.following, hid]

/-- While the generator's millisecond is one of 48 bits, the ids of any seed and clock strictly
    increase, each has a time the clock had reached, and their texts are in the same order. -/

theorem ids_increase (seed : BitVec 64) (readings : List Int)
    (htime : (seeded seed).KeepsTime readings) :
    ((seeded seed).mint readings).1.Pairwise (· < ·) ∧
    Forall₂ (fun now id => now ≤ (id.timestampMs : ℤ)) readings ((seeded seed).mint readings).1 ∧
    (((seeded seed).mint readings).1.map Ulid.display).Pairwise (· < ·) := by
  obtain ⟨-, hpairwise, hclocks⟩ := mint_increasing htime
  exact ⟨hpairwise, hclocks, pairwise_map.2 (hpairwise.imp Ulid.display_lt_iff.2)⟩

theorem ids_increase_clockSetBack :
    let readings := [1000, 1000, 10]
    (seeded 7).KeepsTime readings ∧
    (((seeded 7).mint readings).1.map Ulid.display).Pairwise (· < ·) :=
  have htime : (seeded 7).KeepsTime [1000, 1000, 10] := by
    simp only [KeepsTime]
    decide +kernel
  ⟨htime, (ids_increase 7 _ htime).2.2⟩

/-- Once the random part has run out in the last millisecond of the range, an id starts from
    zero. -/
theorem mint_wraps {generator : EdgeIdGenerator} {left : Nat} (hms : generator.lastMs = 2 ^ 48 - 1)
    (hleft : generator.lastRandom.toNat + left + 1 = 2 ^ 80) :
    ∃ id ∈ (generator.mint (replicate (left + 1) (2 ^ 48 - 1))).1, id.val < 2 ^ 80 := by
  rw [replicate_succ, mint_cons]
  induction left generalizing generator with
  | zero =>
    have hwrapped : generator.lastRandom + 1#80 = 0#80 := by bv_omega
    refine ⟨_, mem_cons_self, ?_⟩
    simp only [nextId, advance, hms, hwrapped, Ulid.fromParts]
    simp
    omega
  | succ left ih =>
    have hnext : generator.lastRandom + 1#80 ≠ 0#80 := by bv_omega
    have hadvance : generator.advance (2 ^ 48 - 1) =
        ⟨generator.rng, 2 ^ 48 - 1, generator.lastRandom + 1#80⟩ := by
      simp [advance, hms, hnext]
    obtain ⟨id, hid, hlt⟩ := @ih (generator.advance (2 ^ 48 - 1)) (by rw [hadvance])
      (by rw [hadvance]; bv_omega)
    exact ⟨id, mem_cons_of_mem _ hid, hlt⟩

/-- As many ids as the random part can count, all in the last millisecond of the range. -/
theorem ids_wrap_after_last_millisecond :
    ∃ readings : List Int, (∀ now ∈ readings, now < 2 ^ 48) ∧
      ¬ ((seeded 0).mint readings).1.Pairwise (· < ·) := by
  obtain ⟨first, hfirst⟩ : ∃ first, first = (seeded 0).advance (2 ^ 48 - 1) := ⟨_, rfl⟩
  have hms : first.lastMs = 2 ^ 48 - 1 := hfirst ▸ rfl
  obtain ⟨left, hleft⟩ : ∃ left, first.lastRandom.toNat + left + 1 = 2 ^ 80 :=
    ⟨2 ^ 80 - 1 - first.lastRandom.toNat, by omega⟩
  obtain ⟨id, hid, hlt⟩ := mint_wraps hms hleft
  refine ⟨(2 ^ 48 - 1) :: replicate (left + 1) (2 ^ 48 - 1), by simp, fun hpairwise => ?_⟩
  rw [mint_cons, ← hfirst, pairwise_cons] at hpairwise
  have hbefore := Fin.lt_def.1 (hpairwise.1 id hid)
  rw [(nextId_val (by rw [← hfirst, hms]; decide)).1, ← hfirst, mark, hms] at hbefore
  omega

end EdgeIdGenerator

end PosFramework
