import PosFramework.Proto.Money

set_option autoImplicit false

/-! # Rounding

What a rounding mode makes of an exact value is stated here by inequalities over the rationals, and
the one rounding primitive is shown to compute it: `divRound` answers the exact quotient rounded as
its mode says wherever that fits, and no step on the way leaves 128 bits. -/

namespace PosFramework

open Fallible BoundedInt

namespace Rounding

/-- The integer a mode rounds an exact value to. -/
def Rounds (mode : Rounding) (x : ℚ) (q : ℤ) : Prop :=
  match mode with
  | .floor => q ≤ x ∧ x < q + 1
  | .ceil => q - 1 < x ∧ x ≤ q
  | .towardZero => (0 ≤ x → q ≤ x ∧ x < q + 1) ∧ (x ≤ 0 → q - 1 < x ∧ x ≤ q)
  | .halfUp => |x - q| ≤ 1 / 2 ∧ (|x - q| = 1 / 2 → |x| < |(q : ℚ)|)
  | .halfEven => |x - q| ≤ 1 / 2 ∧ (|x - q| = 1 / 2 → Even q)

/-- The modes that round to the nearest. -/
def IsHalf (mode : Rounding) : Prop := mode = .halfUp ∨ mode = .halfEven

variable {mode : Rounding} {x : ℚ} {q q' m : ℤ}

/-- A rounded value is less than one away. -/
theorem Rounds.within (h : mode.Rounds x q) : |x - q| < 1 := by
  cases mode with
  | floor => exact abs_lt.2 ⟨by linarith [h.1], by linarith [h.2]⟩
  | ceil => exact abs_lt.2 ⟨by linarith [h.1], by linarith [h.2]⟩
  | towardZero =>
    rcases le_total 0 x with hx | hx
    · exact abs_lt.2 ⟨by linarith [(h.1 hx).1], by linarith [(h.1 hx).2]⟩
    · exact abs_lt.2 ⟨by linarith [(h.2 hx).1], by linarith [(h.2 hx).2]⟩
  | halfUp => linarith [h.1]
  | halfEven => linarith [h.1]

theorem Rounds.le (h : mode.Rounds x q) (hm : (m : ℚ) ≤ x) : m ≤ q := by
  have hlt : (m : ℚ) < q + 1 := by linarith [(abs_lt.1 h.within).2]
  exact Int.lt_add_one_iff.1 (by exact_mod_cast hlt)

theorem Rounds.ge (h : mode.Rounds x q) (hm : x ≤ m) : q ≤ m := by
  have hlt : (q : ℚ) < m + 1 := by linarith [(abs_lt.1 h.within).1]
  exact Int.lt_add_one_iff.1 (by exact_mod_cast hlt)

/-- A value within a half of two neighbours is half way between them. -/
theorem midpoint (h : |x - q| ≤ 1 / 2) (h' : |x - (q + 1 : ℤ)| ≤ 1 / 2) :
    x = q + 1 / 2 ∧ |x - q| = 1 / 2 ∧ |x - (q + 1 : ℤ)| = 1 / 2 := by
  obtain rfl : x = q + 1 / 2 := by
    have hlow := (abs_le.1 h).2
    have hhigh := (abs_le.1 h').1
    push_cast at hhigh
    linarith
  refine ⟨rfl, ?_, ?_⟩
  · rw [add_sub_cancel_left, abs_of_pos one_half_pos]
  · push_cast
    rw [abs_of_neg (by linarith)]
    ring

/-- No mode rounds one value to two neighbours. -/
theorem Rounds.not_succ (h : mode.Rounds x q) : ¬ mode.Rounds x (q + 1) := by
  intro h'
  cases mode with
  | floor => exact absurd h'.1 (by push_cast; linarith [h.2])
  | ceil => exact absurd h'.1 (by push_cast; linarith [h.2])
  | towardZero =>
    rcases le_total 0 x with hx | hx
    · exact absurd (h'.1 hx).1 (by push_cast; linarith [(h.1 hx).2])
    · exact absurd (h'.2 hx).1 (by push_cast; linarith [(h.2 hx).2])
  | halfUp =>
    obtain ⟨rfl, htie, htie'⟩ := midpoint h.1 h'.1
    have hlow := h.2 htie
    have hhigh := h'.2 htie'
    -- the neighbour on the side of zero is the smaller of the two
    rcases le_or_gt 0 q with hq | hq
    · have hq' : (0 : ℚ) ≤ q := by exact_mod_cast hq
      rw [abs_of_nonneg (by linarith), abs_of_nonneg hq'] at hlow
      linarith
    · have hq' : ((q + 1 : ℤ) : ℚ) ≤ 0 := by exact_mod_cast hq
      rw [abs_of_nonpos hq', abs_of_nonpos (by push_cast at hq'; linarith)] at hhigh
      push_cast at hhigh
      linarith
  | halfEven =>
    obtain ⟨-, htie, htie'⟩ := midpoint h.1 h'.1
    exact Int.not_even_iff_odd.2 (h.2 htie).add_one (h'.2 htie')

/-- A mode rounds a value to one integer. -/
theorem Rounds.unique (h : mode.Rounds x q) (h' : mode.Rounds x q') : q = q' := by
  obtain ⟨hlow, hhigh⟩ := abs_lt.1 h.within
  obtain ⟨hlow', hhigh'⟩ := abs_lt.1 h'.within
  have hlt : q < q' + 2 := by
    have hlt : (q : ℚ) < q' + 2 := by linarith
    exact_mod_cast hlt
  have hgt : q' < q + 2 := by
    have hgt : (q' : ℚ) < q + 2 := by linarith
    exact_mod_cast hgt
  rcases lt_trichotomy q q' with hq | hq | hq
  · obtain rfl : q' = q + 1 := by omega
    exact absurd h' h.not_succ
  · exact hq
  · obtain rfl : q = q' + 1 := by omega
    exact absurd h h'.not_succ

/-- The mode that does to a value what this one does to its negation. -/
def mirror : Rounding → Rounding
  | .floor => .ceil
  | .ceil => .floor
  | mode => mode

theorem Rounds.neg (h : mode.mirror.Rounds x q) : mode.Rounds (-x) (-q) := by
  have habs : |-x - ((-q : ℤ) : ℚ)| = |x - q| := by
    rw [← abs_neg]
    push_cast
    ring_nf
  cases mode with
  | floor => exact ⟨by push_cast; linarith [h.2], by push_cast; linarith [h.1]⟩
  | ceil => exact ⟨by push_cast; linarith [h.2], by push_cast; linarith [h.1]⟩
  | towardZero =>
    refine ⟨fun hx => ?_, fun hx => ?_⟩
    · obtain ⟨hlow, hhigh⟩ := h.2 (by linarith)
      exact ⟨by push_cast; linarith, by push_cast; linarith⟩
    · obtain ⟨hlow, hhigh⟩ := h.1 (by linarith)
      exact ⟨by push_cast; linarith, by push_cast; linarith⟩
  | halfUp => exact ⟨habs ▸ h.1, fun htie => by simpa using h.2 (habs ▸ htie)⟩
  | halfEven => exact ⟨habs ▸ h.1, fun htie => (h.2 (habs ▸ htie)).neg⟩

/-- Whether a magnitude is raised, by its fraction. -/
theorem increaseMagnitude_iff (mode : Rounding) (k : ℤ) {r d : ℤ} (hr : 0 ≤ r) (hd : 0 < d) :
    increaseMagnitude mode false k r d = true ↔
      match mode with
      | .floor | .towardZero => False
      | .ceil => 0 < (r / d : ℚ)
      | .halfUp => 1 / 2 ≤ (r / d : ℚ)
      | .halfEven => 1 / 2 < (r / d : ℚ) ∨ ((r / d : ℚ) = 1 / 2 ∧ ¬ Even k) := by
  have hd' : (0 : ℚ) < d := by exact_mod_cast hd
  cases mode with
  | floor => simp [increaseMagnitude]
  | ceil =>
    have hzero : 0 < (r / d : ℚ) ↔ r ≠ 0 := by
      rw [lt_div_iff₀ hd', zero_mul, Int.cast_pos]
      omega
    simp [increaseMagnitude, hzero]
  | towardZero => simp [increaseMagnitude]
  | halfUp =>
    have hhalf : 1 / 2 ≤ (r / d : ℚ) ↔ d ≤ r * 2 := by
      rw [div_le_div_iff₀ two_pos hd', one_mul]
      exact_mod_cast Iff.rfl
    simp only [increaseMagnitude, decide_eq_true_eq, hhalf]
  | halfEven =>
    have hpast : 1 / 2 < (r / d : ℚ) ↔ d < r * 2 := by
      rw [div_lt_div_iff₀ two_pos hd', one_mul]
      exact_mod_cast Iff.rfl
    have htie : (r / d : ℚ) = 1 / 2 ↔ r * 2 = d := by
      rw [div_eq_div_iff hd'.ne' two_ne_zero, one_mul]
      exact_mod_cast Iff.rfl
    simp only [increaseMagnitude, Bool.or_eq_true, Bool.and_eq_true, decide_eq_true_eq, hpast,
      htie, Int.even_iff]

/-- A magnitude of `k` and a fraction, raised where the mode says so, is rounded. -/
theorem rounds_raised (mode : Rounding) {k r d : ℤ} (hk : 0 ≤ k) (hr : 0 ≤ r) (hlt : r < d) :
    mode.Rounds (k + r / d) (if increaseMagnitude mode false k r d then k + 1 else k) := by
  have hd : (0 : ℚ) < d := by exact_mod_cast hr.trans_lt hlt
  have hk' : (0 : ℚ) ≤ k := by exact_mod_cast hk
  have hf : 0 ≤ (r / d : ℚ) := div_nonneg (by exact_mod_cast hr) hd.le
  have hf' : (r / d : ℚ) < 1 := (div_lt_one hd).2 (by exact_mod_cast hlt)
  have hraise := increaseMagnitude_iff mode k hr (hr.trans_lt hlt)
  generalize (r / d : ℚ) = f at *
  split
  · next hup =>
    have hdist : |(k : ℚ) + f - (k + 1 : ℤ)| = 1 - f := by
      push_cast
      rw [abs_of_neg (by linarith)]
      ring
    have hfraction := hraise.1 hup
    cases mode with
    | floor => exact hfraction.elim
    | ceil => exact ⟨by push_cast; linarith, by push_cast; linarith⟩
    | towardZero => exact hfraction.elim
    | halfUp =>
      refine ⟨by rw [hdist]; linarith, fun _ => ?_⟩
      push_cast
      rw [abs_of_nonneg (by linarith), abs_of_nonneg (by linarith)]
      linarith
    | halfEven =>
      rcases hfraction with hpast | ⟨htie, hodd⟩
      · exact ⟨by rw [hdist]; linarith, fun htie => by linarith⟩
      · exact ⟨by rw [hdist]; linarith, fun _ => (Int.not_even_iff_odd.1 hodd).add_one⟩
  · next hup =>
    have hdist : |(k : ℚ) + f - k| = f := by rw [add_sub_cancel_left, abs_of_nonneg hf]
    have hfraction := fun h => hup (hraise.2 h)
    cases mode with
    | floor => exact ⟨by linarith, by linarith⟩
    | ceil => exact ⟨by linarith, by linarith [not_lt.1 hfraction]⟩
    | towardZero =>
      exact ⟨fun _ => ⟨by linarith, by linarith⟩, fun hx => ⟨by linarith, by linarith⟩⟩
    | halfUp => exact ⟨by rw [hdist]; linarith [not_le.1 hfraction],
      fun htie => by linarith [not_le.1 hfraction]⟩
    | halfEven =>
      obtain ⟨hle, heven⟩ := not_or.1 hfraction
      exact ⟨by rw [hdist]; linarith [not_lt.1 hle],
        fun htie => by_contra fun hodd => heven ⟨hdist ▸ htie, hodd⟩⟩

end Rounding

/-! ## The exact result of the primitive -/

/-- What `divRound` computes, in the integers. -/
def roundedQuotient (mode : Rounding) (numerator denominator : Int) : Int :=
  let num := if denominator < 0 then -numerator else numerator
  let magnitude :=
    if increaseMagnitude mode (decide (num < 0)) (|num| / |denominator|) (|num| % |denominator|)
      |denominator| then |num| / |denominator| + 1 else |num| / |denominator|
  if num < 0 then -magnitude else magnitude

variable {mode : Rounding} {n d d n m : Int}

theorem increaseMagnitude_neg (mode : Rounding) (k r d : Int) :
    increaseMagnitude mode true k r d = increaseMagnitude mode.mirror false k r d := by
  cases mode <;> rfl

theorem magnitude_eq (num : Int) {den : Int} (hden : 0 < den) :
    (|num| : ℚ) / den = (|num| / den : Int) + ((|num| % den : Int) : ℚ) / den := by
  have hdiv : (|num| : ℚ) = den * (|num| / den : Int) + (|num| % den : Int) := by
    exact_mod_cast (Int.mul_ediv_add_emod |num| den).symm
  have hne : (den : ℚ) ≠ 0 := by exact_mod_cast hden.ne'
  rw [hdiv]
  field_simp

theorem quotient_signed (n d : Int) :
    (n / d : ℚ) = ((if d < 0 then -n else n : Int) : ℚ) / (|d| : Int) := by
  split
  · next hneg =>
      rw [abs_of_neg hneg]
      push_cast
      rw [neg_div_neg_eq]
  · next hpos => rw [abs_of_nonneg (not_lt.1 hpos)]

/-- The primitive rounds the exact quotient, whatever the signs. -/
theorem rounds_roundedQuotient (mode : Rounding) (n : Int) (hd : d ≠ 0) :
    mode.Rounds (n / d) (roundedQuotient mode n d) := by
  have hden : 0 < |d| := abs_pos.2 hd
  rw [quotient_signed, roundedQuotient]
  generalize (if d < 0 then -n else n) = num
  generalize |d| = den at *
  have hmagnitude := fun mode : Rounding => mode.rounds_raised
    (Int.ediv_nonneg (abs_nonneg num) hden.le) (Int.emod_nonneg |num| hden.ne')
    (Int.emod_lt_of_pos |num| hden)
  simp only [← magnitude_eq num hden] at hmagnitude
  by_cases hneg : num < 0
  · have hexact : (num : ℚ) / den = -((|num| : ℚ) / den) := by
      rw [abs_of_neg (by exact_mod_cast hneg), neg_div, neg_neg]
    simp only [hneg, decide_true, increaseMagnitude_neg, if_true]
    rw [hexact]
    exact (hmagnitude mode.mirror).neg
  · have hexact : (num : ℚ) / den = (|num| : ℚ) / den := by
      rw [abs_of_nonneg (by exact_mod_cast not_lt.1 hneg)]
    simp only [hneg, decide_false, if_false]
    rw [hexact]
    exact hmagnitude mode

/-! ## When the primitive answers -/

theorem checked_of_le (hn : |n| ≤ m) (hm : m < 2 ^ 127) : I128.checked n = some n := by
  obtain ⟨hlow, hhigh⟩ := abs_le.1 hn
  exact if_pos ⟨by omega, by omega⟩

theorem signed_of_le (flip : Bool) (hn : |n| ≤ m) (hm : m < 2 ^ 127) :
    signed flip n = .ok (if flip then -n else n) := by
  cases flip with
  | false => rfl
  | true => simp [signed, okOr, checked_of_le (abs_neg n ▸ hn) hm]

theorem signed_denominator (hd : d < 0 → -d < 2 ^ 127) : signed (decide (d < 0)) d = .ok |d| := by
  by_cases hneg : d < 0
  · rw [signed_of_le _ (abs_of_neg hneg).le (hd hneg)]
    simp [hneg, abs_of_neg hneg]
  · simp [signed, hneg, abs_of_nonneg (not_lt.1 hneg)]

theorem raised_of_le (up : Bool) (hn : |n + 1| < 2 ^ 127) :
    raised up n = .ok (if up then n + 1 else n) := by
  cases up with
  | false => rfl
  | true => simp [raised, okOr, checked_of_le le_rfl hn]

/-- The primitive answers the rounded quotient where it fits, and an overflow where it does not:
    with a numerator of at most 126 bits, no step on the way leaves 128. -/
theorem divRound_eq (mode : Rounding) (hd : d ≠ 0) (hn : |n| ≤ 2 ^ 126)
    (hrange : d < 0 → -d < 2 ^ 127) (hrem : |n| % |d| * 2 < 2 ^ 127) :
    divRound n d mode = okOr .overflow (ofInt? (roundedQuotient mode n d)) := by
  have hden : 0 < |d| := abs_pos.2 hd
  have habs : |if d < 0 then -n else n| = |n| := by
    split
    · exact abs_neg n
    · rfl
  have hquotient : |n| / |d| ≤ |n| := Int.ediv_le_self _ (abs_nonneg n)
  have hquotient' : 0 ≤ |n| / |d| := Int.ediv_nonneg (abs_nonneg n) hden.le
  have hrem' : 0 ≤ |n| % |d| := Int.emod_nonneg _ hden.ne'
  unfold divRound roundedQuotient
  simp only [refuseIf, if_neg hd, signed_of_le (decide (d < 0)) hn (by norm_num),
    signed_denominator hrange, decide_eq_true_eq, ok_bind, habs]
  generalize (if d < 0 then -n else n) = num
  rw [checked_of_le ((abs_abs n).trans_le hn) (by norm_num), okOr, ok_bind,
    checked_of_le (abs_of_nonneg (by omega)).le hrem, okOr, ok_bind,
    raised_of_le _ (by rw [abs_of_nonneg (by omega)]; omega), ok_bind]
  generalize hup : increaseMagnitude mode (decide (num < 0)) (|n| / |d|) (|n| % |d|) |d| = up
  have hmagnitude : abs (if up = true then |n| / |d| + 1 else |n| / |d|) ≤ 2 ^ 126 + 1 := by
    split <;> rw [abs_of_nonneg (by omega)] <;> omega
  rw [signed_of_le _ hmagnitude (by norm_num), ok_bind]
  simp only [decide_eq_true_eq]

theorem signed_eq_ok {flip : Bool} (h : signed flip n = .ok m) : m = if flip then -n else n := by
  cases flip with
  | false => exact (Except.ok.inj h).symm
  | true =>
    simp only [signed, if_true, okOr_eq_ok, I128.checked_eq_some] at h
    exact h.2.symm

theorem raised_eq_ok {up : Bool} (h : raised up n = .ok m) : m = if up then n + 1 else n := by
  cases up with
  | false => exact (Except.ok.inj h).symm
  | true =>
    simp only [raised, if_true, okOr_eq_ok, I128.checked_eq_some] at h
    exact h.2.symm

/-- What the primitive answers is the rounded quotient. -/
theorem divRound_eq_ok {q : I64} (h : divRound n d mode = .ok q) :
    d ≠ 0 ∧ q.val = roundedQuotient mode n d := by
  simp only [divRound, bind_eq_ok, refuseIf_eq_ok, okOr_eq_ok, I128.checked_eq_some,
    ofInt?_eq_some] at h
  obtain ⟨-, hd, num, hnum, den, hden, mag, ⟨-, rfl⟩, -, -, rounded, hrounded, result, hresult,
    hq⟩ := h
  obtain rfl : den = |d| := by
    rw [signed_eq_ok hden]
    simp only [decide_eq_true_eq]
    split
    · next hneg => exact (abs_of_neg hneg).symm
    · next hpos => exact (abs_of_nonneg (not_lt.1 hpos)).symm
  rw [hq, signed_eq_ok hresult, raised_eq_ok hrounded, signed_eq_ok hnum]
  refine ⟨hd, ?_⟩
  simp only [decide_eq_true_eq]
  rfl

theorem divRound_rounds {q : I64} (h : divRound n d mode = .ok q) : mode.Rounds (n / d) q.val := by
  obtain ⟨hd, hq⟩ := divRound_eq_ok h
  exact hq ▸ rounds_roundedQuotient mode n hd

end PosFramework
