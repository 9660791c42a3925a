import PosFramework.Proto.Money.Proofs

set_option autoImplicit false

/-! # The money operations are exact

An amount, a rate, a quantity and an increment are 64-bit values, so the products of two of them fit
the 128-bit intermediates: an operation that rounds answers the exact result, rounded once, wherever
that is a 64-bit value, and refuses it only where it is not. Sharing a non-negative amount is never
refused, since no share and no sum of shares leaves the amount. -/

namespace PosFramework

open Fallible Apportion List BoundedInt

/-- The exact rate. -/
def Ratio.value (rate : Ratio) : ℚ := rate.numerator.val / rate.denominator.val

namespace Money

/-- An exact number of minor units as an amount, where it fits. -/
def fitted (currency : CurrencyCode) (q : Int) : Except MoneyError Money :=
  okOr .overflow (ofInt? q) >>= fun amount => pure ⟨currency, amount⟩

variable {mode : Rounding} {m m' : Money} {n d : Int} {increment : I64}

theorem abs_val_le (a : I64) : |a.val| ≤ 2 ^ 63 :=
  abs_le.2 ⟨by have := a.lo_le; omega, by have := a.le_hi; omega⟩

theorem abs_mul_le (a b : I64) : |a.val * b.val| ≤ 2 ^ 126 := by
  rw [abs_mul]
  calc |a.val| * |b.val| ≤ 2 ^ 63 * 2 ^ 63 :=
        mul_le_mul (abs_val_le a) (abs_val_le b) (abs_nonneg _) (by norm_num)
    _ = 2 ^ 126 := by norm_num

theorem rounds_iff (mode : Rounding) (n : Int) (hd : d ≠ 0) (q : Int) :
    mode.Rounds (n / d) q ↔ q = roundedQuotient mode n d :=
  ⟨fun h => h.unique (rounds_roundedQuotient mode n hd),
    fun h => h ▸ rounds_roundedQuotient mode n hd⟩

theorem divRound_of_le (mode : Rounding) (hd : d ≠ 0) (hn : |n| ≤ 2 ^ 126)
    (hrange : |d| < 2 ^ 126) :
    divRound n d mode = okOr .overflow (ofInt? (roundedQuotient mode n d)) := by
  have hlt := Int.emod_lt_of_pos |n| (abs_pos.2 hd)
  refine divRound_eq mode hd hn (fun hneg => ?_) (by omega)
  have habs := abs_of_neg hneg
  omega

theorem mulRatio_eq (m : Money) (rate : Ratio) (mode : Rounding) :
    m.mulRatio rate mode = fitted m.currencyCode
      (roundedQuotient mode (m.minor * rate.numerator.val) rate.denominator.val) := by
  have hn := abs_mul_le m.amountMinor rate.numerator
  rw [mulRatio, minor, checked_of_le hn (by norm_num), okOr, ok_bind,
    divRound_of_le mode rate.denominator_ne_zero hn
      ((abs_val_le rate.denominator).trans_lt (by norm_num))]
  rfl

theorem taxIncluded_eq (m : Money) (rate : Ratio) (mode : Rounding)
    (hrate : rate.denominator.val + rate.numerator.val ≠ 0) :
    m.taxIncluded rate mode = fitted m.currencyCode (roundedQuotient mode
      (m.minor * rate.numerator.val) (rate.denominator.val + rate.numerator.val)) := by
  have hn := abs_mul_le m.amountMinor rate.numerator
  have hd : |rate.denominator.val + rate.numerator.val| ≤ 2 ^ 63 + 2 ^ 63 :=
    (abs_add_le _ _).trans (add_le_add (abs_val_le _) (abs_val_le _))
  rw [taxIncluded, minor, checked_of_le hn (by norm_num), okOr, ok_bind,
    checked_of_le hd (by norm_num), okOr, ok_bind,
    divRound_of_le mode hrate hn (hd.trans_lt (by norm_num))]
  rfl

theorem mulQuantity_eq (m : Money) (quantity : Quantity) (mode : Rounding) :
    m.mulQuantity quantity mode = fitted m.currencyCode
      (roundedQuotient mode (m.minor * quantity.milli.val) 1000) := by
  have hn := abs_mul_le m.amountMinor quantity.milli
  rw [mulQuantity, minor, checked_of_le hn (by norm_num), okOr, ok_bind, Quantity.scale,
    divRound_of_le mode (by norm_num) hn (by norm_num)]
  rfl

/-- An amount is no more steps of an increment than it is minor units. -/
theorem exists_steps (m : Money) (mode : Rounding) (hpos : 0 < increment.val) :
    ∃ steps : I64, steps.val = roundedQuotient mode m.minor increment.val := by
  have hrounds := rounds_roundedQuotient mode m.minor hpos.ne'
  have hpos' : (0 : ℚ) < increment.val := by exact_mod_cast hpos
  refine ⟨⟨_, hrounds.le ?_, hrounds.ge ?_⟩, rfl⟩
  · rw [le_div_iff₀ hpos']
    have hlow : (-9223372036854775808) * increment.val ≤ m.minor := by
      have := m.amountMinor.lo_le
      unfold minor
      omega
    exact_mod_cast hlow
  · rw [div_le_iff₀ hpos']
    have hhigh : m.minor ≤ 9223372036854775807 * increment.val := by
      have := m.amountMinor.le_hi
      unfold minor
      omega
    exact_mod_cast hhigh

theorem roundToIncrement_eq (m : Money) (mode : Rounding) (hpos : 0 < increment.val) :
    m.roundToIncrement increment mode = fitted m.currencyCode
      (roundedQuotient mode m.minor increment.val * increment.val) := by
  obtain ⟨steps, hsteps⟩ := exists_steps m mode hpos
  have hn : |m.minor| ≤ 2 ^ 126 := (abs_val_le m.amountMinor).trans (by norm_num)
  rw [roundToIncrement, divRound_of_le mode hpos.ne' hn
    ((abs_val_le increment).trans_lt (by norm_num)), ofInt?_eq_some.2 hsteps, okOr, ok_bind,
    checked_of_le (abs_mul_le steps increment) (by norm_num), okOr, ok_bind, hsteps]
  rfl

/-! ## Refunds mirror sales -/

theorem roundedQuotient_neg (hhalf : mode.IsHalf) (n : Int) (hd : d ≠ 0) :
    roundedQuotient mode (-n) d = -roundedQuotient mode n d := by
  have hmirror : mode.mirror = mode := by rcases hhalf with rfl | rfl <;> rfl
  have hrounds := rounds_roundedQuotient mode n hd
  refine ((rounds_iff mode (-n) hd _).1 ?_).symm
  push_cast
  rw [neg_div]
  refine Rounding.Rounds.neg ?_
  rwa [hmirror]

/-- An answer rounds an exact value: it is the one integer the mode makes of the value where that is
    a 64-bit one, and an overflow where it is not. -/
def AnswersRounded (mode : Rounding) (x : ℚ) (currency : CurrencyCode)
    (answer : Except MoneyError Money) : Prop :=
  ∃ q : ℤ, (∀ q' : ℤ, mode.Rounds x q' ↔ q' = q) ∧ answer = fitted currency q

/-- Two answers are an exact result and its negation, each where it fits. -/
def Mirrored (answer answer' : Except MoneyError Money) : Prop :=
  ∃ (currency : CurrencyCode) (q : ℤ), answer = fitted currency q ∧ answer' = fitted currency (-q)

/-- The operations that round answer for a value and its negation alike, where the mode rounds to
    the nearest. -/
structure RefundsMirror (mode : Rounding) (m m' : Money) : Prop where
  mulRatio : ∀ rate, Mirrored (m.mulRatio rate mode) (m'.mulRatio rate mode)
  taxIncluded : ∀ rate : Ratio, rate.value ≠ -1 →
    Mirrored (m.taxIncluded rate mode) (m'.taxIncluded rate mode)
  mulQuantity : ∀ quantity, Mirrored (m.mulQuantity quantity mode) (m'.mulQuantity quantity mode)
  roundToIncrement : ∀ increment : I64, 0 < increment.val →
    Mirrored (m.roundToIncrement increment mode) (m'.roundToIncrement increment mode)

theorem denominator_add_ne_zero {rate : Ratio} (h : rate.value ≠ -1) :
    rate.denominator.val + rate.numerator.val ≠ 0 := by
  intro hzero
  refine h ?_
  rw [Ratio.value, div_eq_iff (by exact_mod_cast rate.denominator_ne_zero)]
  have hcast : (rate.denominator.val : ℚ) + rate.numerator.val = 0 := by exact_mod_cast hzero
  linarith

theorem refundsMirror (hhalf : mode.IsHalf) (hcurrency : m'.currencyCode = m.currencyCode)
    (hminor : m'.minor = -m.minor) : RefundsMirror mode m m' where
  mulRatio := fun rate => by
    refine ⟨_, _, mulRatio_eq m rate mode, ?_⟩
    rw [mulRatio_eq, hcurrency, hminor, neg_mul,
      roundedQuotient_neg hhalf _ rate.denominator_ne_zero]
  taxIncluded := fun rate hrate => by
    refine ⟨_, _, taxIncluded_eq m rate mode (denominator_add_ne_zero hrate), ?_⟩
    rw [taxIncluded_eq _ _ _ (denominator_add_ne_zero hrate), hcurrency, hminor, neg_mul,
      roundedQuotient_neg hhalf _ (denominator_add_ne_zero hrate)]
  mulQuantity := fun quantity => by
    refine ⟨_, _, mulQuantity_eq m quantity mode, ?_⟩
    rw [mulQuantity_eq, hcurrency, hminor, neg_mul, roundedQuotient_neg hhalf _ (by norm_num)]
  roundToIncrement := fun increment hpos => by
    refine ⟨_, _, roundToIncrement_eq m mode hpos, ?_⟩
    rw [roundToIncrement_eq _ _ hpos, hcurrency, hminor,
      roundedQuotient_neg hhalf _ hpos.ne', neg_mul]

/-- Every operation that rounds answers the exact result rounded as the mode says wherever it is a
    64-bit value, and an overflow only where it is not; to the nearest, a refund mirrors a sale. -/
theorem rounding_is_exact (mode : Rounding) :
    (∀ n d : Int, |n| < 2 ^ 126 → d ≠ 0 → |d| < 2 ^ 126 → ∃ q : ℤ,
      (∀ q' : ℤ, mode.Rounds (n / d) q' ↔ q' = q) ∧
        divRound n d mode = okOr .overflow (ofInt? q)) ∧
    (∀ (m : Money) (rate : Ratio), AnswersRounded mode (m.minor * rate.value) m.currencyCode
      (m.mulRatio rate mode)) ∧
    (∀ (m : Money) (rate : Ratio), rate.value ≠ -1 → AnswersRounded mode
      (m.minor * rate.value / (1 + rate.value)) m.currencyCode (m.taxIncluded rate mode)) ∧
    (∀ (m : Money) (quantity : Quantity), AnswersRounded mode
      (m.minor * (quantity.milli.val / 1000)) m.currencyCode (m.mulQuantity quantity mode)) ∧
    (∀ (m : Money) (increment : I64), 0 < increment.val → ∃ steps : ℤ,
      (∀ q' : ℤ, mode.Rounds (m.minor / increment.val) q' ↔ q' = steps) ∧
        m.roundToIncrement increment mode = fitted m.currencyCode (steps * increment.val)) ∧
    (mode.IsHalf → ∀ m m' : Money, m'.currencyCode = m.currencyCode → m'.minor = -m.minor →
      RefundsMirror mode m m') := by
  refine ⟨fun n d hn hd hrange => ?_, fun m rate => ?_, fun m rate hrate => ?_,
    fun m quantity => ?_,
    fun m increment hpos => ?_, fun hhalf m m' hcurrency hminor =>
      refundsMirror hhalf hcurrency hminor⟩
  · exact ⟨_, rounds_iff mode n hd, divRound_of_le mode hd hn.le hrange⟩
  · refine ⟨_, fun q' => ?_, mulRatio_eq m rate mode⟩
    rw [← rounds_iff mode _ rate.denominator_ne_zero, Ratio.value]
    push_cast
    rw [mul_div_assoc]
  · have hne := denominator_add_ne_zero hrate
    refine ⟨_, fun q' => ?_, taxIncluded_eq m rate mode hne⟩
    rw [← rounds_iff mode _ hne]
    have hexact : (m.minor : ℚ) * rate.value / (1 + rate.value) =
        ((m.minor * rate.numerator.val : ℤ) : ℚ) /
          ((rate.denominator.val + rate.numerator.val : ℤ) : ℚ) := by
      have hden : (rate.denominator.val : ℚ) ≠ 0 := by exact_mod_cast rate.denominator_ne_zero
      rw [Ratio.value]
      push_cast
      field_simp
    rw [hexact]
  · refine ⟨_, fun q' => ?_, mulQuantity_eq m quantity mode⟩
    rw [← rounds_iff mode _ (by norm_num)]
    push_cast
    rw [mul_div_assoc]
  · exact ⟨_, rounds_iff mode _ hpos.ne', roundToIncrement_eq m mode hpos⟩

/-! ## Sharing -/

theorem roundedQuotient_floor (n : Int) {d : Int} (hd : 0 < d) :
    roundedQuotient .floor n d = n / d := by
  have hd' : (0 : ℚ) < d := by exact_mod_cast hd
  refine ((rounds_iff .floor n hd.ne' _).1 ⟨?_, ?_⟩).symm
  · rw [le_div_iff₀ hd']
    exact_mod_cast Int.ediv_mul_le n hd.ne'
  · rw [div_lt_iff₀ hd']
    exact_mod_cast Int.lt_ediv_add_one_mul_self n hd

variable {totalWeight : Int} {acc : List Money × I64} {weights : List I64}

/-- A pass of the loop goes through while what is assigned stays within the amount. -/
theorem allocateStep_succeeds (hm : 0 ≤ m.minor) (hpos : 0 < totalWeight) {w : I64} (hw : 0 ≤ w.val)
    (hacc : 0 ≤ acc.2.val) (hfits : acc.2.val + m.minor * w.val / totalWeight ≤ m.minor) :
    ∃ out, m.allocateStep totalWeight acc w = .ok out ∧
      out.2.val = acc.2.val + m.minor * w.val / totalWeight := by
  have hn : |m.minor * w.val| ≤ 2 ^ 126 := abs_mul_le m.amountMinor w
  have hnonneg : 0 ≤ m.minor * w.val := mul_nonneg hm hw
  have hshare : 0 ≤ m.minor * w.val / totalWeight := Int.ediv_nonneg hnonneg hpos.le
  have hle : m.minor ≤ 9223372036854775807 := m.amountMinor.le_hi
  have hrem : |m.minor * w.val| % |totalWeight| * 2 < 2 ^ 127 := by
    rw [abs_of_nonneg hnonneg, abs_of_pos hpos]
    have hdiv := Int.mul_ediv_add_emod (m.minor * w.val) totalWeight
    have hpart := mul_nonneg hpos.le hshare
    have hmul : m.minor * w.val ≤ 9223372036854775807 * 9223372036854775807 :=
      mul_le_mul hle w.le_hi hw (by norm_num)
    omega
  obtain ⟨share, hval⟩ : ∃ share : I64, share.val = m.minor * w.val / totalWeight :=
    ⟨⟨_, by omega, by omega⟩, rfl⟩
  obtain ⟨assigned, hassigned⟩ : ∃ assigned : I64, assigned.val = acc.2.val + share.val :=
    ⟨⟨_, by omega, by omega⟩, rfl⟩
  have hdivided : divRound (m.minor * w.val) totalWeight .floor = .ok share := by
    rw [divRound_eq .floor hpos.ne' hn (fun hneg => absurd hneg hpos.asymm) hrem,
      roundedQuotient_floor _ hpos, ofInt?_eq_some.2 hval, okOr]
  refine ⟨(acc.1 ++ [⟨m.currencyCode, share⟩], assigned), ?_, hval ▸ hassigned⟩
  simp only [allocateStep, bind_eq_ok, okOr_eq_ok, I128.checked_eq_some, checkedAdd_eq_some,
    pure_eq_ok]
  exact ⟨_, I128.checked_eq_some.1 (checked_of_le hn (by norm_num)), share, hdivided, assigned,
    hassigned, rfl⟩

theorem allocateLoop_succeeds (hm : 0 ≤ m.minor) (hpos : 0 < totalWeight)
    (hweights : ∀ w ∈ weights, 0 ≤ w.val) (hacc : 0 ≤ acc.2.val)
    (hfits : acc.2.val + (Apportion.floors m.minor totalWeight (weights.map val)).sum ≤
      m.minor) :
    ∃ out, weights.foldlM (m.allocateStep totalWeight) acc = .ok out := by
  induction weights generalizing acc with
  | nil => exact ⟨acc, rfl⟩
  | cons w ws ih =>
    have hw := hweights w (mem_cons_self ..)
    have hws := fun w hw => hweights w (mem_cons_of_mem _ hw)
    have hrest := sum_nonneg (floors_nonneg hm hpos.le (forall_mem_map.2 hws))
    have hshare := Int.ediv_nonneg (mul_nonneg hm hw) hpos.le
    simp only [map_cons, floors_cons, sum_cons] at hfits
    obtain ⟨next, hstep, hassigned⟩ := allocateStep_succeeds hm hpos hw hacc (by linarith)
    have hnext : 0 ≤ next.2.val := by linarith
    obtain ⟨out, hout⟩ := ih hws hnext (by linarith)
    exact ⟨out, by rw [foldlM_cons, hstep, ok_bind, hout]⟩

/-- A non-negative amount is always shared. -/
theorem allocate_succeeds (hm : 0 ≤ m.minor) (hne : weights ≠ [])
    (hweights : ∀ w ∈ weights, 0 ≤ w.val) (hpos : 0 < (weights.map val).sum) :
    ∃ parts, m.allocate weights = .ok parts := by
  have hinit : ∀ w ∈ weights.dropLast, 0 ≤ w.val := fun w hw => hweights w (dropLast_subset _ hw)
  have hpart : (weights.dropLast.map val).sum ≤ (weights.map val).sum := by
    have hne' : weights.map val ≠ [] := by simpa using hne
    have hlast : 0 ≤ (weights.map val).getLast hne' := by
      rw [getLast_map]
      exact hweights _ (getLast_mem hne)
    have hsum := sum_dropLast_add_getLast hne'
    rw [map_dropLast]
    omega
  have hfloors := sum_floors_le hm hpos hpart
  have hfloors' := sum_nonneg (floors_nonneg hm hpos.le
    (forall_mem_map.2 hinit))
  obtain ⟨out, hloop⟩ := allocateLoop_succeeds hm hpos hinit
    (show 0 ≤ (([], 0) : List Money × I64).2.val from le_rfl) (by simpa using hfloors)
  have hassigned := (allocateLoop_eq_ok hpos hloop).2
  have hle : m.minor ≤ 9223372036854775807 := m.amountMinor.le_hi
  simp only [I64.val_zero, zero_add] at hassigned
  obtain ⟨remainder, hremainder⟩ : ∃ remainder : I64, remainder.val = m.minor - out.2.val :=
    ⟨⟨_, by omega, by omega⟩, rfl⟩
  refine ⟨out.1 ++ [⟨m.currencyCode, remainder⟩], ?_⟩
  simp only [allocate, bind_eq_ok, refuseIf_eq_ok, okOr_eq_ok, checkedSub_eq_some, pure_eq_ok,
    not_exists, not_and, not_lt, not_le]
  exact ⟨(), hne, (), hweights, (), hpos, out, hloop, remainder, hremainder, rfl⟩

end Money

end PosFramework
