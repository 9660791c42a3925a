import PosFramework.Proto.Money.Rounding

set_option autoImplicit false

/-! # What the money operations compute

One specification lemma per operation of `Proto.Money`: a success of a checked operation gives the
exact result in the operands' currency, a rounded quotient lies between the floor and the ceiling
of the exact one, and an allocation is the apportionment of `Lib.Apportion`. Later modules cite
these and never unfold an operation. -/

namespace PosFramework

open Fallible List BoundedInt Apportion

/-! ## Rounded division -/

section

variable {numerator denominator m : Int} {mode : Rounding} {q : I64}

theorem le_divRound (h : divRound numerator denominator mode = .ok q) (hden : 0 < denominator)
    (hm : m * denominator ≤ numerator) : m ≤ q.val := by
  refine (divRound_rounds h).le ?_
  rw [le_div_iff₀ (by exact_mod_cast hden)]
  exact_mod_cast hm

theorem divRound_le (h : divRound numerator denominator mode = .ok q) (hden : 0 < denominator)
    (hm : numerator ≤ m * denominator) : q.val ≤ m := by
  refine (divRound_rounds h).ge ?_
  rw [div_le_iff₀ (by exact_mod_cast hden)]
  exact_mod_cast hm

theorem divRound_floor (h : divRound numerator denominator .floor = .ok q)
    (hden : 0 < denominator) :
    q.val = numerator / denominator := by
  refine le_antisymm ?_ (le_divRound h hden (Int.ediv_mul_le _ hden.ne'))
  obtain ⟨hle, -⟩ := divRound_rounds h
  rw [Int.le_ediv_iff_mul_le hden]
  rw [le_div_iff₀ (by exact_mod_cast hden)] at hle
  exact_mod_cast hle

end

/-! ## Sums, differences and rates -/

namespace Money

@[simp] theorem minor_zero (c : CurrencyCode) : (zero c).minor = 0 := rfl

@[simp] theorem currencyCode_zero (c : CurrencyCode) : (zero c).currencyCode = c := rfl

variable {m a b r c : Money} {mode : Rounding} {weights : List I64} {rate : Ratio}

@[simp] theorem isZero_iff : m.isZero = true ↔ m.minor = 0 := by
  simp [isZero]

theorem eq_iff : a = b ↔ a.currencyCode = b.currencyCode ∧ a.minor = b.minor :=
  ⟨fun h => h ▸ ⟨rfl, rfl⟩, fun h => Money.ext h.1 h.2⟩

theorem checkedAdd_eq_ok :
    a.checkedAdd b = .ok c ↔
      a.currencyCode = b.currencyCode ∧ c.currencyCode = a.currencyCode ∧
        c.minor = a.minor + b.minor := by
  simp only [checkedAdd, requireSameCurrency, bind_eq_ok, refuseIf_eq_ok, okOr_eq_ok,
    checkedAdd_eq_some, pure_eq_ok, minor, not_not]
  constructor
  · rintro ⟨_, hcur, amount, hamount, rfl⟩
    exact ⟨hcur, rfl, hamount⟩
  · rintro ⟨hcur, hc, hminor⟩
    exact ⟨(), hcur, c.amountMinor, hminor, by rw [← hc]⟩

theorem checkedSub_eq_ok :
    a.checkedSub b = .ok c ↔
      a.currencyCode = b.currencyCode ∧ c.currencyCode = a.currencyCode ∧
        c.minor = a.minor - b.minor := by
  simp only [checkedSub, requireSameCurrency, bind_eq_ok, refuseIf_eq_ok, okOr_eq_ok,
    checkedSub_eq_some, pure_eq_ok, minor, not_not]
  constructor
  · rintro ⟨_, hcur, amount, hamount, rfl⟩
    exact ⟨hcur, rfl, hamount⟩
  · rintro ⟨hcur, hc, hminor⟩
    exact ⟨(), hcur, c.amountMinor, hminor, by rw [← hc]⟩

theorem mulRatio_eq_ok (h : m.mulRatio rate mode = .ok r) :
    r.currencyCode = m.currencyCode ∧
      divRound (m.minor * rate.numerator.val) rate.denominator.val mode = .ok r.amountMinor := by
  simp only [mulRatio, bind_eq_ok, okOr_eq_ok, I128.checked_eq_some, pure_eq_ok] at h
  obtain ⟨_, ⟨-, rfl⟩, amount, hamount, rfl⟩ := h
  exact ⟨rfl, hamount⟩

theorem taxIncluded_eq_ok (h : m.taxIncluded rate mode = .ok r) :
    r.currencyCode = m.currencyCode ∧
      divRound (m.minor * rate.numerator.val) (rate.denominator.val + rate.numerator.val) mode
        = .ok r.amountMinor := by
  simp only [taxIncluded, bind_eq_ok, okOr_eq_ok, I128.checked_eq_some, pure_eq_ok] at h
  obtain ⟨_, ⟨-, rfl⟩, _, ⟨-, rfl⟩, amount, hamount, rfl⟩ := h
  exact ⟨rfl, hamount⟩

theorem roundToIncrement_currency {increment : I64}
    (h : m.roundToIncrement increment mode = .ok r) :
    r.currencyCode = m.currencyCode := by
  simp only [roundToIncrement, bind_eq_ok, pure_eq_ok] at h
  obtain ⟨_, _, _, _, _, _, rfl⟩ := h
  rfl

/-! ## Allocation -/

/-- The loop has pushed the floored shares of the weights it went over and assigned their sum. -/
theorem allocateLoop_eq_ok {totalWeight : Int} (hpos : 0 < totalWeight)
    {acc out : List Money × I64} (h : weights.foldlM (m.allocateStep totalWeight) acc = .ok out) :
    (∃ added : List Money, out.1 = acc.1 ++ added ∧
      added.map minor = floors m.minor totalWeight (weights.map val) ∧
      ∀ part ∈ added, part.currencyCode = m.currencyCode) ∧
    out.2.val = acc.2.val
      + (floors m.minor totalWeight (weights.map val)).sum := by
  induction weights generalizing acc with
  | nil =>
    simp only [foldlM_nil, pure_eq_ok] at h
    subst h
    exact ⟨⟨[], by simp⟩, by simp⟩
  | cons w ws ih =>
    simp only [foldlM_cons, bind_eq_ok, allocateStep, okOr_eq_ok, I128.checked_eq_some,
      checkedAdd_eq_some, pure_eq_ok] at h
    obtain ⟨_, ⟨_, ⟨-, rfl⟩, share, hshare, assigned, hassigned, rfl⟩, hrest⟩ := h
    have hfloor := divRound_floor hshare hpos
    obtain ⟨⟨added, hadded, hminor, hcur⟩, hsum⟩ := ih hrest
    refine ⟨⟨⟨m.currencyCode, share⟩ :: added, ?_, ?_, ?_⟩, ?_⟩
    · rw [hadded, append_assoc]
      rfl
    · simp only [map_cons, floors_cons, hminor, List.cons.injEq, and_true]
      exact hfloor
    · intro part hpart
      rcases mem_cons.1 hpart with rfl | hpart
      · rfl
      · exact hcur part hpart
    · simp only [map_cons, floors_cons, sum_cons]
      rw [hsum, hassigned, hfloor]
      omega

/-- A successful allocation is the apportionment over its weights, in the amount's currency. -/
theorem allocate_eq_ok {parts : List Money} (h : m.allocate weights = .ok parts) :
    weights ≠ [] ∧ (∀ w ∈ weights, 0 ≤ w.val) ∧ 0 < (weights.map val).sum ∧
      parts.map minor = shares m.minor (weights.map val) ∧
      ∀ part ∈ parts, part.currencyCode = m.currencyCode := by
  simp only [allocate, bind_eq_ok, refuseIf_eq_ok, okOr_eq_ok, checkedSub_eq_some,
    pure_eq_ok, not_exists, not_and, not_lt, not_le] at h
  obtain ⟨_, hne, _, hnonneg, _, hpos, ⟨init, assigned⟩, hloop, remainder, hremainder, rfl⟩ := h
  obtain ⟨⟨added, hadded, hminor, hcur⟩, hassigned⟩ := allocateLoop_eq_ok hpos hloop
  subst hadded
  refine ⟨hne, hnonneg, hpos, ?_, ?_⟩
  · simp only [map_append, map_cons, map_nil, hminor, shares,
      lastShare, map_dropLast]
    simp only [I64.val_zero, map_dropLast, zero_add] at hassigned
    simp only [minor, hremainder, hassigned]
  · intro part hpart
    rcases mem_append.1 hpart with hpart | hpart
    · exact hcur part hpart
    · obtain rfl := mem_singleton.1 hpart
      rfl

end Money

end PosFramework
