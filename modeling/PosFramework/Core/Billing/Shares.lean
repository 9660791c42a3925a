import PosFramework.Core.Error
import PosFramework.Proto.Money.Exact

set_option autoImplicit false

/-! # Splitting a total

A total is split evenly or by weights. Every share is the floor of its exact part but the last,
which takes what flooring left of the others. -/

namespace PosFramework

open Fallible Apportion List BoundedInt Money

/-- An amount in equal parts. -/
def Money.splitInto (m : Money) (parts : Nat) : Except MoneyError (List Money) :=
  m.allocate (replicate parts 1)

/-- A total split by heads. -/
def splitEvenly (totalDue : Money) (parts : Nat) : Except DomainError (List Money) :=
  liftMoney (totalDue.splitInto parts)

/-- A total split by weights. -/
def splitByWeights (totalDue : Money) (weights : List I64) : Except DomainError (List Money) :=
  liftMoney (totalDue.allocate weights)

namespace Money

/-- A weight's exact part of an amount. -/
def exactShare (m : Money) (weights : List I64) (w : I64) : ℚ :=
  m.minor * w.val / ((weights.map val).sum : Int)

/-- An amount shared over weights: floors of the exact parts but for the last share, which is its
    exact part and less than one minor unit for each of the others. -/
structure FairlyShared (m : Money) (weights : List I64) (parts : List Money) : Prop where
  length : parts.length = weights.length
  sum : (parts.map minor).sum = m.minor
  range : ∀ part ∈ parts, 0 ≤ part.minor ∧ part.minor ≤ m.minor
  floored : parts.dropLast.map minor = weights.dropLast.map fun w => ⌊m.exactShare weights w⌋
  last : ∀ part ∈ parts.getLast?, ∀ w ∈ weights.getLast?,
    if weights.length = 1 then (part.minor : ℚ) = m.exactShare weights w
    else (part.minor : ℚ) - m.exactShare weights w < weights.length - 1

variable {m : Money} {weights : List I64}

theorem floor_exactShare (hpos : 0 < (weights.map val).sum) (w : I64) :
    ⌊m.exactShare weights w⌋ = m.minor * w.val / (weights.map val).sum := by
  rw [← roundedQuotient_floor _ hpos, Int.floor_eq_iff]
  have hfloor := rounds_roundedQuotient .floor (m.minor * w.val) hpos.ne'
  rw [Int.cast_mul] at hfloor
  exact hfloor

/-- The last share is its exact part and what flooring left of the others. -/
theorem lastShare_exceeds (hne : weights ≠ []) (hpos : 0 < (weights.map val).sum) :
    let last := lastShare m.minor (weights.map val)
    if weights.length = 1 then (last : ℚ) = m.exactShare weights (weights.getLast hne)
    else (last : ℚ) - m.exactShare weights (weights.getLast hne) < weights.length - 1 := by
  have hne' : weights.map val ≠ [] := by simpa using hne
  have hmul := lastShare_mul m.minor hne'
  rw [getLast_map] at hmul
  have hpos' : (0 : ℚ) < ((weights.map val).sum : Int) := by exact_mod_cast hpos
  intro last
  split
  · next hone =>
      have hnone : (weights.map val).dropLast = [] :=
        eq_nil_of_length_eq_zero (by simp [hone])
      rw [hnone, residues_nil, sum_nil, add_zero] at hmul
      rw [exactShare, eq_div_iff hpos'.ne', mul_comm]
      exact_mod_cast hmul
  · next hmany =>
      have hlength := length_pos_iff.2 hne
      have hsome : (weights.map val).dropLast ≠ [] := fun hnil => by
        have := congrArg length hnil
        simp only [length_dropLast, length_map, length_nil] at this
        omega
      have hlt : (residues m.minor _ _).sum < _ := sum_residues_lt hpos hsome
      rw [length_dropLast, length_map, Nat.cast_sub hlength, Nat.cast_one] at hlt
      rw [exactShare, sub_lt_iff_lt_add, ← sub_lt_iff_lt_add', lt_div_iff₀ hpos']
      have hlt' : (last - (weights.length - 1)) * (weights.map val).sum <
          m.minor * (weights.getLast hne).val := by linarith
      exact_mod_cast hlt'

theorem fairlyShared {parts : List Money} (hm : 0 ≤ m.minor) (h : m.allocate weights = .ok parts) :
    m.FairlyShared weights parts := by
  obtain ⟨hne, hweights, hpos, hshares, -⟩ := allocate_eq_ok h
  have hne' : weights.map val ≠ [] := by simpa using hne
  have hweights' := forall_mem_map.2 hweights
  have hlength := congrArg length hshares
  rw [length_map, length_shares _ hne', length_map] at hlength
  have hmem : ∀ part ∈ parts, part.minor ∈ shares m.minor (weights.map val) :=
    fun part hpart => hshares ▸ mem_map_of_mem hpart
  refine ⟨hlength, hshares ▸ sum_shares _ _, fun part hpart => ?_, ?_, fun part hpart w hw => ?_⟩
  · exact ⟨shares_nonneg hm hpos hweights' _ (hmem part hpart),
      shares_le hm hpos hweights' (hmem part hpart)⟩
  · rw [map_dropLast, hshares, shares, dropLast_concat, floors,
      ← map_dropLast, map_map]
    exact map_congr_left fun w _ => (floor_exactShare hpos w).symm
  · have hpart' : part.minor = lastShare m.minor (weights.map val) := by
      have hlast := congrArg getLast? hshares
      rw [getLast?_map, Option.mem_def.1 hpart, shares, getLast?_concat] at hlast
      exact Option.some.inj hlast
    obtain rfl : weights.getLast hne = w := by
      rw [getLast?_eq_some_getLast hne] at hw
      exact Option.some.inj hw
    rw [hpart']
    exact lastShare_exceeds hne hpos

end Money

/-- A non-negative amount is shared over any weights that weigh something, exactly and fairly;
    splitting a total evenly or by weights is this. -/
theorem shares_are_fair (m : Money) (hm : 0 ≤ m.minor) :
    (∀ weights : List I64, weights ≠ [] → (∀ w ∈ weights, 0 ≤ w.val) →
      0 < (weights.map val).sum → ∃ parts, m.allocate weights = .ok parts ∧
        splitByWeights m weights = .ok parts ∧ m.FairlyShared weights parts) ∧
    ∀ n : Nat, 0 < n → ∃ parts, splitEvenly m n = .ok parts ∧
      m.FairlyShared (replicate n 1) parts := by
  refine ⟨fun weights hne hweights hpos => ?_, fun n hn => ?_⟩
  · obtain ⟨parts, hparts⟩ := allocate_succeeds hm hne hweights hpos
    exact ⟨parts, hparts, liftMoney_eq_ok.2 hparts, fairlyShared hm hparts⟩
  · have hweights : ∀ w ∈ replicate n (1 : I64), 0 ≤ w.val := by
      intro w hw
      rw [eq_of_mem_replicate hw]
      exact Int.one_nonneg
    have hpos : 0 < ((replicate n (1 : I64)).map val).sum := by
      simpa using hn
    obtain ⟨parts, hparts⟩ := allocate_succeeds hm (by simp [hn.ne']) hweights hpos
    exact ⟨parts, liftMoney_eq_ok.2 hparts, fairlyShared hm hparts⟩

/-- A hundred thousand in three. -/
theorem shares_are_fair_threeWays :
    ∃ parts, splitEvenly (.dong 100000 (by decide) (by decide)) 3 = .ok parts ∧
      FairlyShared (.dong 100000 (by decide) (by decide)) (replicate 3 1) parts :=
  (shares_are_fair (.dong 100000 (by decide) (by decide)) (by decide)).2 3 (by decide)

end PosFramework
