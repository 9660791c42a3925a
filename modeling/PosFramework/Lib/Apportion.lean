import Mathlib

set_option autoImplicit false

/-! # Apportionment with the residual on the last part

An amount is shared over weights by flooring every exact share but the last and giving the last
part what is left, so the parts always sum to the amount. `lastShare_mul` says what the last part
gets over its exact share, and `pairFits_iff` when two amounts shared one after the other over the
same weights leave no weight overdrawn. Trailing zero weights are trimmed first (`trim`), so that
the residual lands on a part that weighs something. -/

namespace Apportion

open List

/-- The floored exact shares of `amount` over the weights `ws` of a whole that weighs `total`. -/
def floors (amount total : Int) (ws : List Int) : List Int :=
  ws.map (fun w => amount * w / total)

/-- What flooring leaves over, in units of one `total`-th: the remainders of the exact shares. -/
def residues (amount total : Int) (ws : List Int) : List Int :=
  ws.map (fun w => amount * w % total)

/-- What the last part gets: the amount less every other part's floored share. -/
def lastShare (amount : Int) (ws : List Int) : Int :=
  amount - (floors amount ws.sum ws.dropLast).sum

/-- The parts: floored shares, and the residual on the last one. -/
def shares (amount : Int) (ws : List Int) : List Int :=
  floors amount ws.sum ws.dropLast ++ [lastShare amount ws]

@[simp] theorem floors_nil (amount total : Int) : floors amount total [] = [] := rfl

@[simp] theorem floors_cons (amount total w : Int) (ws : List Int) :
    floors amount total (w :: ws) = amount * w / total :: floors amount total ws := rfl

@[simp] theorem residues_nil (amount total : Int) : residues amount total [] = [] := rfl

@[simp] theorem residues_cons (amount total w : Int) (ws : List Int) :
    residues amount total (w :: ws) = amount * w % total :: residues amount total ws := rfl

@[simp] theorem length_floors (amount total : Int) (ws : List Int) :
    (floors amount total ws).length = ws.length := by
  simp [floors]

variable {ws : List Int} {amount total d c : Int} {i : Nat}

theorem length_shares (amount : Int) (hne : ws ≠ []) : (shares amount ws).length = ws.length := by
  have hpos : 0 < ws.length := length_pos_iff.2 hne
  simp only [shares, length_append, length_floors, length_dropLast, length_singleton]
  omega

/-! ## The sum is exact -/

theorem sum_shares (amount : Int) (ws : List Int) : (shares amount ws).sum = amount := by
  simp only [shares, lastShare, sum_append, sum_singleton]
  omega

/-- Euclidean division, summed over the weights. -/
theorem mul_sum_floors_add_sum_residues (amount total : Int) (ws : List Int) :
    total * (floors amount total ws).sum + (residues amount total ws).sum = amount * ws.sum := by
  induction ws with
  | nil => simp
  | cons w ws ih =>
    have hdiv := Int.mul_ediv_add_emod (amount * w) total
    simp only [floors_cons, residues_cons, sum_cons, mul_add]
    linarith

theorem sum_dropLast_add_getLast (hne : ws ≠ []) : ws.dropLast.sum + ws.getLast hne = ws.sum := by
  conv_rhs => rw [← dropLast_append_getLast hne]
  simp

/-- The last part gets its exact share plus every other part's remainder. -/
theorem lastShare_mul (amount : Int) (hne : ws ≠ []) :
    ws.sum * lastShare amount ws
      = amount * ws.getLast hne + (residues amount ws.sum ws.dropLast).sum := by
  have hdiv := mul_sum_floors_add_sum_residues amount ws.sum ws.dropLast
  have hsum := sum_dropLast_add_getLast hne
  have hmul : amount * ws.dropLast.sum + amount * ws.getLast hne = amount * ws.sum := by
    rw [← mul_add, hsum]
  unfold lastShare
  linarith

theorem shares_zero (hne : ws ≠ []) : shares 0 ws = replicate ws.length 0 := by
  have hfloors : ∀ us : List Int, floors 0 ws.sum us = replicate us.length 0 := by
    simp [floors, map_const']
  have hpos : 0 < ws.length := length_pos_iff.2 hne
  unfold shares lastShare
  rw [hfloors, sum_replicate, smul_zero, sub_zero, length_dropLast]
  rw [← replicate_succ', Nat.sub_add_cancel hpos]

/-! ## Bounds -/

theorem floors_nonneg (hamount : 0 ≤ amount) (htotal : 0 ≤ total) (hws : ∀ w ∈ ws, 0 ≤ w) :
    ∀ x ∈ floors amount total ws, 0 ≤ x := by
  intro x hx
  obtain ⟨w, hw, rfl⟩ := mem_map.1 hx
  exact Int.ediv_nonneg (mul_nonneg hamount (hws w hw)) htotal

theorem residues_nonneg (amount : Int) (ws : List Int) (htotal : 0 < total) :
    0 ≤ (residues amount total ws).sum := by
  refine sum_nonneg ?_
  intro x hx
  obtain ⟨w, _, rfl⟩ := mem_map.1 hx
  exact Int.emod_nonneg _ (ne_of_gt htotal)

/-- Shares of a non-negative amount over non-negative weights are non-negative: the last one is
    at least its exact share. -/
theorem shares_nonneg (hamount : 0 ≤ amount) (hpos : 0 < ws.sum) (hws : ∀ w ∈ ws, 0 ≤ w) :
    ∀ x ∈ shares amount ws, 0 ≤ x := by
  have hne : ws ≠ [] := by
    rintro rfl
    simp at hpos
  intro x hx
  rcases mem_append.1 hx with hx | hx
  · exact floors_nonneg hamount (le_of_lt hpos)
      (fun w hw => hws w (dropLast_subset ws hw)) x hx
  · obtain rfl := mem_singleton.1 hx
    have hlast := lastShare_mul amount hne
    have hexact : 0 ≤ amount * ws.getLast hne :=
      mul_nonneg hamount (hws _ (getLast_mem hne))
    have hres := residues_nonneg amount ws.dropLast hpos
    by_contra hneg
    have hlt : ws.sum * lastShare amount ws < 0 :=
      mul_neg_of_pos_of_neg hpos (not_le.1 hneg)
    linarith

/-- Part of a whole's weight is floored to no more than the amount. -/
theorem sum_floors_le (hamount : 0 ≤ amount) (htotal : 0 < total) (hws : ws.sum ≤ total) :
    (floors amount total ws).sum ≤ amount := by
  have hdiv := mul_sum_floors_add_sum_residues amount total ws
  have hres := residues_nonneg amount ws htotal
  nlinarith

/-- No part of a non-negative amount is more than the amount. -/
theorem shares_le (hamount : 0 ≤ amount) (hpos : 0 < ws.sum) (hws : ∀ w ∈ ws, 0 ≤ w) {x : Int}
    (hx : x ∈ shares amount ws) : x ≤ amount := by
  have hsum := single_le_sum (shares_nonneg hamount hpos hws) x hx
  rwa [sum_shares] at hsum

/-- Flooring leaves less than one unit of each part over. -/
theorem sum_residues_lt (htotal : 0 < total) (hne : ws ≠ []) :
    (residues amount total ws).sum < ws.length * total := by
  induction ws with
  | nil => exact absurd rfl hne
  | cons w ws ih =>
    have hw := Int.emod_lt_of_pos (amount * w) htotal
    simp only [residues_cons, sum_cons, length_cons]
    push_cast
    rcases eq_or_ne ws [] with rfl | hrest
    · simpa using hw
    · have := ih hrest
      linarith

/-! ## Two amounts over the same weights -/

theorem getD_shares_of_lt (amount : Int) (hi : i + 1 < ws.length) :
    (shares amount ws).getD i 0 = amount * ws.getD i 0 / ws.sum := by
  have hlt : i < ws.dropLast.length := by
    rw [length_dropLast]
    omega
  have hget : ws.dropLast[i] = ws[i] := getElem_dropLast hlt
  unfold shares
  rw [getD_append _ _ _ _ (by rwa [length_floors])]
  rw [getD_eq_getElem _ _ (by rwa [length_floors]), getD_eq_getElem _ _ (by omega)]
  simp only [floors, getElem_map, hget]

theorem getD_shares_last (amount : Int) (ws : List Int) :
    (shares amount ws).getD (ws.length - 1) 0 = lastShare amount ws := by
  have hlen : (floors amount ws.sum ws.dropLast).length = ws.length - 1 := by simp
  unfold shares
  rw [getD_append_right _ _ _ _ (le_of_eq hlen), hlen, Nat.sub_self]
  rfl

theorem getD_shares_of_le (amount : Int) (hne : ws ≠ []) (hi : ws.length ≤ i) :
    (shares amount ws).getD i 0 = 0 :=
  getD_eq_default _ _ (by rwa [length_shares amount hne])

/-- No part is charged more than its weight by the shares of `d` and of `c` together. -/
def PairFits (d c : Int) (ws : List Int) : Prop :=
  ∀ i, (shares d ws).getD i 0 + (shares c ws).getD i 0 ≤ ws.getD i 0

/-- The remainders the other parts leave behind fit in what the last part has to spare. -/
def ResidualFits (d c : Int) (ws : List Int) : Prop :=
  (residues d ws.sum ws.dropLast).sum + (residues c ws.sum ws.dropLast).sum
    ≤ ws.getLastD 0 * (ws.sum - d - c)

instance (d c : Int) (ws : List Int) : Decidable (ResidualFits d c ws) := by
  unfold ResidualFits
  infer_instance

/-- Two floored shares never overdraw their weight. -/
theorem floor_add_floor_le {w : Int} (htotal : 0 < total) (hw : 0 ≤ w) (hsum : d + c ≤ total) :
    d * w / total + c * w / total ≤ w := by
  have hd := Int.ediv_mul_le (d * w) (ne_of_gt htotal)
  have hc := Int.ediv_mul_le (c * w) (ne_of_gt htotal)
  have hdc : (d + c) * w ≤ total * w := mul_le_mul_of_nonneg_right hsum hw
  have hle : (d * w / total + c * w / total) * total ≤ w * total := by
    linarith [mul_comm total w, add_mul d c w, add_mul (d * w / total) (c * w / total) total]
  exact le_of_mul_le_mul_right hle htotal

/-- The last part is the only one that can be overdrawn, and it is exactly when the residuals do
    not fit. -/
theorem lastShare_add_le_iff (hne : ws ≠ []) (hpos : 0 < ws.sum) :
    lastShare d ws + lastShare c ws ≤ ws.getLast hne ↔ ResidualFits d c ws := by
  have hd := lastShare_mul d hne
  have hc := lastShare_mul c hne
  have hlast : ws.getLastD 0 = ws.getLast hne := getLastD_eq_getLast? ▸ by
    rw [getLast?_eq_some_getLast hne]
    rfl
  unfold ResidualFits
  rw [hlast]
  constructor
  · intro h
    nlinarith
  · intro h
    have hmul : ws.sum * (lastShare d ws + lastShare c ws) ≤ ws.sum * ws.getLast hne := by
      nlinarith
    exact le_of_mul_le_mul_left hmul hpos

theorem pairFits_iff (hne : ws ≠ []) (hws : ∀ w ∈ ws, 0 ≤ w) (hd : 0 ≤ d) (hc : 0 ≤ c)
    (hsum : d + c ≤ ws.sum) :
    PairFits d c ws ↔ ResidualFits d c ws := by
  rcases (sum_nonneg hws).lt_or_eq with hpos | hzero
  · rw [← lastShare_add_le_iff hne hpos]
    have hlen : 0 < ws.length := length_pos_iff.2 hne
    have hget : ws.getD (ws.length - 1) 0 = ws.getLast hne := by
      rw [getD_eq_getElem _ _ (by omega), getLast_eq_getElem]
    constructor
    · intro h
      have hlast := h (ws.length - 1)
      rwa [getD_shares_last d ws, getD_shares_last c ws, hget] at hlast
    · intro h i
      rcases Nat.lt_trichotomy (i + 1) ws.length with hlt | heq | hgt
      · rw [getD_shares_of_lt d hlt, getD_shares_of_lt c hlt]
        have hmem : ws.getD i 0 ∈ ws := by
          rw [getD_eq_getElem _ _ (by omega)]
          exact getElem_mem _
        exact floor_add_floor_le hpos (hws _ hmem) hsum
      · obtain rfl : i = ws.length - 1 := by omega
        rwa [getD_shares_last d ws, getD_shares_last c ws, hget]
      · rw [getD_shares_of_le d hne (by omega), getD_shares_of_le c hne (by omega),
          getD_eq_default _ _ (by omega)]
        exact le_refl _
  · -- an all-zero whole carries no reduction, and zero shares overdraw nothing
    obtain rfl : d = 0 := by omega
    obtain rfl : c = 0 := by omega
    have hnonneg : ∀ i, 0 ≤ ws.getD i 0 := by
      intro i
      rcases Nat.lt_or_ge i ws.length with hi | hi
      · rw [getD_eq_getElem _ _ hi]
        exact hws _ (getElem_mem _)
      · rw [getD_eq_default _ _ hi]
    constructor
    · simp [ResidualFits, residues, ← hzero]
    · intro _ i
      have hshare : (replicate ws.length (0 : Int)).getD i 0 = 0 := by
        rw [getD_eq_getElem?_getD, getElem?_getD_replicate_default_eq]
      rw [shares_zero hne, hshare]
      exact hnonneg i

/-! ## Weights that end in zeros -/

/-- The weights without their trailing zeros, so that the last one left can carry the residual. -/
def trim (ws : List Int) : List Int := ws.rdropWhile fun w => decide (w = 0)

theorem trim_concat (ws : List Int) (w : Int) :
    trim (ws ++ [w]) = if w = 0 then trim ws else ws ++ [w] := by
  unfold trim
  rw [rdropWhile_concat]
  by_cases hw : w = 0
  · rw [if_pos (decide_eq_true hw), if_pos hw]
  · rw [if_neg (by simpa using hw), if_neg hw]

theorem trim_eq_nil_iff : trim ws = [] ↔ ∀ w ∈ ws, w = 0 := by
  unfold trim
  simp [rdropWhile_eq_nil_iff]

theorem getLast_trim_ne_zero (hne : trim ws ≠ []) : (trim ws).getLast hne ≠ 0 := by
  intro hzero
  exact rdropWhile_last_not (fun w => decide (w = 0)) ws hne (decide_eq_true hzero)

theorem length_trim_le (ws : List Int) : (trim ws).length ≤ ws.length :=
  (List.rdropWhile_prefix _ ws).length_le

theorem mem_of_mem_trim {w : Int} (h : w ∈ trim ws) : w ∈ ws :=
  (List.rdropWhile_prefix _ ws).subset h

@[simp] theorem sum_trim (ws : List Int) : (trim ws).sum = ws.sum := by
  induction ws using reverseRecOn with
  | nil => rfl
  | append_singleton ws w ih =>
    rw [trim_concat]
    by_cases hw : w = 0
    · simp [hw, ih]
    · simp [hw]

/-- Read with zeros past their end, the trimmed weights are the weights. -/
@[simp] theorem getD_trim (ws : List Int) (i : Nat) : (trim ws).getD i 0 = ws.getD i 0 := by
  induction ws using reverseRecOn with
  | nil => rfl
  | append_singleton ws w ih =>
    rw [trim_concat]
    by_cases hw : w = 0
    · subst hw
      rw [if_pos rfl, ih]
      rcases Nat.lt_or_ge i ws.length with hi | hi
      · rw [getD_append _ _ _ _ hi]
      · rw [getD_append_right _ _ _ _ hi, getD_eq_default _ _ hi]
        cases i - ws.length <;> rfl
    · rw [if_neg hw]

theorem map_rdropWhile_eq_trim {α : Type} (f : α → Int) (xs : List α) :
    (xs.rdropWhile fun x => decide (f x = 0)).map f = trim (xs.map f) := by
  induction xs using reverseRecOn with
  | nil => rfl
  | append_singleton xs x ih =>
    rw [rdropWhile_concat, map_append, map_singleton, trim_concat, ← ih]
    by_cases hx : f x = 0
    · simp [hx]
    · simp [hx]

/-- A part without weight gets no share, the last one having some. -/
theorem weight_ne_zero_of_share_ne_zero (amount : Int) (hne : ws ≠ []) (hlast : ws.getLast hne ≠ 0)
    (hshare : (shares amount ws).getD i 0 ≠ 0) :
    ws.getD i 0 ≠ 0 := by
  rcases Nat.lt_trichotomy (i + 1) ws.length with hlt | heq | hgt
  · rw [getD_shares_of_lt amount hlt] at hshare
    intro hzero
    rw [hzero, mul_zero, Int.zero_ediv] at hshare
    exact hshare rfl
  · obtain rfl : i = ws.length - 1 := by omega
    rwa [getD_eq_getElem _ _ (by omega), ← getLast_eq_getElem hne]
  · rw [getD_shares_of_le amount hne (by omega)] at hshare
    exact absurd rfl hshare

end Apportion
