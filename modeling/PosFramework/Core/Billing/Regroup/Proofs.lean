import PosFramework.Core.Billing.Regroup
import PosFramework.Core.Billing.Sums

set_option autoImplicit false

/-! # What a split shares out and a merge joins

`sum_splitFeeRules` and `splitFeeRules_part` say what the parts of a split keep: together exactly
what the bill held of a fee per bill, and each part, in the bill's order, a share above zero only
where it counts a line. The lemmas on `joinRule` and `joinWhole` say which rules and wholes a merge
puts together. -/

namespace PosFramework

open Fallible Apportion FrozenFee List BoundedInt

/-! ## What a bill holds of a fee -/

/-- A rule's amount in minor units, zero where it has none. -/
def FrozenFee.amountMinor (rule : FrozenFee) : Int := rule.amount.elim 0 Money.minor

/-- What a bill's rules hold under a fee's id. -/
def heldMinor (feeId : FeeId) (rules : List FrozenFee) : Int :=
  Tally.sumAt FrozenFee.feeId FrozenFee.amountMinor feeId rules

variable {rule : FrozenFee} {amount : Money} {parts : List (List BillLine)}
  {kept kept' : List (List FrozenFee)} {rules part' : List FrozenFee} {i : Nat}
  {lines : List BillLine} {feeId : FeeId} {shares : List Money} {weights : List I64}

theorem perBillAmount_eq_some (h : perBillAmount rule = some amount) :
    rule.amount = some amount ∧ 0 ≤ amount.minor := by
  unfold perBillAmount at h
  split at h
  · next hrule =>
      obtain ⟨hkind, hviolations⟩ := hrule
      refine ⟨h, ?_⟩
      have hknown : rule.kind.known = .amountPerBill := by
        simp only [kind?, Open.require?] at hkind
        split at hkind
        · cases hkind
        · exact Option.some.inj hkind
      by_contra hneg
      have hcharge : rule.chargeViolation = some .negativeAmount := by
        simp only [chargeViolation, hknown, h, Money.isNegative]
        simp [not_le.1 hneg]
      simp [violations, hcharge] at hviolations
  · cases h

/-- A rule keeps its kind and shape when only its amount changes, so it stays a fee per bill. -/
theorem perBillAmount_withAmount {share : Money} (h : perBillAmount rule = some amount)
    (hshare : 0 ≤ share.minor) :
    perBillAmount { rule with amount := some share } = some share := by
  obtain ⟨hamount, hnonneg⟩ := perBillAmount_eq_some h
  unfold perBillAmount at h ⊢
  split at h
  · next hrule =>
      have hcharge : ∀ {m : Money}, 0 ≤ m.minor →
          chargeViolation { rule with amount := some m }
            = chargeViolation { rule with amount := some amount } := by
        intro m hm
        simp [chargeViolation, Money.isNegative, not_lt.2 hm, not_lt.2 hnonneg]
      have hsame : { rule with amount := some amount } = rule := by rw [← hamount]
      have hviolations : violations { rule with amount := some share }
          = violations rule := by
        show [chargeViolation { rule with amount := some share }, rule.taxViolation,
          rule.itemsViolation].filterMap id = rule.violations
        rw [hcharge hshare, hsame]
        rfl
      rw [if_pos ⟨hrule.1, hviolations ▸ hrule.2⟩]
  · cases h

/-! ## Splitting -/

@[simp] theorem sumWeights_eq_ok {sum : I64}
    (h : sumWeights weights = .ok sum) : sum.val = (weights.map val).sum := by
  have hloop : ∀ (ws : List I64) (start : I64),
      ws.foldlM (fun sum weight => okOr MoneyError.overflow (sum.checkedAdd weight)) start =
        .ok sum →
        sum.val = start.val + (ws.map val).sum := by
    intro ws
    induction ws with
    | nil =>
      intro start hws
      simp only [foldlM_nil, pure_eq_ok] at hws
      simp [hws]
    | cons w ws ih =>
      intro start hws
      simp only [foldlM_cons, bind_eq_ok, okOr_eq_ok, checkedAdd_eq_some] at hws
      obtain ⟨next, hnext, hrest⟩ := hws
      rw [ih next hrest, hnext, map_cons, sum_cons, add_assoc]
  have hsum := hloop weights 0 h
  rwa [I64.val_zero, zero_add] at hsum

/-- The weights are those of the parts, trimmed; a part that weighs something counts a line, and if
    some part counts a line then not every weight is zero. -/
theorem shareWeights_eq_ok (h : shareWeights rule parts = .ok weights) :
    ∃ ws : List Int, weights.map val = trim ws ∧ ws.length = parts.length ∧
      (∀ i lines, parts[i]? = some lines → ws.getD i 0 ≠ 0 → countedOn rule lines ≠ []) ∧
      ((∃ lines ∈ parts, countedOn rule lines ≠ []) → trim ws ≠ []) := by
  simp only [shareWeights, bind_eq_ok, pure_eq_ok] at h
  obtain ⟨nets, hnets, rfl⟩ := h
  have hlen : nets.length = parts.length := length_of_mapM hnets
  split
  · refine ⟨(parts.map (evenWeight rule)).map val, map_rdropWhile_eq_trim _ _,
      by simp, ?_, ?_⟩
    · intro i lines hi hweight hnone
      refine hweight ?_
      simp [getD_eq_getElem?_getD, hi, evenWeight, hnone]
    · rintro ⟨lines, hmem, hcounts⟩ hnil
      have hone := trim_eq_nil_iff.1 hnil 1 (by
        simp only [map_map, mem_map]
        exact ⟨lines, hmem, by simp [evenWeight, hcounts]⟩)
      exact absurd hone one_ne_zero
  · next hzero =>
    refine ⟨nets.map val, map_rdropWhile_eq_trim _ _, by simpa using hlen,
      ?_, ?_⟩
    · intro i lines hi hweight hnone
      refine hweight ?_
      have hforall := mapM_eq_ok_iff.1 hnets
      obtain ⟨hi', rfl⟩ := List.getElem?_eq_some_iff.1 hi
      have hget := hforall.get (i := i) hi' (hlen ▸ hi')
      simp only [get_eq_getElem, countedWeight, liftMoney_eq_ok, hnone, map_nil] at hget
      have hval := sumWeights_eq_ok hget
      rw [getD_eq_getElem _ _ (by simpa [hlen] using hi'), getElem_map, hval]
      rfl
    · intro _ hnil
      refine hzero fun weight hweight => ?_
      exact trim_eq_nil_iff.1 hnil _ (mem_map_of_mem hweight)

theorem length_keepShares (rule : FrozenFee) (kept : List (List FrozenFee)) (shares : List Money) :
    (keepShares rule kept shares).length = kept.length := by
  induction kept generalizing shares with
  | nil => simp [keepShares]
  | cons part kept ih =>
    cases shares with
    | nil => simp [keepShares]
    | cons => simp [keepShares, ih]

theorem length_splitRule (h : splitRule parts kept rule = .ok kept') :
    kept'.length = kept.length := by
  unfold splitRule at h
  split at h
  · cases h
    exact length_map _
  · simp only [bind_eq_ok] at h
    obtain ⟨weights, _, h⟩ := h
    split at h
    · obtain rfl := pure_eq_ok.1 h
      rfl
    · simp only [map_eq_ok] at h
      obtain ⟨shares, _, rfl⟩ := h
      exact length_keepShares rule kept shares

theorem length_splitFeeRules (h : splitFeeRules rules parts = .ok kept) :
    kept.length = parts.length :=
  foldlM_invariant (fun kept : List (List FrozenFee) => kept.length = parts.length)
    (fun _ _ _ _ hlen hstep => (length_splitRule hstep).trans hlen) h (length_replicate ..)

/-- A part keeps what it kept, and its share of the rule where that is not zero. -/
theorem getElem?_keepShares
    (h : (keepShares rule kept shares)[i]? = some part') :
    ∃ part, kept[i]? = some part ∧ (part' = part ∨ ∃ share, shares[i]? = some share ∧
      share.minor ≠ 0 ∧ part' = part ++ [{ rule with amount := some share }]) := by
  induction kept generalizing shares i with
  | nil => simp [keepShares] at h
  | cons part kept ih =>
    cases shares with
    | nil => exact ⟨part', h, .inl rfl⟩
    | cons share shares =>
      cases i with
      | zero =>
        simp only [keepShares, getElem?_cons_zero, Option.some.injEq] at h
        refine ⟨part, rfl, ?_⟩
        split at h
        · exact .inl h.symm
        · next hzero =>
          exact .inr ⟨share, rfl, fun hminor => hzero (Money.isZero_iff.2 hminor), h.symm⟩
      | succ i =>
        exact ih h

/-- What all the parts hold of a fee. -/
def heldOver (feeId : FeeId) (kept : List (List FrozenFee)) : Int :=
  (kept.map (heldMinor feeId)).sum

theorem heldOver_keepShares (feeId : FeeId) (hlen : shares.length ≤ kept.length) :
    heldOver feeId (keepShares rule kept shares)
      = heldOver feeId kept + if rule.feeId = feeId then totalMinor shares else 0 := by
  induction kept generalizing shares with
  | nil =>
    obtain rfl := length_eq_zero_iff.1 (Nat.le_zero.1 hlen)
    simp [keepShares, totalMinor]
  | cons part kept ih =>
    cases shares with
    | nil => simp [keepShares, totalMinor]
    | cons share shares =>
      have hrest := @ih shares (by simpa using hlen)
      have hpart : heldMinor feeId
          (if share.isZero then part else part ++ [{ rule with amount := some share }])
          = heldMinor feeId part + if rule.feeId = feeId then share.minor else 0 := by
        by_cases hzero : share.isZero = true
        · simp [hzero, Money.isZero_iff.1 hzero]
        · simp [hzero, heldMinor, amountMinor]
      simp only [heldOver, keepShares, map_cons, sum_cons, hpart, totalMinor]
        at hrest ⊢
      rw [hrest]
      split <;> ring

/-- What one part of a split keeps of a rule: the rule itself, or for a fee per bill a share above
    zero, which only a part that counts a line gets. -/
def KeptFrom (lines : List BillLine) (held rule : FrozenFee) : Prop :=
  (perBillAmount rule = none ∧ held = rule) ∨
    ∃ amount share, perBillAmount rule = some amount ∧ share.currencyCode = amount.currencyCode ∧
      0 < share.minor ∧ held = { rule with amount := some share } ∧ countedOn rule lines ≠ []

theorem KeptFrom.feeId_eq {held : FrozenFee} (h : KeptFrom lines held rule) :
    held.feeId = rule.feeId := by
  rcases h with ⟨-, rfl⟩ | ⟨_, _, -, -, -, rfl, -⟩
  · rfl
  · rfl

/-- One rule adds at most one kept rule to each part. -/
theorem splitRule_part (h : splitRule parts kept rule = .ok kept') (hlines : parts[i]? = some lines)
    (hpart' : kept'[i]? = some part') :
    ∃ part, kept[i]? = some part ∧
      (part' = part ∨ ∃ held, KeptFrom lines held rule ∧ part' = part ++ [held]) := by
  unfold splitRule at h
  split at h
  · next hnone =>
      cases h
      rw [getElem?_map, Option.map_eq_some_iff] at hpart'
      obtain ⟨part, hpart, rfl⟩ := hpart'
      exact ⟨part, hpart, .inr ⟨rule, .inl ⟨hnone, rfl⟩, rfl⟩⟩
  · next amount hamount =>
      simp only [bind_eq_ok] at h
      obtain ⟨weights, hweights, h⟩ := h
      split at h
      · next =>
          obtain rfl := pure_eq_ok.1 h
          exact ⟨part', hpart', .inl rfl⟩
      · next hne =>
          simp only [map_eq_ok, liftMoney_eq_ok] at h
          obtain ⟨shares, hshares, rfl⟩ := h
          obtain ⟨part, hpart, rfl | ⟨share, hshare, hnonzero, rfl⟩⟩ := getElem?_keepShares hpart'
          · exact ⟨_, hpart, .inl rfl⟩
          · obtain ⟨ws, htrim, -, hcounts, -⟩ := shareWeights_eq_ok hweights
            obtain ⟨-, hnonneg, hpos, hminor, hcur⟩ := Money.allocate_eq_ok hshares
            have hmem : share ∈ shares := mem_of_getElem? hshare
            have hge : 0 ≤ share.minor := by
              refine shares_nonneg (perBillAmount_eq_some hamount).2 hpos
                (by simpa using hnonneg) _ ?_
              rw [← hminor]
              exact mem_map_of_mem hmem
            -- a share above zero went to a weight above zero, hence to a part that counts a line
            have hweight : ws.getD i 0 ≠ 0 := by
              have htrimmed : trim ws ≠ [] := by
                rw [← htrim]
                simpa using hne
              rw [← getD_trim]
              refine weight_ne_zero_of_share_ne_zero amount.minor htrimmed
                (getLast_trim_ne_zero htrimmed) ?_
              rw [← htrim, ← hminor, getD_eq_getElem?_getD, getElem?_map, hshare]
              exact hnonzero
            refine ⟨part, hpart, .inr ⟨_, .inr ⟨amount, share, hamount, hcur share hmem, ?_, rfl,
              hcounts i lines hlines hweight⟩, rfl⟩⟩
            omega

/-- The parts of a split keep, in order, what each keeps of some of the rules. -/
theorem splitLoop_part (h : rules.foldlM (splitRule parts) kept = .ok kept')
    (hlines : parts[i]? = some lines) (hpart' : kept'[i]? = some part') :
    ∃ part added, kept[i]? = some part ∧ part' = part ++ added ∧
      List.SublistForall₂ (KeptFrom lines) added rules := by
  induction rules generalizing kept with
  | nil =>
    obtain rfl := pure_eq_ok.1 h
    exact ⟨part', [], hpart', by simp, .nil⟩
  | cons rule rules ih =>
    simp only [foldlM_cons, bind_eq_ok] at h
    obtain ⟨mid, hmid, hrest⟩ := h
    obtain ⟨part, added, hpart, rfl, hadded⟩ := ih hrest
    obtain ⟨before, hbefore, rfl | ⟨held, hheld, rfl⟩⟩ := splitRule_part hmid hlines hpart
    · exact ⟨_, added, hbefore, rfl, .cons_right hadded⟩
    · exact ⟨before, held :: added, hbefore, by simp, .cons hheld hadded⟩

/-- A rule that is a fee per bill and, unless it charges nothing, counts a line of some part. -/
def SplitsWhole (rule : FrozenFee) (parts : List (List BillLine)) : Prop :=
  ∃ amount, perBillAmount rule = some amount ∧
    (amount.minor ≠ 0 → ∃ lines ∈ parts, countedOn rule lines ≠ [])

/-- The parts take all of a rule's amount, and nothing of another fee's. -/
theorem splitRule_heldOver (h : splitRule parts kept rule = .ok kept')
    (hlen : kept.length = parts.length) (hrule : rule.feeId = feeId → SplitsWhole rule parts) :
    kept'.length = parts.length ∧ heldOver feeId kept'
      = heldOver feeId kept + if rule.feeId = feeId then rule.amountMinor else 0 := by
  unfold splitRule at h
  split at h
  · next hnone =>
      cases h
      have hother : rule.feeId ≠ feeId := by
        intro heq
        obtain ⟨amount, hamount, -⟩ := hrule heq
        rw [hnone] at hamount
        cases hamount
      have hsame : ∀ part, heldMinor feeId (part ++ [rule]) = heldMinor feeId part := by
        simp [heldMinor, hother]
      refine ⟨by simpa using hlen, ?_⟩
      simp [heldOver, hsame, hother, Function.comp_def]
  · next amount hamount =>
      have hminor : rule.amountMinor = amount.minor := by
        simp [amountMinor, (perBillAmount_eq_some hamount).1]
      simp only [bind_eq_ok] at h
      obtain ⟨weights, hweights, h⟩ := h
      obtain ⟨ws, htrim, hws, -, hcounts⟩ := shareWeights_eq_ok hweights
      split at h
      · next hnil =>
          obtain rfl := pure_eq_ok.1 h
          refine ⟨hlen, ?_⟩
          by_cases heq : rule.feeId = feeId
          · -- no part counts a line, so there is nothing to share
            obtain ⟨amount', hamount', hlines⟩ := hrule heq
            obtain rfl : amount = amount' := Option.some.inj (hamount.symm.trans hamount')
            have hzero : amount.minor = 0 := by
              by_contra hne
              exact hcounts (hlines hne) (by rw [← htrim, hnil, map_nil])
            rw [if_pos heq, hminor, hzero, add_zero]
          · rw [if_neg heq, add_zero]
      · next =>
          simp only [map_eq_ok, liftMoney_eq_ok] at h
          obtain ⟨shares, hshares, rfl⟩ := h
          refine ⟨(length_keepShares ..).trans hlen, ?_⟩
          rw [heldOver_keepShares, totalMinor_of_allocate hshares, hminor]
          calc shares.length = (weights.map val).length := by
                rw [length_of_allocate hshares, length_map]
            _ ≤ ws.length := htrim ▸ length_trim_le ws
            _ = kept.length := by rw [hws, hlen]

theorem splitLoop_heldOver (h : rules.foldlM (splitRule parts) kept = .ok kept')
    (hlen : kept.length = parts.length)
    (hrules : ∀ rule ∈ rules, rule.feeId = feeId → SplitsWhole rule parts) :
    kept'.length = parts.length ∧
      heldOver feeId kept' = heldOver feeId kept + heldMinor feeId rules := by
  induction rules generalizing kept with
  | nil =>
    obtain rfl := pure_eq_ok.1 h
    exact ⟨hlen, by simp [heldMinor]⟩
  | cons rule rules ih =>
    simp only [foldlM_cons, bind_eq_ok] at h
    obtain ⟨mid, hmid, hrest⟩ := h
    obtain ⟨hlen', hheld⟩ := splitRule_heldOver hmid hlen (hrules rule (mem_cons_self ..))
    obtain ⟨hlen'', hheld'⟩ :=
      ih hrest hlen' fun other hother => hrules other (mem_cons_of_mem _ hother)
    refine ⟨hlen'', ?_⟩
    rw [hheld', hheld, heldMinor, heldMinor, Tally.sumAt_cons, add_assoc]

/-- A split shares out exactly what its bill held of a fee per bill. -/
theorem sum_splitFeeRules (h : splitFeeRules rules parts = .ok kept)
    (hrules : ∀ rule ∈ rules, rule.feeId = feeId → SplitsWhole rule parts) :
    kept.length = parts.length ∧ heldOver feeId kept = heldMinor feeId rules := by
  obtain ⟨hlen, hheld⟩ := splitLoop_heldOver h (length_replicate ..) hrules
  refine ⟨hlen, ?_⟩
  rw [hheld]
  simp [heldOver, heldMinor]

/-- The rules of one part of a split, in order, are kept from some of the bill's. -/
theorem splitFeeRules_part (h : splitFeeRules rules parts = .ok kept) {part : List FrozenFee}
    (hlines : parts[i]? = some lines) (hpart : kept[i]? = some part) :
    List.SublistForall₂ (KeptFrom lines) part rules := by
  obtain ⟨before, added, hbefore, rfl, hadded⟩ := splitLoop_part h hlines hpart
  obtain rfl : before = [] := eq_of_mem_replicate (mem_of_getElem? hbefore)
  exact hadded

/-! ## Merging -/

variable {kept : List FrozenFee}

theorem mem_of_mem_joinRules (h : rule ∈ rules.foldl joinRule kept) :
    rule ∈ kept ∨ rule ∈ rules := by
  induction rules generalizing kept with
  | nil => exact .inl h
  | cons first rules ih =>
    rcases ih h with hkept | hrules
    · unfold joinRule at hkept
      split at hkept
      · rcases mem_append.1 hkept with hkept | hfirst
        · exact .inl hkept
        · exact .inr (mem_singleton.1 hfirst ▸ mem_cons_self ..)
      · exact .inl hkept
    · exact .inr (mem_cons_of_mem _ hrules)

theorem nodup_joinRules (h : (kept.map FrozenFee.feeId).Nodup) :
    ((rules.foldl joinRule kept).map FrozenFee.feeId).Nodup := by
  induction rules generalizing kept with
  | nil => exact h
  | cons first rules ih =>
    refine ih ?_
    unfold joinRule
    split
    · next hjoins =>
        rw [map_append, map_singleton, nodup_append]
        refine ⟨h, nodup_singleton _, ?_⟩
        intro held hheld other hother
        obtain ⟨rule, hrule, rfl⟩ := mem_map.1 hheld
        obtain rfl := mem_singleton.1 hother
        exact hjoins.2 rule hrule
    · exact h

theorem mem_joinRules_of_mem (h : rule ∈ kept) : rule ∈ rules.foldl joinRule kept := by
  induction rules generalizing kept with
  | nil => exact h
  | cons first rules ih =>
    refine ih ?_
    unfold joinRule
    split
    · exact mem_append_left _ h
    · exact h

/-- A fee per bill that a merged bill holds is held after the merge, by this rule or an earlier. -/
theorem exists_joinRules (h : rule ∈ rules) (hamount : (perBillAmount rule).isSome) :
    ∃ held ∈ rules.foldl joinRule kept, held.feeId = rule.feeId := by
  induction rules generalizing kept with
  | nil => exact absurd h (by simp)
  | cons first rules ih =>
    rcases mem_cons.1 h with rfl | h
    · by_cases hheld : ∃ held ∈ kept, held.feeId = rule.feeId
      · obtain ⟨held, hmem, hid⟩ := hheld
        exact ⟨held, mem_joinRules_of_mem hmem, hid⟩
      · have hjoins : joinRule kept rule = kept ++ [rule] := by
          refine if_pos ⟨hamount, fun held hmem hid => hheld ⟨held, hmem, hid⟩⟩
        refine ⟨rule, ?_, rfl⟩
        rw [foldl_cons, hjoins]
        exact mem_joinRules_of_mem (mem_append_right _ (mem_singleton_self _))
    · exact ih h

/-- Wholes of one fee that agree still agree after they are joined. -/
theorem joinWholes_amount {wholes kept : List FeeWhole}
    (hwholes : ∀ whole ∈ wholes, whole.feeId = feeId → whole.amount = amount)
    (hkept : ∀ whole ∈ kept, whole.feeId = feeId → whole.amount = amount) :
    ∀ whole ∈ wholes.foldl joinWhole kept, whole.feeId = feeId → whole.amount = amount := by
  have hjoin : ∀ (kept : List FeeWhole) (new : FeeWhole),
      (new.feeId = feeId → new.amount = amount) →
      (∀ whole ∈ kept, whole.feeId = feeId → whole.amount = amount) →
      ∀ whole ∈ joinWhole kept new, whole.feeId = feeId → whole.amount = amount := by
    intro kept new hnew hkept
    induction kept with
    | nil =>
      intro whole hwhole
      exact mem_singleton.1 hwhole ▸ hnew
    | cons first rest ih =>
      simp only [forall_mem_cons] at hkept
      unfold joinWhole
      split
      · next hsame =>
          refine forall_mem_cons.2 ⟨?_, hkept.2⟩
          unfold FeeWhole.raise
          split
          · exact fun hid => hnew (hsame ▸ hid)
          · exact hkept.1
      · exact forall_mem_cons.2 ⟨hkept.1, ih hkept.2⟩
  induction wholes generalizing kept with
  | nil => exact hkept
  | cons first wholes ih =>
    simp only [forall_mem_cons] at hwholes
    exact ih hwholes.2 (hjoin kept first hwholes.1 hkept)

end PosFramework
