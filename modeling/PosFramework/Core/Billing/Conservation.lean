import PosFramework.Core.Billing.Regroup.Proofs

set_option autoImplicit false

/-! # A fee per bill is conserved by regrouping

The live bills a bill is regrouped into, under any sequence of splits and merges. The invariant of a
live bill is `Shares`: it holds the rule at most once, at a non-negative amount, with an own line
the rule counts behind every amount above zero, and knows the amount it is a share of. What the live
bills hold sums to that amount (`Conserved`), so the cap of a merge never bites. -/

namespace PosFramework

open Fallible List Money FrozenFee Option

/-! ## Regrouping live bills -/

/-- A live bill as regrouping sees it: the fees it holds and the lines it owes. -/
structure LiveBill extends MergingBill where
  lines : List BillLine

namespace LiveBill

/-- One part of a split bill, which keeps its source's wholes and waived fees. -/
def part (source : LiveBill) (kept : List FrozenFee) (lines : List BillLine) : LiveBill :=
  { feeRules := kept, feeWholes := source.feeWholes, waivedFeeIds := source.waivedFeeIds, lines }

/-- The bill that holds the fees and owes the lines of the bills merged into it. -/
def merged (holder : LiveBill) (absorbed : List LiveBill) (fees : MergedFees) : LiveBill :=
  { feeRules := fees.feeRules, feeWholes := fees.feeWholes, waivedFeeIds := fees.waivedFeeIds,
    lines := (holder :: absorbed).flatMap lines }

end LiveBill

/-- One regrouping of the live bills: a bill is split over a partition of its lines, or some bills
    are merged into another. -/
inductive RegroupStep : List LiveBill → List LiveBill → Prop
  | split {live rest : List LiveBill} {bill : LiveBill} {parts : List (List BillLine)}
      {kept : List (List FrozenFee)} (hlive : live.Perm (bill :: rest))
      (hparts : parts.flatten.Perm bill.lines)
      (hkept : splitFeeRules bill.feeRules parts = .ok kept) :
      RegroupStep live (zipWith bill.part kept parts ++ rest)
  | merge {live rest absorbed : List LiveBill} {holder : LiveBill} {fees : MergedFees}
      (hlive : live.Perm (holder :: (absorbed ++ rest)))
      (hfees : mergeFeeRules holder.toMergingBill (absorbed.map (·.toMergingBill)) = .ok fees) :
      RegroupStep live (holder.merged absorbed fees :: rest)

/-! ## The invariant -/

/-- What a live bill may hold of a fee per bill that came to `whole` on the bill it stems from. -/
structure Shares (rule : FrozenFee) (whole : Money) (bill : LiveBill) : Prop where
  ids : (bill.feeRules.map feeId).Nodup
  share : ∀ held ∈ bill.feeRules, held.feeId = rule.feeId → ∃ share,
    held = { rule with amount := some share } ∧ share.currencyCode = whole.currencyCode ∧
      0 ≤ share.minor ∧ (share.minor ≠ 0 → countedOn rule bill.lines ≠ [])
  whole : ∀ kept ∈ bill.feeWholes, kept.feeId = rule.feeId → kept.amount = whole

/-- Every live bill holds a share of the fee, and the shares sum to the whole. -/
structure Conserved (rule : FrozenFee) (whole : Money) (live : List LiveBill) : Prop where
  shares : ∀ bill ∈ live, Shares rule whole bill
  sum : (live.map fun bill => heldMinor rule.feeId bill.feeRules).sum = whole.minor

variable {lines : List BillLine} {parts : List (List BillLine)} {bill : LiveBill}
  {wholes : List FeeWhole}

theorem countedOn_ne_nil {rule : FrozenFee} :
    countedOn rule lines ≠ [] ↔ ∃ line ∈ lines, rule.countsItem line.menuItemId = true := by
  unfold countedOn
  simp

variable {rule held out : FrozenFee} {whole : Money} {bills : List MergingBill} {bill : LiveBill}

namespace Shares

variable {bill : LiveBill}

theorem heldMinor_eq (h : Shares rule whole bill) (hheld : held ∈ bill.feeRules)
    (hid : held.feeId = rule.feeId) :
    heldMinor rule.feeId bill.feeRules = held.amountMinor := by
  rw [← hid]
  exact Tally.sumAt_of_mem _ _ h.ids hheld

theorem heldMinor_eq_zero (h : ∀ held ∈ bill.feeRules, held.feeId ≠ rule.feeId) :
    heldMinor rule.feeId bill.feeRules = 0 := by
  refine Tally.sumAt_of_not_mem _ _ _ ?_
  rintro hmem
  obtain ⟨held, hheld, hid⟩ := mem_map.1 hmem
  exact h held hheld hid

theorem heldMinor_nonneg (h : Shares rule whole bill) : 0 ≤ heldMinor rule.feeId bill.feeRules := by
  by_cases hholds : ∃ held ∈ bill.feeRules, held.feeId = rule.feeId
  · obtain ⟨held, hheld, hid⟩ := hholds
    obtain ⟨share, rfl, -, hnonneg, -⟩ := h.share held hheld hid
    rw [h.heldMinor_eq hheld hid]
    exact hnonneg
  · rw [heldMinor_eq_zero fun held hheld hid => hholds ⟨held, hheld, hid⟩]

/-- The share a merge reads off the bill is what it holds. -/
theorem shareHeld_eq (h : Shares rule whole bill) (hrule : perBillAmount rule = some whole) :
    (shareHeld rule.feeId bill.toMergingBill).elim 0 minor
      = heldMinor rule.feeId bill.feeRules := by
  unfold shareHeld
  cases hfind : bill.feeRules.find? fun held => decide (held.feeId = rule.feeId) with
  | none =>
    rw [find?_eq_none] at hfind
    rw [heldMinor_eq_zero fun held hheld hid => hfind held hheld (decide_eq_true hid)]
    rfl
  | some held =>
    have hheld := mem_of_find?_eq_some hfind
    have hid : held.feeId = rule.feeId := by simpa using find?_some hfind
    obtain ⟨share, rfl, -, hnonneg, -⟩ := h.share held hheld hid
    rw [h.heldMinor_eq hheld hid, bind_some, perBillAmount_withAmount hrule hnonneg]
    rfl

theorem counts_of_ne_zero (h : Shares rule whole bill)
    (hne : heldMinor rule.feeId bill.feeRules ≠ 0) : countedOn rule bill.lines ≠ [] := by
  by_cases hholds : ∃ held ∈ bill.feeRules, held.feeId = rule.feeId
  · obtain ⟨held, hheld, hid⟩ := hholds
    rw [h.heldMinor_eq hheld hid] at hne
    obtain ⟨share, rfl, -, -, hcounts⟩ := h.share held hheld hid
    exact hcounts hne
  · exact absurd (heldMinor_eq_zero fun held hheld hid => hholds ⟨held, hheld, hid⟩) hne

end Shares

/-! ## A split -/

theorem exists_counted_part (hparts : parts.flatten.Perm lines)
    (hcounts : countedOn rule lines ≠ []) :
    ∃ part ∈ parts, countedOn rule part ≠ [] := by
  obtain ⟨line, hline, hitem⟩ := countedOn_ne_nil.1 hcounts
  obtain ⟨part, hpart, hmem⟩ := mem_flatten.1 (hparts.mem_iff.2 hline)
  exact ⟨part, hpart, countedOn_ne_nil.2 ⟨line, hmem, hitem⟩⟩

theorem Shares.splitsWhole (h : Shares rule whole bill) (hrule : perBillAmount rule = some whole)
    (hparts : parts.flatten.Perm bill.lines) :
    ∀ held ∈ bill.feeRules, held.feeId = rule.feeId → SplitsWhole held parts := by
  intro held hheld hid
  obtain ⟨share, rfl, -, hnonneg, hcounts⟩ := h.share held hheld hid
  refine ⟨share, perBillAmount_withAmount hrule hnonneg, fun hne => ?_⟩
  exact exists_counted_part hparts (hcounts hne)

/-- A part of a split holds a share. -/
theorem Shares.part {kept : List FrozenFee} (h : Shares rule whole bill)
    (hrule : perBillAmount rule = some whole)
    (hkept : SublistForall₂ (KeptFrom lines) kept bill.feeRules) :
    Shares rule whole (bill.part kept lines) := by
  obtain ⟨sources, hforall, hsub⟩ := sublistForall₂_iff.1 hkept
  have hids : kept.map feeId = sources.map feeId := by
    clear hkept hsub
    induction hforall with
    | nil => rfl
    | cons hkeep _ ih => rw [map_cons, map_cons, hkeep.feeId_eq, ih]
  refine ⟨?_, ?_, h.whole⟩
  · show (kept.map feeId).Nodup
    rw [hids]
    exact (hsub.map _).nodup h.ids
  · intro held hheld hid
    obtain ⟨source, hsource, hkeep⟩ : ∃ source ∈ sources, KeptFrom lines held source := by
      obtain ⟨i, hi, rfl⟩ := getElem_of_mem (show held ∈ kept from hheld)
      have hi' : i < sources.length := hforall.length_eq ▸ hi
      exact ⟨sources[i], getElem_mem _, hforall.get hi hi'⟩
    have hsourceId : source.feeId = rule.feeId := hkeep.feeId_eq ▸ hid
    obtain ⟨share, rfl, hcur, hnonneg, -⟩ := h.share source (hsub.subset hsource) hsourceId
    have hamount := perBillAmount_withAmount hrule hnonneg
    rcases hkeep with ⟨hnone, -⟩ | ⟨amount, part, hsome, hpartCur, hpos, rfl, hcounts⟩
    · rw [hamount] at hnone
      cases hnone
    · obtain rfl : share = amount := some.inj (hamount.symm.trans hsome)
      exact ⟨part, rfl, hpartCur.trans hcur, le_of_lt hpos, fun _ => hcounts⟩

/-- The parts of a split hold shares that sum to what their bill held. -/
theorem Shares.split {kept : List (List FrozenFee)} (h : Shares rule whole bill)
    (hrule : perBillAmount rule = some whole) (hparts : parts.flatten.Perm bill.lines)
    (hkept : splitFeeRules bill.feeRules parts = .ok kept) :
    (∀ part ∈ zipWith bill.part kept parts, Shares rule whole part) ∧
      ((zipWith bill.part kept parts).map fun part => heldMinor rule.feeId part.feeRules).sum
        = heldMinor rule.feeId bill.feeRules := by
  obtain ⟨hlen, hsum⟩ := sum_splitFeeRules hkept (h.splitsWhole hrule hparts)
  constructor
  · intro part hpart
    obtain ⟨i, hi, rfl⟩ := getElem_of_mem hpart
    rw [length_zipWith, lt_min_iff] at hi
    rw [getElem_zipWith]
    exact h.part hrule (splitFeeRules_part hkept (getElem?_eq_getElem hi.2)
      (getElem?_eq_getElem hi.1))
  · rw [← hsum, heldOver, map_zipWith]
    congr 1
    refine ext_getElem (by simp [hlen]) fun i hi hi' => ?_
    rw [getElem_zipWith, getElem_map]
    rfl

/-! ## A merge -/

/-- The shares of the merged bills add up, in the currency of the whole. -/
theorem sum_addShareHeld {bills : List LiveBill} {start total : Money}
    (hrule : perBillAmount rule = some whole) (hbills : ∀ bill ∈ bills, Shares rule whole bill)
    (h : (bills.map (·.toMergingBill)).foldlM (addShareHeld rule.feeId) start = .ok total) :
    total.currencyCode = start.currencyCode ∧ total.minor
      = start.minor + (bills.map fun bill => heldMinor rule.feeId bill.feeRules).sum := by
  induction bills generalizing start with
  | nil =>
    obtain rfl := pure_eq_ok.1 h
    simp
  | cons bill bills ih =>
    simp only [map_cons, foldlM_cons, bind_eq_ok] at h
    obtain ⟨next, hnext, hrest⟩ := h
    obtain ⟨hbill, hbills⟩ := forall_mem_cons.1 hbills
    obtain ⟨hcur, hminor⟩ := ih hbills hrest
    have hheld := hbill.shareHeld_eq hrule
    -- the first bill's share, where it holds one
    have hfirst : next.currencyCode = start.currencyCode ∧
        next.minor = start.minor + heldMinor rule.feeId bill.feeRules := by
      unfold addShareHeld at hnext
      split at hnext
      · next hnone =>
          cases hnext
          rw [hnone] at hheld
          exact ⟨rfl, by rw [← hheld]; simp⟩
      · next share hsome =>
          rw [liftMoney_eq_ok, checkedAdd_eq_ok] at hnext
          rw [hsome] at hheld
          exact ⟨hnext.2.1, by rw [hnext.2.2, ← hheld]; rfl⟩
    rw [hcur, hminor, hfirst.1, hfirst.2, map_cons, sum_cons, add_assoc]
    exact ⟨rfl, rfl⟩

/-- Shares that stay within the whole are not capped. -/
theorem cappedShares_eq {feeId : FeeId} {shares : Money}
    (hwholes : ∀ kept ∈ wholes, kept.feeId = feeId → kept.amount = whole)
    (hle : shares.minor ≤ whole.minor) : cappedShares wholes feeId shares = shares := by
  unfold cappedShares
  split
  · next kept hfind =>
      have hid : kept.feeId = feeId := by simpa using find?_some hfind
      have hamount := hwholes kept (mem_of_find?_eq_some hfind) hid
      rw [hamount, if_neg fun hcap => absurd hcap.2 (not_lt.2 hle)]
  · rfl

theorem mergedRule_feeId
    (h : mergedRule bills wholes held = .ok out) :
    out.feeId = held.feeId := by
  unfold mergedRule at h
  split at h
  · rw [Except.ok.inj h]
  · simp only [bind_eq_ok, pure_eq_ok] at h
    obtain ⟨_, -, rfl⟩ := h
    rfl

/-- The rule of a merged bill carries what the merged bills held of its fee. -/
theorem mergedRule_eq_ok {bills : List LiveBill} {share : Money}
    (hrule : perBillAmount rule = some whole) (hbills : ∀ bill ∈ bills, Shares rule whole bill)
    (hwholes : ∀ kept ∈ wholes, kept.feeId = rule.feeId → kept.amount = whole)
    (hle : (bills.map fun bill => heldMinor rule.feeId bill.feeRules).sum ≤ whole.minor)
    (hheld : held = { rule with amount := some share }) (hnonneg : 0 ≤ share.minor)
    (hcur : share.currencyCode = whole.currencyCode)
    (h : mergedRule (bills.map (·.toMergingBill)) wholes held = .ok out) :
    ∃ total : Money, out = { rule with amount := some total } ∧
      total.currencyCode = whole.currencyCode ∧
      total.minor = (bills.map fun bill => heldMinor rule.feeId bill.feeRules).sum := by
  subst hheld
  unfold mergedRule at h
  rw [perBillAmount_withAmount hrule hnonneg] at h
  simp only [bind_eq_ok, pure_eq_ok] at h
  obtain ⟨total, htotal, rfl⟩ := h
  obtain ⟨htotalCur, hminor⟩ := sum_addShareHeld hrule hbills htotal
  simp only [minor_zero, zero_add, currencyCode_zero] at hminor htotalCur
  rw [cappedShares_eq hwholes (hminor ▸ hle)]
  exact ⟨total, rfl, htotalCur.trans hcur, hminor⟩

section Merge

variable {holder : LiveBill} {absorbed : List LiveBill} {fees : MergedFees}

/-- Every bill that holds the fee leaves a rule for it among those a merge joins. -/
theorem exists_joined (hrule : perBillAmount rule = some whole)
    (hbill : bill ∈ holder :: absorbed) (hshares : Shares rule whole bill)
    (hheld : held ∈ bill.feeRules) (hid : held.feeId = rule.feeId) :
    ∃ joined ∈ ((absorbed.map (·.toMergingBill)).flatMap (·.feeRules)).foldl joinRule
      holder.feeRules, joined.feeId = rule.feeId := by
  rcases mem_cons.1 hbill with rfl | hbill
  · exact ⟨held, mem_joinRules_of_mem hheld, hid⟩
  · obtain ⟨share, hshare, -, hnonneg, -⟩ := hshares.share held hheld hid
    have hamount : perBillAmount held = some share :=
      hshare ▸ perBillAmount_withAmount hrule hnonneg
    rw [← hid, flatMap_map]
    exact exists_joinRules (mem_flatMap.2 ⟨bill, hbill, hheld⟩) (by simp [hamount])

theorem mergedWholes_amount (hbills : ∀ bill ∈ holder :: absorbed, Shares rule whole bill) :
    ∀ kept ∈ ((holder.toMergingBill :: absorbed.map (·.toMergingBill)).flatMap
      (·.feeWholes)).foldl joinWhole [], kept.feeId = rule.feeId → kept.amount = whole := by
  refine joinWholes_amount ?_ (by simp)
  intro kept hkept
  rw [← map_cons (f := LiveBill.toMergingBill), flatMap_map] at hkept
  obtain ⟨bill, hbill, hmem⟩ := mem_flatMap.1 hkept
  exact (hbills bill hbill).whole kept hmem

/-- What a merge produces: the joined rules, each at its merged amount, and the joined wholes. -/
theorem mergeFeeRules_eq_ok {first : MergingBill} (h : mergeFeeRules first bills = .ok fees) :
    ((bills.flatMap (·.feeRules)).foldl joinRule first.feeRules).mapM
        (mergedRule (first :: bills) fees.feeWholes) = .ok fees.feeRules ∧
      fees.feeWholes = ((first :: bills).flatMap (·.feeWholes)).foldl joinWhole [] := by
  simp only [mergeFeeRules, bind_eq_ok, pure_eq_ok] at h
  obtain ⟨feeRules, hfeeRules, rfl⟩ := h
  exact ⟨hfeeRules, rfl⟩

variable (hrule : perBillAmount rule = some whole)
  (hbills : ∀ bill ∈ holder :: absorbed, Shares rule whole bill)
  (hle : ((holder :: absorbed).map fun bill => heldMinor rule.feeId bill.feeRules).sum
    ≤ whole.minor)
  (hfees : mergeFeeRules holder.toMergingBill (absorbed.map (·.toMergingBill)) = .ok fees)

include hrule hbills hle hfees

/-- Every rule of the merged bill under the fee's id carries the sum of the shares. -/
theorem mergedFees_rule (hout : out ∈ fees.feeRules)
    (hid : out.feeId = rule.feeId) : ∃ total : Money,
      out = { rule with amount := some total } ∧ total.currencyCode = whole.currencyCode ∧
      total.minor
        = ((holder :: absorbed).map fun bill => heldMinor rule.feeId bill.feeRules).sum := by
  obtain ⟨hfeeRules, hwholes⟩ := mergeFeeRules_eq_ok hfees
  obtain ⟨held, hheld, hmerged⟩ := exists_of_mem_mapM hfeeRules hout
  rw [mergedRule_feeId hmerged] at hid
  obtain ⟨bill, hbill, hmem⟩ : ∃ bill ∈ holder :: absorbed, held ∈ bill.feeRules := by
    rcases mem_of_mem_joinRules hheld with hmem | hmem
    · exact ⟨holder, mem_cons_self .., hmem⟩
    · rw [flatMap_map] at hmem
      obtain ⟨bill, hbill, hmem⟩ := mem_flatMap.1 hmem
      exact ⟨bill, mem_cons_of_mem _ hbill, hmem⟩
  obtain ⟨share, heq, hcur, hnonneg, -⟩ := (hbills bill hbill).share held hmem hid
  exact mergedRule_eq_ok hrule hbills (hwholes ▸ mergedWholes_amount hbills) hle heq hnonneg hcur
    hmerged

/-- The merged bill holds a share. -/
theorem Shares.merge : Shares rule whole (holder.merged absorbed fees) := by
  obtain ⟨hfeeRules, hwholes⟩ := mergeFeeRules_eq_ok hfees
  have hids : fees.feeRules.map feeId = _ :=
    map_eq_of_mapM feeId feeId hfeeRules fun _ _ _ => mergedRule_feeId
  refine ⟨?_, ?_, ?_⟩
  · show (fees.feeRules.map feeId).Nodup
    rw [hids]
    exact nodup_joinRules (hbills holder (mem_cons_self ..)).ids
  · intro out hout hid
    obtain ⟨total, rfl, hcur, hminor⟩ := mergedFees_rule hrule hbills hle hfees hout hid
    refine ⟨total, rfl, hcur, ?_, ?_⟩
    · rw [hminor]
      refine sum_nonneg ?_
      intro minor hmem
      obtain ⟨bill, hbill, rfl⟩ := mem_map.1 hmem
      exact (hbills bill hbill).heldMinor_nonneg
    · intro hne
      obtain ⟨bill, hbill, hheld⟩ : ∃ bill ∈ holder :: absorbed,
          heldMinor rule.feeId bill.feeRules ≠ 0 := by
        by_contra hnone
        push Not at hnone
        refine hne (hminor.trans (sum_eq_zero ?_))
        intro minor hmem
        obtain ⟨bill, hbill, rfl⟩ := mem_map.1 hmem
        exact hnone bill hbill
      obtain ⟨line, hline, hitem⟩ :=
        countedOn_ne_nil.1 ((hbills bill hbill).counts_of_ne_zero hheld)
      exact countedOn_ne_nil.2 ⟨line, mem_flatMap.2 ⟨bill, hbill, hline⟩, hitem⟩
  · show ∀ kept ∈ fees.feeWholes, _
    rw [hwholes]
    exact mergedWholes_amount hbills

/-- The merged bill holds the sum of what the merged bills held. -/
theorem heldMinor_merge : heldMinor rule.feeId (holder.merged absorbed fees).feeRules
    = ((holder :: absorbed).map fun bill => heldMinor rule.feeId bill.feeRules).sum := by
  have hshares := Shares.merge hrule hbills hle hfees
  by_cases hholds : ∃ out ∈ fees.feeRules, out.feeId = rule.feeId
  · obtain ⟨out, hout, hid⟩ := hholds
    rw [hshares.heldMinor_eq hout hid]
    obtain ⟨total, rfl, -, hminor⟩ := mergedFees_rule hrule hbills hle hfees hout hid
    exact hminor
  · -- no rule under the fee's id: none of the merged bills held one
    rw [Shares.heldMinor_eq_zero fun out hout hid => hholds ⟨out, hout, hid⟩]
    refine (sum_eq_zero ?_).symm
    intro minor hmem
    obtain ⟨bill, hbill, rfl⟩ := mem_map.1 hmem
    refine Shares.heldMinor_eq_zero fun held hheld hid => ?_
    obtain ⟨joined, hjoined, hjoinedId⟩ :=
      exists_joined hrule hbill (hbills bill hbill) hheld hid
    obtain ⟨out, hout, hmerged⟩ := exists_mem_of_mapM (mergeFeeRules_eq_ok hfees).1 hjoined
    exact hholds ⟨out, hout, (mergedRule_feeId hmerged).trans hjoinedId⟩

end Merge

/-! ## Steps and runs -/

/-- One regrouping conserves the fee. -/
theorem Conserved.step {live live' : List LiveBill} (h : Conserved rule whole live)
    (hrule : perBillAmount rule = some whole) (hstep : RegroupStep live live') :
    Conserved rule whole live' := by
  cases hstep with
  | @split rest bill parts kept hlive hparts hkept =>
    have hshares : ∀ other ∈ bill :: rest, Shares rule whole other :=
      fun other hother => h.shares other (hlive.mem_iff.2 hother)
    obtain ⟨hbill, hrest⟩ := forall_mem_cons.1 hshares
    obtain ⟨hsplit, hsum⟩ := hbill.split hrule hparts hkept
    refine ⟨?_, ?_⟩
    · intro other hother
      exact (mem_append.1 hother).elim (hsplit other) (hrest other)
    · rw [map_append, sum_append, hsum, ← h.sum, (hlive.map _).sum_eq, map_cons,
        sum_cons]
  | @merge rest absorbed holder fees hlive hfees =>
    have hshares : ∀ other ∈ holder :: (absorbed ++ rest), Shares rule whole other :=
      fun other hother => h.shares other (hlive.mem_iff.2 hother)
    have htotal := h.sum
    rw [(hlive.map _).sum_eq, ← cons_append, map_append, sum_append] at htotal
    have hbills : ∀ bill ∈ holder :: absorbed, Shares rule whole bill := by
      intro bill hbill
      refine hshares bill ?_
      exact mem_append_left _ hbill
    have hrest : ∀ bill ∈ rest, Shares rule whole bill := by
      intro bill hbill
      exact hshares bill (mem_cons_of_mem _ (mem_append_right _ hbill))
    have hothers : 0 ≤ (rest.map fun bill => heldMinor rule.feeId bill.feeRules).sum := by
      refine sum_nonneg ?_
      intro minor hmem
      obtain ⟨bill, hbill, rfl⟩ := mem_map.1 hmem
      exact (hrest bill hbill).heldMinor_nonneg
    have hle : ((holder :: absorbed).map fun bill => heldMinor rule.feeId bill.feeRules).sum
        ≤ whole.minor := by omega
    refine ⟨forall_mem_cons.2 ⟨Shares.merge hrule hbills hle hfees, hrest⟩, ?_⟩
    rw [map_cons, sum_cons, heldMinor_merge hrule hbills hle hfees, htotal]

/-- Any sequence of regroupings conserves the fee. -/
theorem Conserved.run {live live' : List LiveBill} (h : Conserved rule whole live)
    (hrule : perBillAmount rule = some whole)
    (hrun : Relation.ReflTransGen RegroupStep live live') : Conserved rule whole live' := by
  induction hrun with
  | refl => exact h
  | tail _ hstep ih => exact ih.step hrule hstep

/-- A bill split from no other holds its fees per bill whole. -/
theorem conserved_opened (hids : (bill.feeRules.map feeId).Nodup)
    (hmem : rule ∈ bill.feeRules) (hrule : perBillAmount rule = some whole)
    (hwholes : bill.feeWholes = feeWholes bill.feeRules)
    (hcounts : ∃ line ∈ bill.lines, rule.countsItem line.menuItemId = true) :
    Conserved rule whole [bill] := by
  obtain ⟨hamount, hnonneg⟩ := perBillAmount_eq_some hrule
  have honly : ∀ held ∈ bill.feeRules, held.feeId = rule.feeId → held = rule :=
    fun held hheld hid => inj_on_of_nodup_map hids hheld hmem hid
  refine ⟨?_, ?_⟩
  · intro other hother
    obtain rfl := mem_singleton.1 hother
    refine ⟨hids, ?_, ?_⟩
    · intro held hheld hid
      obtain rfl := honly held hheld hid
      refine ⟨whole, ?_, rfl, hnonneg, fun _ => countedOn_ne_nil.2 hcounts⟩
      rw [← hamount]
    · intro kept hkept hid
      rw [hwholes, feeWholes, mem_filterMap] at hkept
      obtain ⟨held, hheld, hkept⟩ := hkept
      obtain ⟨amount, hheldAmount, rfl⟩ := map_eq_some_iff.1 hkept
      obtain rfl := honly held hheld hid
      exact some.inj (hheldAmount.symm.trans hrule)
  · have hheld : heldMinor rule.feeId bill.feeRules = rule.amountMinor :=
      Tally.sumAt_of_mem _ _ hids hmem
    simp [hheld, FrozenFee.amountMinor, hamount]

/-- The fee per bill a bill opened with is conserved, whatever splits and merges its bills see: at
    every moment the live bills hold exactly its amount, none of them more, and one that holds some
    of it counts a line of its own. Once they are merged back into one, that bill holds it whole. -/
theorem regroup_conserves_fee_per_bill {live : List LiveBill}
    (hids : (bill.feeRules.map feeId).Nodup) (hmem : rule ∈ bill.feeRules)
    (hrule : perBillAmount rule = some whole) (hwholes : bill.feeWholes = feeWholes bill.feeRules)
    (hcounts : ∃ line ∈ bill.lines, rule.countsItem line.menuItemId = true)
    (hrun : Relation.ReflTransGen RegroupStep [bill] live) :
    (live.map fun other => heldMinor rule.feeId other.feeRules).sum = whole.minor ∧
    (∀ other ∈ live, heldMinor rule.feeId other.feeRules ≤ whole.minor) ∧
    (∀ other ∈ live, ∀ held ∈ other.feeRules, held.feeId = rule.feeId → held.amountMinor ≠ 0 →
      ∃ line ∈ other.lines, held.countsItem line.menuItemId = true) ∧
    (∀ other, live = [other] → heldMinor rule.feeId other.feeRules = whole.minor ∧
      (whole.minor ≠ 0 → rule ∈ other.feeRules)) := by
  have hconserved := (conserved_opened hids hmem hrule hwholes hcounts).run hrule hrun
  obtain ⟨hamount, -⟩ := perBillAmount_eq_some hrule
  refine ⟨hconserved.sum, ?_, ?_, ?_⟩
  · intro other hother
    rw [← hconserved.sum]
    refine single_le_sum ?_ _ (mem_map_of_mem hother)
    intro minor hminor
    obtain ⟨holder, hholder, rfl⟩ := mem_map.1 hminor
    exact (hconserved.shares holder hholder).heldMinor_nonneg
  · intro other hother held hheld hid hne
    obtain ⟨share, rfl, -, -, hlines⟩ := (hconserved.shares other hother).share held hheld hid
    exact countedOn_ne_nil.1 (hlines hne)
  · rintro other rfl
    have hshares := hconserved.shares other (mem_singleton_self _)
    have hsum : heldMinor rule.feeId other.feeRules = whole.minor := by
      simpa using hconserved.sum
    refine ⟨hsum, fun hne => ?_⟩
    by_cases hholds : ∃ held ∈ other.feeRules, held.feeId = rule.feeId
    · obtain ⟨held, hheld, hid⟩ := hholds
      rw [hshares.heldMinor_eq hheld hid] at hsum
      obtain ⟨share, rfl, hcur, -, -⟩ := hshares.share held hheld hid
      obtain rfl : share = whole := eq_iff.2 ⟨hcur, hsum⟩
      rwa [← hamount] at hheld
    · rw [Shares.heldMinor_eq_zero fun held hheld hid => hholds ⟨held, hheld, hid⟩] at hsum
      exact absurd hsum.symm hne

/-- A fee of 100 per bill on every item. -/
def perBillRule : FrozenFee where
  feeId := ⟨1⟩
  code := ⟨"FEE"⟩
  displayName := ⟨"Fee"⟩
  kind := .fromKnown .amountPerBill
  rate := none
  amount := some (.few 100)
  itemScope := .fromKnown .all
  menuItemIds := []
  baseDiscounted := false
  baseTaxInclusive := false
  tax := .fromKnown .notTaxable
  taxClassId := none
  waivable := false

/-- One unit of the only item on the menu, sold for `net`. -/
def soldLine (net : Money) : BillLine := ⟨⟨1⟩, .one, net, ⟨1⟩⟩

/-- A bill of two lines, one of 1 and one of 2, with the fee. -/
def perBillBill : LiveBill where
  feeRules := [perBillRule]
  feeWholes := feeWholes [perBillRule]
  waivedFeeIds := []
  lines := [soldLine (.few 1),
    soldLine (.few 2)]

/-- The part that owes one line and keeps `share` of the fee. -/
def perBillPart (share : Money) (line : BillLine) : LiveBill :=
  perBillBill.part [{ perBillRule with amount := some share }] [line]

/-- The bill is split by line, into shares of 33 and 67, and the parts are merged back. -/
theorem regroup_conserves_fee_per_bill_twoParts :
    ∃ parts merged, RegroupStep [perBillBill] parts ∧ RegroupStep parts [merged] ∧
      parts.map (fun part => heldMinor perBillRule.feeId part.feeRules) = [33, 67] ∧
      heldMinor perBillRule.feeId merged.feeRules = 100 ∧ perBillRule ∈ merged.feeRules := by
  let less := dong 33 (by decide) (by decide)
  let more := dong 67 (by decide) (by decide)
  let cheap := soldLine (dong 1 (by decide) (by decide))
  let dear := soldLine (dong 2 (by decide) (by decide))
  have hsplit : splitFeeRules perBillBill.feeRules [[cheap], [dear]]
      = .ok [(perBillPart less cheap).feeRules, (perBillPart more dear).feeRules] := by
    decide +kernel
  have hmerge : mergeFeeRules (perBillPart less cheap).toMergingBill
      [(perBillPart more dear).toMergingBill]
      = .ok ⟨[perBillRule], feeWholes [perBillRule], []⟩ := by decide +kernel
  have hfirst : RegroupStep [perBillBill] [perBillPart less cheap, perBillPart more dear] :=
    @RegroupStep.split _ [] perBillBill _ _ (Perm.refl _) (Perm.refl _) hsplit
  have hsecond : RegroupStep [perBillPart less cheap, perBillPart more dear]
      [(perBillPart less cheap).merged [perBillPart more dear]
        ⟨[perBillRule], feeWholes [perBillRule], []⟩] :=
    @RegroupStep.merge _ [] [perBillPart more dear] _ _ (Perm.refl _) hmerge
  have hmem : perBillRule ∈ perBillBill.feeRules := mem_singleton_self _
  obtain ⟨-, -, -, hone⟩ := regroup_conserves_fee_per_bill (by decide) hmem rfl rfl
    ⟨cheap, by decide, by decide⟩ ((Relation.ReflTransGen.single hfirst).tail hsecond)
  obtain ⟨hheld, hrule⟩ := hone _ rfl
  exact ⟨_, _, hfirst, hsecond, by decide, hheld, hrule (by decide)⟩

end PosFramework
