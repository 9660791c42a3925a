import PosFramework.Core.Billing.Reconcile

set_option autoImplicit false

/-! # Reductions and the classes they reach

The discount and the comps are allocated over the classes one after the other, each with its
residual on the last class. A bill whose reductions are within its subtotal can still have its last
class driven below zero; `assemble_nonneg_iff` says exactly when it is not, and that then no tax
line is negative. -/

namespace PosFramework

open Fallible List Money Apportion Except Tally

/-! ## What is left of each class -/

/-- The class bases as exact integers. -/
def baseMinors (input : BillInput) : List Int := input.classBases.map fun base => base.amount.minor

theorem totalMinor_bases (input : BillInput) :
    totalMinor (input.classBases.map (·.amount)) = (baseMinors input).sum := by
  simp [totalMinor, baseMinors, Function.comp_def]

variable {input : BillInput} {discountShares compShares : List Money} {totals : BillTotals}
  {taxable amount lines : Money} {entry : ClassBase × Nat}

theorem afterReductions_minor
    (h : afterReductions input discountShares compShares entry = .ok lines) :
    lines.minor = entry.1.amount.minor - (discountShares.map minor).getD entry.2 0
      - (compShares.map minor).getD entry.2 0 := by
  simp only [afterReductions, bind_eq_ok, liftMoney_eq_ok, checkedSub_eq_ok] at h
  obtain ⟨afterDiscount, ⟨-, -, hd⟩, -, -, hc⟩ := h
  have hget : ∀ shares : List Money,
      (shares.getD entry.2 (zero input.currencyCode)).minor
        = (shares.map minor).getD entry.2 0 := by
    intro shares
    rw [← minor_zero input.currencyCode, getD_map]
  rw [hc, hd, hget, hget]

variable {feeShares : List ClassBase} {shares : List FeeClassShare} {counted : List BillLine}

/-- The loop keeps what is left of every class it went over, in order. -/
theorem classTaxLoop_lines {entries : List (ClassBase × Nat)} {acc out : ClassTax}
    (h : entries.foldlM (classTaxStep input discountShares compShares feeShares) acc = .ok out) :
    out.linesAfterReductions.map minor
      = acc.linesAfterReductions.map minor ++ entries.map fun entry =>
          entry.1.amount.minor - (discountShares.map minor).getD entry.2 0
            - (compShares.map minor).getD entry.2 0 := by
  induction entries generalizing acc with
  | nil =>
    simp only [foldlM_nil, pure_eq_ok] at h
    simp [h]
  | cons entry entries ih =>
    simp only [foldlM_cons, bind_eq_ok] at h
    obtain ⟨mid, hstep, hrest⟩ := h
    obtain ⟨lines, _, line, hlines, -, -, hpush⟩ := classTaxStep_eq_ok hstep
    rw [ih hrest, (pushTaxLine_eq_ok hpush).2.1]
    simp [afterReductions_minor hlines]

/-- Each class's lines after its share of the discount and of the comps. -/
def linesAfter (input : BillInput) : List Int :=
  input.classBases.zipIdx.map fun entry =>
    entry.1.amount.minor
      - (Apportion.shares input.billDiscount.minor (baseMinors input)).getD entry.2 0
      - (Apportion.shares input.comps.minor (baseMinors input)).getD entry.2 0

variable (a : Assembled input totals)

theorem Assembled.linesAfterReductions_eq :
    a.taxed.linesAfterReductions.map minor = linesAfter input := by
  have hne := (quotedSubtotal_eq_ok a.quoted_ok).1
  obtain ⟨classes, _, _, hclasses, -, -, hout⟩ := classTax_eq_ok a.taxed_ok
  rw [(pushTaxLines_eq_ok hout).2, classTaxLoop_lines hclasses,
    (allocateAcrossClasses_eq_ok hne a.discount_ok).1,
    (allocateAcrossClasses_eq_ok hne a.comp_ok).1]
  rfl

/-- No class is below zero exactly when the two shares of every class fit in it. -/
theorem linesAfter_nonneg_iff (input : BillInput) :
    (∀ x ∈ linesAfter input, 0 ≤ x) ↔
      ∀ i < input.classBases.length,
        (Apportion.shares input.billDiscount.minor (baseMinors input)).getD i 0
          + (Apportion.shares input.comps.minor (baseMinors input)).getD i 0
          ≤ (baseMinors input).getD i 0 := by
  unfold linesAfter
  simp only [forall_mem_map]
  constructor
  · intro h i hi
    have hmem : (input.classBases[i], i) ∈ input.classBases.zipIdx :=
      mk_mem_zipIdx_iff_getElem?.2 (getElem?_eq_getElem hi)
    have hbase : (baseMinors input).getD i 0 = input.classBases[i].amount.minor := by
      simp [baseMinors, hi]
    have hx := h _ hmem
    simp only at hx
    omega
  · rintro h ⟨base, i⟩ hmem
    have hget := mk_mem_zipIdx_iff_getElem?.1 hmem
    obtain ⟨hi, hbase⟩ := List.getElem?_eq_some_iff.1 hget
    have hminor : (baseMinors input).getD i 0 = base.amount.minor := by
      simp [baseMinors, hi, hbase]
    have hx := h i hi
    simp only
    omega

/-! ## Tax on a non-negative base -/

theorem taxFor_nonneg {rate : TaxRate} {components : List TaxComponent} {inclusive : Bool}
    {mode : Rounding} {out : Money × Money × List TaxComponentLine}
    (h : taxFor taxable rate components inclusive mode = .ok out) (hnonneg : 0 ≤ taxable.minor) :
    0 ≤ out.1.minor ∧ 0 ≤ out.2.1.minor := by
  simp only [taxFor, bind_eq_ok, liftMoney_eq_ok, pure_eq_ok] at h
  obtain ⟨tax, htax, base, hbase, split, -, rfl⟩ := h
  have hbp : (0 : Int) ≤ rate.asRatio.numerator.val := Int.natCast_nonneg _
  have hnum : 0 ≤ taxable.minor * rate.asRatio.numerator.val := mul_nonneg hnonneg hbp
  have hden : rate.asRatio.denominator.val = 10000 := rfl
  cases inclusive with
  | true =>
    -- the tax inside an amount is at most the amount
    obtain ⟨-, hdiv⟩ := taxIncluded_eq_ok htax
    have hpos : 0 < rate.asRatio.denominator.val + rate.asRatio.numerator.val := by omega
    have hlow : 0 ≤ tax.minor := le_divRound hdiv hpos (by rw [zero_mul]; exact hnum)
    have hhigh : tax.minor ≤ taxable.minor := divRound_le hdiv hpos (by rw [hden]; nlinarith)
    obtain ⟨-, -, hminor⟩ := checkedSub_eq_ok.1 hbase
    exact ⟨hlow, by simp only [hminor]; omega⟩
  | false =>
    simp only [Bool.false_eq_true, if_false, ok.injEq] at htax hbase
    obtain ⟨-, hdiv⟩ := mulRatio_eq_ok htax
    have hpos : 0 < rate.asRatio.denominator.val := by omega
    exact ⟨le_divRound hdiv hpos (by rw [zero_mul]; exact hnum), hbase ▸ hnonneg⟩

theorem classTaxLine_nonneg {taxClassId : TaxClassId} {line : TaxLine}
    (h : classTaxLine input taxClassId taxable = .ok line) (hnonneg : 0 ≤ taxable.minor) :
    0 ≤ line.tax.minor ∧ 0 ≤ line.taxableBase.minor := by
  simp only [classTaxLine, bind_eq_ok, pure_eq_ok] at h
  obtain ⟨rate, -, taxed, htaxed, rfl⟩ := h
  exact taxFor_nonneg htaxed hnonneg

/-! ## Charges on a non-negative base -/

theorem allocate_nonneg {weights : List I64} {parts : List Money}
    (h : amount.allocate weights = .ok parts) (hnonneg : 0 ≤ amount.minor) :
    ∀ part ∈ parts, 0 ≤ part.minor := by
  obtain ⟨-, hweights, hpos, hminor, -⟩ := allocate_eq_ok h
  have hshares := shares_nonneg hnonneg hpos (by simpa using hweights)
  intro part hpart
  exact hshares _ (hminor ▸ mem_map_of_mem hpart)

theorem followLines_nonneg {byQuantity : Bool}
    (h : followLines amount counted byQuantity = .ok shares)
    (hnonneg : 0 ≤ amount.minor) : ∀ share ∈ shares, 0 ≤ share.amount.minor := by
  simp only [followLines, bind_eq_ok, liftMoney_eq_ok, pure_eq_ok] at h
  obtain ⟨weights, -, parts, hparts, rfl⟩ := h
  intro share hshare
  obtain ⟨⟨weight, part⟩, hmem, rfl⟩ := mem_map.1 hshare
  exact allocate_nonneg hparts hnonneg part (of_mem_zip hmem).2

theorem feeClassShares_nonneg {rule : FrozenFee} {kind : FeeKind}
    (h : feeClassShares rule kind amount counted = .ok (some shares))
    (hnonneg : 0 ≤ amount.minor) : ∀ share ∈ shares, 0 ≤ share.amount.minor := by
  unfold feeClassShares at h
  split at h
  · simp only [ok.injEq, Option.some.injEq] at h
    simp [← h]
  · simp only [ok.injEq, Option.some.injEq] at h
    simpa [← h] using hnonneg
  · exact absurd h (by simp)
  · simp only [map_eq_ok, Option.some.injEq] at h
    obtain ⟨_, hfollow, rfl⟩ := h
    exact followLines_nonneg hfollow hnonneg
  · simp only [map_eq_ok, Option.some.injEq] at h
    obtain ⟨_, hfollow, rfl⟩ := h
    exact followLines_nonneg hfollow hnonneg

/-- A fee that charges nothing negative has no negative share. -/
def FeeLine.SharesNonneg (fee : FeeLine) : Prop :=
  0 ≤ fee.amount.minor → ∀ share ∈ fee.classShares, 0 ≤ share.amount.minor

theorem chargeFees_sharesNonneg {subtotal : Money} {fees : Fees}
    (h : chargeFees input subtotal = .ok fees) : ∀ fee ∈ fees.lines, fee.SharesNonneg := by
  simp only [chargeFees] at h
  split at h
  · simp only [pure_eq_ok] at h
    simp [← h]
  · simp only [bind_eq_ok] at h
    obtain ⟨_, -, _, -, reductions, -, hloop⟩ := h
    refine foldlM_invariant (fun acc => ∀ fee ∈ acc.lines, fee.SharesNonneg) ?_ hloop (by simp)
    intro acc rule acc' _ hacc hstep
    rcases chargeFee_eq_ok hstep with ⟨-, rfl⟩ | ⟨line, _, _, hline, -, -, rfl⟩
    · exact hacc
    · intro fee hfee
      rcases mem_append.1 hfee with hfee | hfee
      · exact hacc fee hfee
      · obtain rfl := mem_singleton.1 hfee
        obtain ⟨kind, amount, shares, -, -, -, hshares, rfl⟩ := feeLine_eq_some hline
        exact feeClassShares_nonneg hshares

/-- What the fees add to a class is not negative where no fee is. -/
theorem Assembled.classShares_nonneg (hfees : ∀ fee ∈ totals.feeLines, 0 ≤ fee.amount.minor) :
    ∀ share ∈ a.fees.classShares, 0 ≤ share.amount.minor := by
  have hsound := chargeFees_sound a.fees_ok
  obtain ⟨huntaxed, -⟩ := taxTheFees_eq_ok a.feeLines_ok
  have hamounts : a.fees.lines.map (·.amount) = totals.feeLines.map (·.amount) := by
    rw [← amounts_untaxed, ← huntaxed, amounts_untaxed]
  have hlines : ∀ base ∈ feeShares a.fees.lines, 0 ≤ base.amount.minor := by
    intro base hbase
    obtain ⟨fee, hfee, hmem⟩ := mem_flatMap.1 hbase
    obtain ⟨share, hshare, rfl⟩ := mem_map.1 hmem
    have hmem' : fee.amount ∈ totals.feeLines.map (·.amount) :=
      hamounts ▸ mem_map_of_mem hfee
    obtain ⟨charged, hcharged, heq⟩ := mem_map.1 hmem'
    exact chargeFees_sharesNonneg a.fees_ok fee hfee (heq ▸ hfees charged hcharged) share hshare
  intro share hshare
  have hsum := sumAt_of_mem ClassBase.taxClassId (fun base => base.amount.minor)
    hsound.nodup hshare
  rw [← hsum]
  have heq := hsound.amountIn_eq share.taxClassId
  unfold amountIn at heq
  rw [heq]
  exact sumAt_nonneg _ _ _ hlines

theorem classTaxable_nonneg {c : TaxClassId}
    (h : classTaxable input feeShares c lines = .ok taxable) (hlines : 0 ≤ lines.minor)
    (hservice : 0 ≤ input.serviceCharge.minor)
    (hshares : ∀ share ∈ feeShares, 0 ≤ share.amount.minor) : 0 ≤ taxable.minor := by
  simp only [classTaxable, bind_eq_ok] at h
  obtain ⟨withCharge, hcharge, h⟩ := h
  have hwith : 0 ≤ withCharge.minor := by
    unfold withServiceCharge at hcharge
    split at hcharge
    · obtain ⟨-, -, hminor⟩ := addMoney_eq_ok.1 hcharge
      omega
    · simp only [ok.injEq] at hcharge
      exact hcharge ▸ hlines
  split at h
  · next share hshare =>
      obtain ⟨-, -, hminor⟩ := addMoney_eq_ok.1 h
      have hpos := hshares share (mem_of_find?_eq_some hshare)
      omega
  · simp only [ok.injEq] at h
    exact h ▸ hwith

theorem extraCharges_nonneg {charges : List ClassBase}
    (h : extraCharges input feeShares = .ok charges) (hservice : 0 ≤ input.serviceCharge.minor)
    (hshares : ∀ share ∈ feeShares, 0 ≤ share.amount.minor) :
    ∀ charge ∈ charges, 0 ≤ charge.amount.minor := by
  have hnodup := (extraCharges_eq_ok h).1
  simp only [extraCharges, bind_eq_ok] at h
  obtain ⟨start, hstart, hloop⟩ := h
  have hstartPos : ∀ base ∈ start, 0 ≤ base.amount.minor := by
    unfold extraServiceCharge at hstart
    split at hstart
    · split at hstart
      · simp only [ok.injEq] at hstart
        simp [← hstart]
      · simp only [addToClass, bump, ok.injEq] at hstart
        simpa [← hstart] using hservice
    · simp only [ok.injEq] at hstart
      simp [← hstart]
  intro charge hcharge
  rw [← sumAt_of_mem ClassBase.taxClassId (fun base => base.amount.minor) hnodup hcharge,
    foldlM_sumAt addToClass_adds hloop]
  refine add_nonneg (sumAt_nonneg _ _ _ hstartPos) (sumAt_nonneg _ _ _ ?_)
  exact fun base hbase => hshares base (mem_of_mem_filter hbase)

/-! ## The whole bill -/

/-- A tax line that reports no negative figure. -/
def TaxLine.Nonneg (line : TaxLine) : Prop := 0 ≤ line.tax.minor ∧ 0 ≤ line.taxableBase.minor

/-- What the class loop keeps: as long as no class is below zero, no tax line is. -/
theorem classTaxStep_nonneg {acc out : ClassTax}
    (h : classTaxStep input discountShares compShares feeShares acc entry = .ok out)
    (hservice : 0 ≤ input.serviceCharge.minor)
    (hshares : ∀ share ∈ feeShares, 0 ≤ share.amount.minor)
    (hacc : (∀ m ∈ acc.linesAfterReductions, 0 ≤ m.minor) → ∀ line ∈ acc.taxLines, line.Nonneg) :
    (∀ m ∈ out.linesAfterReductions, 0 ≤ m.minor) → ∀ line ∈ out.taxLines, line.Nonneg := by
  obtain ⟨lines, taxable, line, -, htaxable, hline, hpush⟩ := classTaxStep_eq_ok h
  obtain ⟨htaxLines, hafter, -, -⟩ := pushTaxLine_eq_ok hpush
  rw [htaxLines, hafter]
  intro hnonneg l hl
  rcases mem_append.1 hl with hl | hl
  · exact hacc (fun m hm => hnonneg m (mem_append_left _ hm)) l hl
  · obtain rfl := mem_singleton.1 hl
    have hlines : 0 ≤ lines.minor := hnonneg lines (by simp)
    exact classTaxLine_nonneg hline (classTaxable_nonneg htaxable hlines hservice hshares)

theorem Assembled.taxLines_nonneg (hservice : 0 ≤ input.serviceCharge.minor)
    (hfees : ∀ fee ∈ totals.feeLines, 0 ≤ fee.amount.minor)
    (hlines : ∀ m ∈ a.taxed.linesAfterReductions, 0 ≤ m.minor) :
    ∀ line ∈ totals.taxLines, line.Nonneg := by
  have hshares := a.classShares_nonneg hfees
  obtain ⟨classes, charges, extra, hclasses, hcharges, hextra, hout⟩ := classTax_eq_ok a.taxed_ok
  rw [(pushTaxLines_eq_ok hout).2] at hlines
  have hclassLines : ∀ line ∈ classes.taxLines, line.Nonneg := by
    refine foldlM_invariant
      (fun acc => (∀ m ∈ acc.linesAfterReductions, 0 ≤ m.minor) →
        ∀ line ∈ acc.taxLines, line.Nonneg)
      ?_ hclasses (by simp) hlines
    intro acc entry acc' _ hacc hstep
    exact classTaxStep_nonneg hstep hservice hshares hacc
  rw [a.taxLines_eq]
  refine foldlM_invariant (fun acc => ∀ line ∈ acc.taxLines, line.Nonneg) ?_ hout hclassLines
  intro acc line acc' hline hacc hstep
  obtain ⟨charge, hcharge, htaxLine⟩ := exists_of_mem_mapM hextra hline
  rw [(pushTaxLine_eq_ok hstep).1]
  intro l hl
  rcases mem_append.1 hl with hl | hl
  · exact hacc l hl
  · obtain rfl := mem_singleton.1 hl
    exact classTaxLine_nonneg htaxLine
      (extraCharges_nonneg hcharges hservice hshares charge hcharge)

/-- Every class keeps a non-negative amount after its reductions, and no tax line is negative. -/
def Assembled.NothingBelowZero {input : BillInput} {totals : BillTotals}
    (a : Assembled input totals) : Prop :=
  (∀ lines ∈ a.taxed.linesAfterReductions, 0 ≤ lines.minor) ∧
    ∀ line ∈ totals.taxLines, 0 ≤ line.tax.minor ∧ 0 ≤ line.taxableBase.minor

/-- On a bill of non-negative figures whose reductions are within its lines, no class goes below
    zero exactly when what flooring the shares of the other classes leaves over, of the discount and
    of the comps, fits in what the reductions leave of the last class. -/
theorem assemble_nonneg_iff (input : BillInput) (totals : BillTotals)
    (h : assemble input = .ok totals) (hbases : ∀ base ∈ input.classBases, 0 ≤ base.amount.minor)
    (hdiscount : 0 ≤ input.billDiscount.minor) (hcomps : 0 ≤ input.comps.minor)
    (hservice : 0 ≤ input.serviceCharge.minor)
    (hwithin : input.billDiscount.minor + input.comps.minor
      ≤ totalMinor (input.classBases.map (·.amount)))
    (hfees : ∀ fee ∈ totals.feeLines, 0 ≤ fee.amount.minor) :
    (∃ a : Assembled input totals, a.NothingBelowZero) ↔
      ResidualFits input.billDiscount.minor input.comps.minor (baseMinors input) := by
  obtain ⟨a⟩ := assembled_of_ok h
  have hne : baseMinors input ≠ [] := by
    simpa [baseMinors] using (quotedSubtotal_eq_ok a.quoted_ok).1
  have hlen : (baseMinors input).length = input.classBases.length := by simp [baseMinors]
  have hnonneg : ∀ w ∈ baseMinors input, 0 ≤ w := by
    intro w hw
    obtain ⟨base, hbase, rfl⟩ := mem_map.1 hw
    exact hbases base hbase
  rw [totalMinor_bases] at hwithin
  rw [← pairFits_iff hne hnonneg hdiscount hcomps hwithin]
  -- whatever the assembly, its classes after the reductions are `linesAfter`
  have hclasses : ∀ b : Assembled input totals,
      (∀ lines ∈ b.taxed.linesAfterReductions, 0 ≤ lines.minor) ↔
        PairFits input.billDiscount.minor input.comps.minor (baseMinors input) := by
    intro b
    rw [← forall_mem_map (P := fun x => 0 ≤ x), b.linesAfterReductions_eq,
      linesAfter_nonneg_iff]
    constructor
    · intro hfits i
      rcases Nat.lt_or_ge i input.classBases.length with hi | hi
      · exact hfits i hi
      · rw [getD_shares_of_le _ hne (by omega), getD_shares_of_le _ hne (by omega),
          getD_eq_default _ _ (by omega)]
        exact le_refl _
    · exact fun hfits i _ => hfits i
  constructor
  · rintro ⟨b, hlines, -⟩
    exact (hclasses b).1 hlines
  · intro hfits
    have hlines := (hclasses a).2 hfits
    exact ⟨a, hlines, a.taxLines_nonneg hservice hfees hlines⟩

/-- Two classes sold for one đồng each, with a discount and a comp of `reduction` each. -/
def twoClassBill (reduction : Money) : BillInput :=
  { oneClassBill reduction [] with
    classBases := [⟨⟨1⟩, .few 1⟩,
      ⟨⟨2⟩, .few 1⟩]
    comps := reduction
    rates := ⟨[⟨⟨1⟩, .fromKnown .dineIn, .tenth, []⟩,
      ⟨⟨2⟩, .fromKnown .dineIn, .tenth, []⟩]⟩
    lines := [] }

/-- Two classes sold for two: what flooring leaves over is just what the last class has left. -/
def borderBill : BillInput :=
  { twoClassBill (.few 1) with
    classBases := [⟨⟨1⟩, .few 2⟩, ⟨⟨2⟩, .few 2⟩]
    comps := .few 2 }

theorem assemble_nonneg_iff_borderBill :
    ∃ totals, ∃ a : Assembled borderBill totals, a.NothingBelowZero := by
  have hrun : succeedsWith (assemble borderBill)
      (fun totals => decide (∀ fee ∈ totals.feeLines, 0 ≤ fee.amount.minor)) = true := by
    decide +kernel

  obtain ⟨totals, h, hfees⟩ := exists_of_succeedsWith hrun
  exact ⟨totals, (assemble_nonneg_iff _ totals h (by decide) (by decide) (by decide) (by decide)
    (by decide) (of_decide_eq_true hfees)).2 (by decide)⟩

/-- Each reduction of one đồng leaves nothing on the first class and all of itself on the second,
    which is then one below zero although the bill is not. -/
theorem twoClassBill_below_zero :
    ∃ totals, assemble (twoClassBill (dong 1 (by decide) (by decide))) = .ok totals ∧
      (∀ base ∈ (twoClassBill (dong 1 (by decide) (by decide))).classBases,
        0 ≤ base.amount.minor) ∧
      (twoClassBill (dong 1 (by decide) (by decide))).billDiscount.minor
          + (twoClassBill (dong 1 (by decide) (by decide))).comps.minor
        ≤ totalMinor ((twoClassBill (dong 1 (by decide) (by decide))).classBases.map
            (·.amount)) ∧
      totals.feeLines = [] ∧ ∃ line ∈ totals.taxLines, line.taxableBase.minor < 0 := by
  have hrun : succeedsWith (assemble (twoClassBill (dong 1 (by decide) (by decide))))
      (fun totals => decide (totals.feeLines = []) &&
        decide (∃ line ∈ totals.taxLines, line.taxableBase.minor < 0)) = true := by
    decide +kernel
  obtain ⟨totals, h, hline⟩ := exists_of_succeedsWith hrun
  simp only [Bool.and_eq_true, decide_eq_true_eq] at hline
  exact ⟨totals, h, by decide, by decide, hline.1, hline.2⟩

end PosFramework
