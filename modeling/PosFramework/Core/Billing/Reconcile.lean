import PosFramework.Core.Billing.Sums

set_option autoImplicit false

/-! # A bill's totals reconcile

For every input `assemble` accepts, its figures add up exactly: the tax lines to the tax, the fees
to the service charge, each fee's class shares to the fee, each breakdown to its tax, and the whole
to what is due. The proof follows the stages of `assemble`, which `Assembled` names once. -/

namespace PosFramework

open Fallible Tally List Money FeeLine Except Function

/-! ## The stages of an assembly -/

/-- The intermediate figures of a successful `assemble`, each with the step that gave it. -/
structure Assembled (input : BillInput) (totals : BillTotals) where
  quoted : Money
  discountShares : List Money
  compShares : List Money
  fees : Fees
  taxed : ClassTax
  unrounded : Money
  quoted_ok : quotedSubtotal input = .ok quoted
  discount_ok : allocateAcrossClasses input.billDiscount input.classBases = .ok discountShares
  comp_ok : allocateAcrossClasses input.comps input.classBases = .ok compShares
  fees_ok : chargeFees input quoted = .ok fees
  taxed_ok : classTax input discountShares compShares fees.classShares = .ok taxed
  subtotal_ok :
    (if input.pricesIncludeTax then quoted.checkedSub taxed.taxTotal else .ok quoted)
      = .ok totals.subtotal
  feeLines_ok :
    taxTheFees fees.lines taxed.taxLines input taxed.linesAfterReductions = .ok totals.feeLines
  serviceCharge_ok : addMoney input.serviceCharge fees.total = .ok totals.serviceCharge
  unrounded_currency : unrounded.currencyCode = totals.subtotal.currencyCode
  unrounded_minor :
    unrounded.minor = totals.subtotal.minor - input.billDiscount.minor - input.comps.minor
      + totals.serviceCharge.minor + taxed.taxTotal.minor
  currencies :
    totals.subtotal.currencyCode = input.billDiscount.currencyCode ∧
      totals.subtotal.currencyCode = input.comps.currencyCode ∧
      totals.subtotal.currencyCode = totals.serviceCharge.currencyCode ∧
      totals.subtotal.currencyCode = taxed.taxTotal.currencyCode
  rounded_ok :
    cashRounded unrounded input.cashRoundingIncrement input.currencyCode
      = .ok (totals.totalDue, totals.roundingAdjustment)
  discountTotal_eq : totals.discountTotal = input.billDiscount
  compTotal_eq : totals.compTotal = input.comps
  taxLines_eq : totals.taxLines = taxed.taxLines
  taxTotal_eq : totals.taxTotal = taxed.taxTotal

variable {input : BillInput} {totals : BillTotals} {rule : FrozenFee}
  {subtotal reductions taxable amount : Money} {fees : Fees} {line : TaxLine} {acc out : ClassTax}
  {discountShares compShares lines : List Money} {c : TaxClassId} {shares : List FeeClassShare}
  {entry : ClassBase × Nat} {counted : List BillLine}

theorem assembled_of_ok (h : assemble input = .ok totals) : Nonempty (Assembled input totals) := by
  simp only [assemble, bind_eq_ok, liftMoney_eq_ok, pure_eq_ok] at h
  obtain ⟨quoted, hquoted, discountShares, hdiscount, compShares, hcomp, fees, hfees, taxed, htaxed,
    subtotal, hsubtotal, feeLines, hfeeLines, serviceCharge, hservice, afterDiscount, hd,
    afterComps, hc, withCharge, hw, unrounded, hu, due, hdue, rfl⟩ := h
  rw [checkedSub_eq_ok] at hd hc
  rw [addMoney_eq_ok] at hw hu
  obtain ⟨hd1, hd2, hd3⟩ := hd
  obtain ⟨hc1, hc2, hc3⟩ := hc
  obtain ⟨hw1, hw2, hw3⟩ := hw
  obtain ⟨hu1, hu2, hu3⟩ := hu
  exact ⟨{
    quoted := quoted, discountShares := discountShares, compShares := compShares, fees := fees,
    taxed := taxed, unrounded := unrounded, quoted_ok := hquoted, discount_ok := hdiscount,
    comp_ok := hcomp, fees_ok := hfees, taxed_ok := htaxed, subtotal_ok := hsubtotal,
    feeLines_ok := hfeeLines, serviceCharge_ok := hservice,
    unrounded_currency := by rw [hu2, hw2, hc2, hd2]
    unrounded_minor := by rw [hu3, hw3, hc3, hd3]
    currencies := ⟨hd1, by rw [← hc1, hd2], by rw [← hw1, hc2, hd2], by rw [← hu1, hw2, hc2, hd2]⟩
    rounded_ok := hdue, discountTotal_eq := rfl, compTotal_eq := rfl, taxLines_eq := rfl,
    taxTotal_eq := rfl }⟩

theorem quotedSubtotal_eq_ok {quoted : Money} (h : quotedSubtotal input = .ok quoted) :
    input.classBases ≠ [] ∧ quoted.currencyCode = input.currencyCode ∧
      quoted.minor = totalMinor (input.classBases.map (·.amount)) := by
  simp only [quotedSubtotal, bind_eq_ok, refuseIf_eq_ok] at h
  obtain ⟨_, hne, hsum⟩ := h
  obtain ⟨hcur, hminor, -⟩ := sumMoney_eq_ok hsum
  exact ⟨hne, hcur, hminor⟩

/-! ## Fees -/

/-- The class and amount of a share, without its tax. -/
def FeeClassShare.base (share : FeeClassShare) : ClassBase := ⟨share.taxClassId, share.amount⟩

/-- Every share of every fee, as charges in their classes. -/
def feeShares (feeLines : List FeeLine) : List ClassBase :=
  feeLines.flatMap fun fee => fee.classShares.map FeeClassShare.base

/-- A fee that is taxed by class is taxed on exactly its amount. -/
def FeeLine.Balanced (fee : FeeLine) : Prop :=
  fee.classShares = [] ∨ totalMinor (fee.classShares.map (·.amount)) = fee.amount.minor

theorem followLines_eq_ok {byQuantity : Bool}
    (h : followLines amount counted byQuantity = .ok shares) :
    totalMinor (shares.map (·.amount)) = amount.minor := by
  simp only [followLines, bind_eq_ok, liftMoney_eq_ok, pure_eq_ok] at h
  obtain ⟨weights, -, parts, hparts, rfl⟩ := h
  have hlen : parts.length = weights.length := by
    have hlen := length_of_allocate hparts
    split at hlen
    · simpa using hlen
    · simpa using hlen
  have hamounts : ((weights.zip parts).map fun p =>
      (⟨p.1.1, p.2, zero p.2.currencyCode⟩ : FeeClassShare)).map (·.amount) = parts := by
    rw [map_map]
    exact map_snd_zip (le_of_eq hlen)
  rw [hamounts, totalMinor_of_allocate hparts]

theorem feeClassShares_eq_ok {kind : FeeKind}
    (h : feeClassShares rule kind amount counted = .ok (some shares)) :
    shares = [] ∨ totalMinor (shares.map (·.amount)) = amount.minor := by
  unfold feeClassShares at h
  split at h
  · simp only [ok.injEq, Option.some.injEq] at h
    exact Or.inl h.symm
  · simp only [ok.injEq, Option.some.injEq] at h
    subst h
    exact Or.inr (by simp)
  · exact absurd h (by simp)
  · simp only [map_eq_ok, Option.some.injEq] at h
    obtain ⟨_, hfollow, rfl⟩ := h
    exact Or.inr (followLines_eq_ok hfollow)
  · simp only [map_eq_ok, Option.some.injEq] at h
    obtain ⟨_, hfollow, rfl⟩ := h
    exact Or.inr (followLines_eq_ok hfollow)

/-- The lines a rule counts. -/
def countedLines (rule : FrozenFee) (input : BillInput) : List BillLine :=
  input.lines.filter fun line => rule.countsItem line.menuItemId

/-- What a rule that charges went through: a known kind, an amount in the bill's currency and the
    classes it is taxed at. -/
theorem feeLine_eq_some {line : FeeLine}
    (h : feeLine rule input subtotal reductions = .ok (some line)) :
    ∃ kind amount shares, rule.kind? = some kind ∧
      feeAmount rule kind input (countedLines rule input) subtotal reductions
        = .ok (some amount) ∧
      amount.currencyCode = input.currencyCode ∧
      feeClassShares rule kind amount (countedLines rule input) = .ok (some shares) ∧
      line = { feeId := rule.feeId, code := rule.code, displayName := rule.displayName,
               amount := amount, classShares := shares, tax := zero amount.currencyCode,
               taxComponents := [], waivable := rule.waivable } := by
  unfold feeLine at h
  simp only at h
  split at h
  · exact absurd h (by simp)
  · split at h
    · exact absurd h (by simp)
    · next kind hkind =>
        simp only [bind_eq_ok] at h
        obtain ⟨amount?, hamount, h⟩ := h
        cases amount? with
        | none => exact absurd h (by simp)
        | some amount =>
          simp only at h
          split at h
          · exact absurd h (by simp)
          · next hcur =>
              simp only [bind_eq_ok] at h
              obtain ⟨shares?, hshares, h⟩ := h
              cases shares? with
              | none => exact absurd h (by simp)
              | some shares =>
                simp only [pure_eq_ok, Option.some.injEq] at h
                exact ⟨kind, amount, shares, hkind, hamount, not_not.1 hcur, hshares, h.symm⟩

theorem feeLine_balanced {line : FeeLine}
    (h : feeLine rule input subtotal reductions = .ok (some line)) :
    line.Balanced := by
  obtain ⟨kind, amount, shares, -, -, -, hshares, rfl⟩ := feeLine_eq_some h
  exact feeClassShares_eq_ok hshares

/-- What the fee loop keeps: the total is the fees' sum, every fee is balanced, and the sums per
    class are those of the fees' shares, one entry a class. -/
structure Fees.Sound (fees : Fees) : Prop where
  total_minor : fees.total.minor = totalMinor (fees.lines.map (·.amount))
  balanced : ∀ fee ∈ fees.lines, fee.Balanced
  amountIn_eq : ∀ c, amountIn c fees.classShares = amountIn c (feeShares fees.lines)
  nodup : (fees.classShares.map (·.taxClassId)).Nodup

/-- Charging a rule: nothing, or one more fee line added to every sum. -/
theorem chargeFee_eq_ok {out : Fees} (h : chargeFee input subtotal reductions fees rule = .ok out) :
    (feeLine rule input subtotal reductions = .ok none ∧ out = fees) ∨
      ∃ line total classShares, feeLine rule input subtotal reductions = .ok (some line) ∧
        addMoney fees.total line.amount = .ok total ∧
        (line.classShares.map FeeClassShare.base).foldlM
          (fun sums base => addToClass sums base.taxClassId base.amount) fees.classShares
          = .ok classShares ∧
        out = { lines := fees.lines ++ [line], classShares := classShares, total := total } := by
  simp only [chargeFee, bind_eq_ok] at h
  obtain ⟨line?, hline, h⟩ := h
  cases line? with
  | none =>
    simp only [pure_eq_ok] at h
    exact Or.inl ⟨hline, h.symm⟩
  | some line =>
    simp only [bind_eq_ok, pure_eq_ok] at h
    obtain ⟨total, htotal, classShares, hshares, rfl⟩ := h
    refine Or.inr ⟨line, total, classShares, hline, htotal, ?_, rfl⟩
    rw [foldlM_map]
    exact hshares

theorem chargeFee_sound {out : Fees} (h : chargeFee input subtotal reductions fees rule = .ok out)
    (hfees : fees.Sound) : out.Sound := by
  rcases chargeFee_eq_ok h with ⟨-, rfl⟩ | ⟨line, total, classShares, hline, htotal, hshares, rfl⟩
  · exact hfees
  · obtain ⟨-, -, hminor⟩ := addMoney_eq_ok.1 htotal
    refine ⟨?_, ?_, ?_, ?_⟩
    · simp [hminor, hfees.total_minor]
    · intro fee hfee
      rcases mem_append.1 hfee with hfee | hfee
      · exact hfees.balanced fee hfee
      · obtain rfl := mem_singleton.1 hfee
        exact feeLine_balanced hline
    · intro c
      have hsum := foldlM_sumAt addToClass_adds hshares c
      have hold := hfees.amountIn_eq c
      simp only [amountIn, feeShares, flatMap_append, sumAt_append] at hold ⊢
      rw [hsum, hold]
      simp
    · exact foldlM_nodup_keys addToClass_adds hshares hfees.nodup

theorem chargeFees_sound (h : chargeFees input subtotal = .ok fees) : fees.Sound := by
  have hstart : Fees.Sound
      { lines := [], classShares := [], total := zero input.currencyCode } :=
    ⟨by simp, by simp, fun c => rfl, by simp⟩
  simp only [chargeFees] at h
  split at h
  · simp only [pure_eq_ok] at h
    exact h ▸ hstart
  · simp only [bind_eq_ok] at h
    obtain ⟨_, -, _, -, reductions, -, hloop⟩ := h
    exact foldlM_invariant Fees.Sound (fun _ _ _ _ hacc hstep => chargeFee_sound hstep hacc)
      hloop hstart

/-! ## Tax lines -/

/-- A breakdown is empty or sums to the tax it breaks down. -/
def BreaksDown (components : List TaxComponentLine) (tax : Money) : Prop :=
  components = [] ∨ totalMinor (components.map (·.tax)) = tax.minor

theorem taxFor_breaksDown {rate : TaxRate} {components : List TaxComponent}
    {inclusive : Bool} {mode : Rounding} {out : Money × Money × List TaxComponentLine}
    (h : taxFor taxable rate components inclusive mode = .ok out) : BreaksDown out.2.2 out.1 := by
  simp only [taxFor, bind_eq_ok, pure_eq_ok] at h
  obtain ⟨tax, -, base, -, split, hsplit, rfl⟩ := h
  exact splitComponents_eq_ok hsplit

theorem classTaxLine_eq_ok {taxClassId : TaxClassId}
    (h : classTaxLine input taxClassId taxable = .ok line) :
    line.taxClassId = taxClassId ∧ BreaksDown line.components line.tax := by
  simp only [classTaxLine, bind_eq_ok, pure_eq_ok] at h
  obtain ⟨rate, -, taxed, htaxed, rfl⟩ := h
  exact ⟨rfl, taxFor_breaksDown htaxed⟩

/-- What the tax loops keep: the total is the lines' sum and every breakdown sums to its tax. -/
structure ClassTax.Sound (t : ClassTax) : Prop where
  taxTotal_minor : t.taxTotal.minor = totalMinor (t.taxLines.map (·.tax))
  breaksDown : ∀ line ∈ t.taxLines, BreaksDown line.components line.tax

theorem pushTaxLine_eq_ok (h : pushTaxLine acc line = .ok out) :
    out.taxLines = acc.taxLines ++ [line] ∧ out.linesAfterReductions = acc.linesAfterReductions ∧
      out.taxTotal.minor = acc.taxTotal.minor + line.tax.minor ∧
      out.taxTotal.currencyCode = acc.taxTotal.currencyCode := by
  simp only [pushTaxLine, bind_eq_ok, addMoney_eq_ok, pure_eq_ok] at h
  obtain ⟨taxTotal, ⟨-, hcur, hminor⟩, rfl⟩ := h
  exact ⟨rfl, rfl, hminor, hcur⟩

theorem pushTaxLine_sound (h : pushTaxLine acc line = .ok out)
    (hline : BreaksDown line.components line.tax) (hacc : acc.Sound) : out.Sound := by
  obtain ⟨hlines, -, hminor, -⟩ := pushTaxLine_eq_ok h
  refine ⟨?_, ?_⟩
  · rw [hminor, hacc.taxTotal_minor, hlines]
    simp
  · rw [hlines]
    intro l hl
    rcases mem_append.1 hl with hl | hl
    · exact hacc.breaksDown l hl
    · obtain rfl := mem_singleton.1 hl
      exact hline

/-- One class: its lines after the reductions, its taxable base and its tax line. -/
theorem classTaxStep_eq_ok {feeShares : List ClassBase}
    (h : classTaxStep input discountShares compShares feeShares acc entry = .ok out) :
    ∃ lines taxable line, afterReductions input discountShares compShares entry = .ok lines ∧
      classTaxable input feeShares entry.1.taxClassId lines = .ok taxable ∧
      classTaxLine input entry.1.taxClassId taxable = .ok line ∧
      pushTaxLine { acc with linesAfterReductions := acc.linesAfterReductions ++ [lines] } line
        = .ok out := by
  simp only [classTaxStep, bind_eq_ok] at h
  exact h.imp fun lines hl => by
    obtain ⟨hlines, taxable, htaxable, line, hline, hpush⟩ := hl
    exact ⟨taxable, line, hlines, htaxable, hline, hpush⟩

theorem classTaxStep_sound {feeShares : List ClassBase}
    (h : classTaxStep input discountShares compShares feeShares acc entry = .ok out)
    (hacc : acc.Sound) : out.Sound := by
  obtain ⟨lines, taxable, line, -, -, hline, hpush⟩ := classTaxStep_eq_ok h
  refine pushTaxLine_sound hpush (classTaxLine_eq_ok hline).2 ?_
  exact ⟨hacc.taxTotal_minor, hacc.breaksDown⟩

/-- The two loops of the class tax. -/
theorem classTax_eq_ok {feeShares : List ClassBase}
    (h : classTax input discountShares compShares feeShares = .ok out) :
    ∃ classes charges extra,
      input.classBases.zipIdx.foldlM (classTaxStep input discountShares compShares feeShares)
        { taxLines := [], linesAfterReductions := [],
          taxTotal := zero input.currencyCode } = .ok classes ∧
      extraCharges input feeShares = .ok charges ∧
      charges.mapM (fun charge => classTaxLine input charge.taxClassId charge.amount)
        = .ok extra ∧
      extra.foldlM pushTaxLine classes = .ok out := by
  simp only [classTax, extraClassLines, bind_eq_ok] at h
  obtain ⟨classes, hclasses, extra, ⟨charges, hcharges, hextra⟩, hout⟩ := h
  exact ⟨classes, charges, extra, hclasses, hcharges, hextra, hout⟩

theorem classTax_sound {feeShares : List ClassBase}
    (h : classTax input discountShares compShares feeShares = .ok out) : out.Sound := by
  obtain ⟨classes, charges, extra, hclasses, -, hextra, hout⟩ := classTax_eq_ok h
  have hsound : classes.Sound :=
    foldlM_invariant ClassTax.Sound (fun _ _ _ _ hacc hstep => classTaxStep_sound hstep hacc)
      hclasses ⟨by simp, by simp⟩
  refine foldlM_invariant ClassTax.Sound ?_ hout hsound
  intro acc line acc' hline hacc hstep
  obtain ⟨charge, -, hcharge⟩ := exists_of_mem_mapM hextra hline
  exact pushTaxLine_sound hstep (classTaxLine_eq_ok hcharge).2 hacc

/-! ## Which classes have a tax line -/

theorem classTaxLoop_classes {feeShares : List ClassBase} {entries : List (ClassBase × Nat)}
    (h : entries.foldlM (classTaxStep input discountShares compShares feeShares) acc = .ok out) :
    out.taxLines.map (·.taxClassId)
      = acc.taxLines.map (·.taxClassId) ++ entries.map (·.1.taxClassId) := by
  induction entries generalizing acc with
  | nil =>
    simp only [foldlM_nil, pure_eq_ok] at h
    simp [h]
  | cons entry entries ih =>
    simp only [foldlM_cons, bind_eq_ok] at h
    obtain ⟨mid, hstep, hrest⟩ := h
    obtain ⟨_, _, line, -, -, hline, hpush⟩ := classTaxStep_eq_ok hstep
    rw [ih hrest, (pushTaxLine_eq_ok hpush).1]
    simp [(classTaxLine_eq_ok hline).1]

/-- Pushing lines appends them and leaves the classes' own amounts. -/
theorem pushTaxLines_eq_ok {lines : List TaxLine} (h : lines.foldlM pushTaxLine acc = .ok out) :
    out.taxLines = acc.taxLines ++ lines ∧
      out.linesAfterReductions = acc.linesAfterReductions := by
  induction lines generalizing acc with
  | nil =>
    simp only [foldlM_nil, pure_eq_ok] at h
    simp [h]
  | cons line lines ih =>
    simp only [foldlM_cons, bind_eq_ok] at h
    obtain ⟨mid, hstep, hrest⟩ := h
    obtain ⟨hlines, hafter, -, -⟩ := pushTaxLine_eq_ok hstep
    rw [(ih hrest).1, (ih hrest).2, hlines, hafter]
    simp

/-- The classes taxed: the bill's own, then those only charges are in. -/
theorem classTax_classes {feeShares : List ClassBase}
    (h : classTax input discountShares compShares feeShares = .ok out) :
    ∃ charges, extraCharges input feeShares = .ok charges ∧
      out.taxLines.map (·.taxClassId)
        = input.classBases.map (·.taxClassId) ++ charges.map (·.taxClassId) := by
  obtain ⟨classes, charges, extra, hclasses, hcharges, hextra, hout⟩ := classTax_eq_ok h
  refine ⟨charges, hcharges, ?_⟩
  have hsame : extra.map (·.taxClassId) = charges.map (·.taxClassId) := by
    have hforall := mapM_eq_ok_iff.1 hextra
    clear hextra hout hcharges
    induction hforall with
    | nil => rfl
    | cons hline _ ih => simp [(classTaxLine_eq_ok hline).1, ih]
  have hzip : input.classBases.zipIdx.map (·.1.taxClassId)
      = input.classBases.map (·.taxClassId) := by
    conv_rhs => rw [← zipIdx_map_fst 0 input.classBases, map_map]
    rfl
  rw [(pushTaxLines_eq_ok hout).1, map_append, classTaxLoop_classes hclasses, hsame, hzip]
  rfl

theorem onBill_iff : onBill input c = true ↔ c ∈ input.classBases.map (·.taxClassId) := by
  simp [onBill]

/-- The fee shares that need a class of their own. -/
def offBillShares (input : BillInput) (feeShares : List ClassBase) : List ClassBase :=
  feeShares.filter fun share => !share.amount.isZero && !onBill input share.taxClassId

/-- The extra classes: that of a service charge taxed off the bill, and those of the fee shares
    off the bill; one entry each, none of them on the bill. -/
theorem extraCharges_eq_ok {feeShares charges : List ClassBase}
    (h : extraCharges input feeShares = .ok charges) :
    (charges.map (·.taxClassId)).Nodup ∧
      ∀ c, c ∈ charges.map (·.taxClassId) ↔
        (taxedServiceChargeClass input = some c ∧ onBill input c = false) ∨
          c ∈ (offBillShares input feeShares).map (·.taxClassId) := by
  simp only [extraCharges, bind_eq_ok] at h
  obtain ⟨start, hstart, hloop⟩ := h
  have hkeys : (start.map (·.taxClassId)).Nodup ∧ ∀ c, c ∈ start.map (·.taxClassId) ↔
      (taxedServiceChargeClass input = some c ∧ onBill input c = false) := by
    unfold extraServiceCharge at hstart
    split at hstart
    · next c hc =>
        split at hstart
        · next hon =>
            simp only [ok.injEq] at hstart
            subst hstart
            refine ⟨by simp, fun d => ?_⟩
            simp only [map_nil, not_mem_nil, Option.some.injEq, false_iff, not_and,
              hc]
            rintro rfl
            simp [hon]
        · next hon =>
            simp only [addToClass, bump, ok.injEq] at hstart
            subst hstart
            refine ⟨by simp, fun d => ?_⟩
            simp only [map_cons, map_nil, mem_singleton, hc, Option.some.injEq]
            constructor
            · rintro rfl
              exact ⟨rfl, by simpa using hon⟩
            · exact fun hd => hd.1.symm
    · next hnone =>
        simp only [ok.injEq] at hstart
        subst hstart
        simp [hnone]
  refine ⟨foldlM_nodup_keys addToClass_adds hloop hkeys.1, fun c => ?_⟩
  rw [foldlM_mem_keys addToClass_adds hloop c, hkeys.2 c]
  rfl

/-- No class is taxed twice. -/
theorem classTax_nodup {feeShares : List ClassBase}
    (h : classTax input discountShares compShares feeShares = .ok out)
    (hbases : (input.classBases.map (·.taxClassId)).Nodup) :
    (out.taxLines.map (·.taxClassId)).Nodup := by
  obtain ⟨charges, hcharges, hclasses⟩ := classTax_classes h
  obtain ⟨hnodup, hmem⟩ := extraCharges_eq_ok hcharges
  rw [hclasses]
  refine hbases.append hnodup ?_
  intro c hbill hextra
  have hon := onBill_iff.2 hbill
  rcases (hmem c).1 hextra with ⟨-, hoff⟩ | hoff
  · simp [hon] at hoff
  · simp only [offBillShares, mem_map, mem_filter, Bool.and_eq_true,
      Bool.not_eq_true'] at hoff
    obtain ⟨share, ⟨-, -, hoff⟩, rfl⟩ := hoff
    simp [hon] at hoff

/-- The classes that have a tax line: the bill's own, the one the service charge is taxed at, and
    those of the fee shares that are not nothing. -/
theorem classTax_mem_iff {feeShares : List ClassBase}
    (h : classTax input discountShares compShares feeShares = .ok out) :
    c ∈ out.taxLines.map (·.taxClassId) ↔
      c ∈ input.classBases.map (·.taxClassId) ∨ taxedServiceChargeClass input = some c ∨
        ∃ share ∈ feeShares, share.taxClassId = c ∧ share.amount.minor ≠ 0 := by
  obtain ⟨charges, hcharges, hclasses⟩ := classTax_classes h
  rw [hclasses, mem_append, (extraCharges_eq_ok hcharges).2 c, ← onBill_iff]
  simp only [offBillShares, mem_map, mem_filter, Bool.and_eq_true, Bool.not_eq_true']
  constructor
  · rintro (hon | ⟨hservice, -⟩ | ⟨share, ⟨hshare, hne, -⟩, rfl⟩)
    · exact .inl hon
    · exact .inr (.inl hservice)
    · exact .inr (.inr ⟨share, hshare, rfl, by simpa [isZero] using hne⟩)
  · intro hc
    cases hon : onBill input c with
    | true => exact .inl rfl
    | false =>
      rcases hc with hbill | hservice | ⟨share, hshare, rfl, hne⟩
      · simp [hon] at hbill
      · exact .inr (.inl ⟨hservice, rfl⟩)
      · exact .inr (.inr ⟨share, ⟨hshare, by simp [isZero, hne], hon⟩, rfl⟩)

/-! ## The fees' tax -/

/-- A fee line as charged, before any tax is shared to it. -/
def FeeLine.untaxed (fee : FeeLine) : FeeLine :=
  { fee with
    classShares := fee.classShares.map fun share =>
      { share with tax := zero share.amount.currencyCode }
    tax := zero fee.amount.currencyCode
    taxComponents := [] }

theorem map_modify_eq {α β : Type} {g : α → β} {f : α → α} (hg : ∀ x, g (f x) = g x)
    (xs : List α) (i : Nat) : (xs.modify i f).map g = xs.map g := by
  induction xs generalizing i with
  | nil => simp
  | cons x xs ih =>
    cases i with
    | zero => simp [hg]
    | succ i => simp [ih]

variable (feeLines : List FeeLine)

theorem setShareTax_untaxed (slot : Nat × Nat) (tax : Money) :
    (setShareTax feeLines slot tax).map untaxed = feeLines.map untaxed := by
  refine map_modify_eq (fun fee => ?_) feeLines slot.1
  simp only [untaxed, FeeLine.mk.injEq, true_and, and_true]
  refine map_modify_eq ?_ fee.classShares slot.2
  intro share
  rfl

theorem taxFeesOfClass_untaxed {feeLines out : List FeeLine}
    {taxLine : TaxLine} (h : taxFeesOfClass input lines feeLines taxLine = .ok out) :
    out.map untaxed = feeLines.map untaxed := by
  simp only [taxFeesOfClass] at h
  split at h
  · simp only [pure_eq_ok] at h
    rw [h]
  · simp only [bind_eq_ok, pure_eq_ok] at h
    obtain ⟨taxes, -, rfl⟩ := h
    generalize (feeSlots feeLines taxLine.taxClassId).zip taxes = writes
    clear * -
    induction writes generalizing feeLines with
    | nil => rfl
    | cons write writes ih =>
      rw [foldl_cons, ih, setShareTax_untaxed]

/-- A fee's breakdown, where it is given, sums to the tax of its shares. -/
theorem feeComponents_eq_ok {classShares : List FeeClassShare} {components : List TaxComponentLine}
    (h : feeComponents classShares input = .ok components) :
    components = [] ∨
      totalMinor (components.map (·.tax)) = totalMinor (classShares.map (·.tax)) := by
  have hloop : ∀ {shares : List FeeClassShare} {start : List TaxComponentLine}
      {out : Option (List TaxComponentLine)},
      shares.foldlM (feeComponentsStep input) (some start) = .ok out →
      ∀ done, out = some done → totalMinor (done.map (·.tax))
        = totalMinor (start.map (·.tax)) + totalMinor (shares.map (·.tax)) := by
    intro shares
    induction shares with
    | nil =>
      intro start out hfold done hdone
      simp only [foldlM_nil, pure_eq_ok] at hfold
      obtain rfl : start = done := Option.some.inj (hfold.trans hdone)
      simp
    | cons share shares ih =>
      intro start out hfold done hdone
      simp only [foldlM_cons, bind_eq_ok, feeComponentsStep] at hfold
      obtain ⟨mid, ⟨split, hsplit, hmid⟩, hrest⟩ := hfold
      split at hmid
      · -- a taxed share without a breakdown drops the whole one for good
        simp only [pure_eq_ok] at hmid
        subst hmid
        have hnone : out = none := by
          refine foldlM_invariant (fun acc => acc = none) ?_ hrest rfl
          intro acc share acc' _ hacc hstep
          subst hacc
          simpa [feeComponentsStep, eq_comm] using hstep
        exact absurd (hnone.symm.trans hdone) (by simp)
      · next hkeep =>
          simp only [map_eq_ok] at hmid
          obtain ⟨next, hnext, rfl⟩ := hmid
          have htotal := foldlM_total addComponent_adds hnext
          have hpart : totalMinor (split.map (·.tax)) = share.tax.minor := by
            rcases splitComponents_eq_ok hsplit with rfl | hsum
            · simp only [isEmpty_nil, Bool.true_and, Bool.not_eq_true',
                Bool.not_eq_false, isZero_iff] at hkeep
              simp [hkeep]
            · exact hsum
          simp only [total] at htotal
          simp only [totalMinor, map_map, map_cons, sum_cons,
            comp_def] at *
          rw [ih hrest done hdone, htotal, hpart]
          ring
  simp only [feeComponents, bind_eq_ok, pure_eq_ok] at h
  obtain ⟨out, hfold, rfl⟩ := h
  cases out with
  | none => exact Or.inl rfl
  | some done =>
    right
    simpa using hloop hfold done rfl

theorem sumFeeTax_eq_ok {fee out : FeeLine} (h : sumFeeTax input fee = .ok out) :
    out.untaxed = fee.untaxed ∧ out.tax.minor = totalMinor (out.classShares.map (·.tax)) ∧
      BreaksDown out.taxComponents out.tax := by
  simp only [sumFeeTax, bind_eq_ok, pure_eq_ok] at h
  obtain ⟨tax, htax, components, hcomponents, rfl⟩ := h
  obtain ⟨-, hminor, -⟩ := sumMoney_eq_ok htax
  refine ⟨rfl, hminor, ?_⟩
  rcases feeComponents_eq_ok hcomponents with hnil | hsum
  · exact Or.inl hnil
  · exact Or.inr (hsum.trans hminor.symm)

/-- Taxing the fees changes no charge, and each fee's tax is its shares'. -/
theorem taxTheFees_eq_ok {feeLines out : List FeeLine} {taxLines : List TaxLine}
    (h : taxTheFees feeLines taxLines input lines = .ok out) :
    out.map untaxed = feeLines.map untaxed ∧
      ∀ fee ∈ out, fee.tax.minor = totalMinor (fee.classShares.map (·.tax)) ∧
        BreaksDown fee.taxComponents fee.tax := by
  simp only [taxTheFees, bind_eq_ok] at h
  obtain ⟨shared, hshared, hsums⟩ := h
  have hkeep : shared.map untaxed = feeLines.map untaxed :=
    foldlM_invariant (fun acc => acc.map untaxed = feeLines.map untaxed)
      (fun _ _ _ _ hacc hstep => (taxFeesOfClass_untaxed hstep).trans hacc) hshared rfl
  refine ⟨?_, ?_⟩
  · rw [← hkeep]
    have hforall := mapM_eq_ok_iff.1 hsums
    clear hsums hshared hkeep
    induction hforall with
    | nil => rfl
    | cons hfee _ ih => simp [(sumFeeTax_eq_ok hfee).1, ih]
  · intro fee hfee
    obtain ⟨source, -, hsource⟩ := exists_of_mem_mapM hsums hfee
    exact (sumFeeTax_eq_ok hsource).2

theorem untaxed_balanced {fee : FeeLine} : fee.untaxed.Balanced ↔ fee.Balanced := by
  simp [FeeLine.Balanced, untaxed, map_map, comp_def]

theorem feeShares_untaxed : feeShares (feeLines.map untaxed) = feeShares feeLines := by
  simp only [feeShares, flatMap_map]
  congr 1
  funext fee
  simp [untaxed, FeeClassShare.base, comp_def]

theorem amounts_untaxed : (feeLines.map untaxed).map (·.amount) = feeLines.map (·.amount) := by
  simp [untaxed, comp_def]

/-! ## The reconciliation -/

theorem cashRounded_eq_ok {unrounded : Money} {increment : Option I64} {currency : CurrencyCode}
    {due adjustment : Money}
    (h : cashRounded unrounded increment currency = .ok (due, adjustment)) :
    due.minor = unrounded.minor + adjustment.minor ∧ due.currencyCode = unrounded.currencyCode ∧
      (adjustment.currencyCode = currency ∨ adjustment.currencyCode = due.currencyCode) := by
  unfold cashRounded at h
  split at h
  · obtain ⟨rfl, rfl⟩ := h
    simp
  · split at h
    · obtain ⟨rfl, rfl⟩ := h
      simp
    · simp only [bind_eq_ok, liftMoney_eq_ok, checkedSub_eq_ok, pure_eq_ok,
        Prod.mk.injEq] at h
      obtain ⟨rounded, hrounded, adj, ⟨hcur, hadj, hminor⟩, rfl, rfl⟩ := h
      exact ⟨by omega, roundToIncrement_currency hrounded, Or.inr hadj⟩

/-- The figures of a bill's totals add up. -/
structure Reconciles (input : BillInput) (totals : BillTotals) : Prop where
  /-- The tax lines sum to the tax. -/
  taxes : totalMinor (totals.taxLines.map (·.tax)) = totals.taxTotal.minor
  /-- The one reconciliation formula, in both tax postures. -/
  due : totals.subtotal.minor - totals.discountTotal.minor - totals.compTotal.minor
      + totals.serviceCharge.minor + totals.taxTotal.minor + totals.roundingAdjustment.minor
    = totals.totalDue.minor
  /-- The service charge carries every fee. -/
  fees : input.serviceCharge.minor + totalMinor (totals.feeLines.map (·.amount))
    = totals.serviceCharge.minor
  /-- A fee taxed by class is taxed on its amount, and its tax is its shares'. -/
  shares : ∀ fee ∈ totals.feeLines, fee.classShares ≠ [] →
    totalMinor (fee.classShares.map (·.amount)) = fee.amount.minor ∧
      totalMinor (fee.classShares.map (·.tax)) = fee.tax.minor
  taxBreakdowns : ∀ line ∈ totals.taxLines, BreaksDown line.components line.tax
  feeBreakdowns : ∀ fee ∈ totals.feeLines, BreaksDown fee.taxComponents fee.tax
  /-- Every figure is in the bill's currency. -/
  currency : ∀ m ∈ [totals.subtotal, totals.discountTotal, totals.compTotal, totals.serviceCharge,
    totals.taxTotal, totals.roundingAdjustment, totals.totalDue],
    m.currencyCode = input.currencyCode

theorem Assembled.subtotal_currency (a : Assembled input totals) :
    totals.subtotal.currencyCode = input.currencyCode := by
  have hquoted := (quotedSubtotal_eq_ok a.quoted_ok).2.1
  have hsub := a.subtotal_ok
  split at hsub
  · rw [checkedSub_eq_ok] at hsub
    exact hsub.2.1.trans hquoted
  · simp only [ok.injEq] at hsub
    exact hsub ▸ hquoted

theorem Assembled.reconciles (a : Assembled input totals) : Reconciles input totals := by
  have hfees := chargeFees_sound a.fees_ok
  have htax := classTax_sound a.taxed_ok
  obtain ⟨huntaxed, hfeeTax⟩ := taxTheFees_eq_ok a.feeLines_ok
  obtain ⟨hdue, hdueCur, hadjCur⟩ := cashRounded_eq_ok a.rounded_ok
  obtain ⟨hserviceCur, hserviceCur', hservice⟩ := addMoney_eq_ok.1 a.serviceCharge_ok
  obtain ⟨hc1, hc2, hc3, hc4⟩ := a.currencies
  have hcur := a.subtotal_currency
  refine ⟨?_, ?_, ?_, ?_, ?_, ?_, ?_⟩
  · rw [a.taxLines_eq, a.taxTotal_eq, htax.taxTotal_minor]
  · rw [hdue, a.unrounded_minor, a.discountTotal_eq, a.compTotal_eq, a.taxTotal_eq]
  · rw [hservice, hfees.total_minor, ← amounts_untaxed, huntaxed, amounts_untaxed]
  · intro fee hfee hne
    have hbalanced : fee.Balanced := by
      have hmem : fee.untaxed ∈ a.fees.lines.map untaxed :=
        huntaxed ▸ mem_map_of_mem hfee
      obtain ⟨source, hsource, heq⟩ := mem_map.1 hmem
      rw [← untaxed_balanced, ← heq, untaxed_balanced]
      exact hfees.balanced source hsource
    exact ⟨hbalanced.resolve_left hne, (hfeeTax fee hfee).1.symm⟩
  · rw [a.taxLines_eq]
    exact htax.breaksDown
  · exact fun fee hfee => (hfeeTax fee hfee).2
  · have hdueCode : totals.totalDue.currencyCode = input.currencyCode := by
      rw [hdueCur, a.unrounded_currency, hcur]
    intro m hm
    simp only [mem_cons, not_mem_nil, or_false] at hm
    rcases hm with rfl | rfl | rfl | rfl | rfl | rfl | rfl
    · exact hcur
    · rw [a.discountTotal_eq, ← hc1, hcur]
    · rw [a.compTotal_eq, ← hc2, hcur]
    · rw [← hc3, hcur]
    · rw [a.taxTotal_eq, ← hc4, hcur]
    · exact hadjCur.elim id fun h => h.trans hdueCode
    · exact hdueCode

/-- The fees charge something in a class exactly where its share is not nothing. -/

theorem Assembled.amountIn_ne_zero_iff (a : Assembled input totals) :
    amountIn c (feeShares totals.feeLines) ≠ 0 ↔
      ∃ share ∈ a.fees.classShares, share.taxClassId = c ∧ share.amount.minor ≠ 0 := by
  have hfees := chargeFees_sound a.fees_ok
  obtain ⟨huntaxed, -⟩ := taxTheFees_eq_ok a.feeLines_ok
  have hamount : amountIn c (feeShares totals.feeLines) = amountIn c a.fees.classShares := by
    rw [hfees.amountIn_eq c, ← feeShares_untaxed, huntaxed, feeShares_untaxed]
  have hone : ∀ share ∈ a.fees.classShares,
      amountIn share.taxClassId a.fees.classShares = share.amount.minor := fun share hshare =>
    sumAt_of_mem ClassBase.taxClassId (fun base => base.amount.minor) hfees.nodup hshare
  rw [hamount]
  constructor
  · intro hne
    have hmem : c ∈ a.fees.classShares.map (·.taxClassId) := by
      by_contra hnot
      exact hne (sumAt_of_not_mem _ _ c hnot)
    obtain ⟨share, hshare, rfl⟩ := mem_map.1 hmem
    exact ⟨share, hshare, rfl, hone share hshare ▸ hne⟩
  · rintro ⟨share, hshare, rfl, hne⟩
    rwa [hone share hshare]

/-- Every bill `assemble` accepts reconciles; and where its class bases name distinct classes, no
    class has two tax lines, and those that have one are the bill's own, those whose fee shares come
    to something and the one that a service charge is taxed at. -/
theorem assemble_reconciles (input : BillInput) (totals : BillTotals)
    (h : assemble input = .ok totals) :
    Reconciles input totals ∧
      ((input.classBases.map (·.taxClassId)).Nodup →
        (totals.taxLines.map (·.taxClassId)).Nodup ∧
        ∀ c, c ∈ totals.taxLines.map (·.taxClassId) ↔
          c ∈ input.classBases.map (·.taxClassId) ∨ amountIn c (feeShares totals.feeLines) ≠ 0 ∨
            taxedServiceChargeClass input = some c) := by
  obtain ⟨a⟩ := assembled_of_ok h
  refine ⟨a.reconciles, fun hnodup => ⟨?_, fun c => ?_⟩⟩
  · rw [a.taxLines_eq]
    exact classTax_nodup a.taxed_ok hnodup
  · rw [a.taxLines_eq, classTax_mem_iff a.taxed_ok, a.amountIn_ne_zero_iff,
      or_comm (a := taxedServiceChargeClass input = some c)]

/-- One class sold for 100 at ten percent, reduced by `discount`, with the given fees. -/
def oneClassBill (discount : Money) (feeRules : List FrozenFee) : BillInput where
  currencyCode := .vnd
  classBases := [⟨⟨1⟩, .few 100⟩]
  billDiscount := discount
  comps := zero .vnd
  serviceCharge := zero .vnd
  serviceChargeTaxable := false
  serviceChargeTaxClass := none
  rates := ⟨[⟨⟨1⟩, .fromKnown .dineIn, .tenth, []⟩]⟩
  salesChannel := .dineIn
  cashRoundingIncrement := none
  taxRounding := .halfUp
  pricesIncludeTax := false
  feeRules := feeRules
  waivedFeeIds := []
  lines := [⟨⟨1⟩, .one, .few 100, ⟨1⟩⟩]

/-- A rule on every item, taxed at class 2, which no line is in. -/
def offBillRule (feeId : FeeId) (kind : FeeKind) (rate : Option Ratio) (amount : Option Money) :
    FrozenFee where
  feeId := feeId
  code := ⟨"FEE"⟩
  displayName := ⟨"Fee"⟩
  kind := .fromKnown kind
  rate := rate
  amount := amount
  itemScope := .fromKnown .all
  menuItemIds := []
  baseDiscounted := true
  baseTaxInclusive := false
  tax := .fromKnown .taxClass
  taxClassId := some ⟨2⟩
  waivable := false

/-- Two classes, discounted and comped, with a fee taxed at a third. -/
def threeClassBill : BillInput :=
  { oneClassBill (.few 30) [offBillRule ⟨1⟩ .amountPerBill none (some (.few 10))] with
    classBases := [⟨⟨1⟩, .few 100⟩, ⟨⟨3⟩, .few 50⟩]
    comps := .few 7
    rates := ⟨[1, 2, 3].map fun c => ⟨⟨c⟩, .fromKnown .dineIn, .tenth, []⟩⟩
    lines := [⟨⟨1⟩, .one, .few 100, ⟨1⟩⟩, ⟨⟨2⟩, .one, .few 50, ⟨3⟩⟩] }

theorem assemble_reconciles_threeClassBill :
    ∃ totals, assemble threeClassBill = .ok totals ∧ Reconciles threeClassBill totals ∧
      (totals.taxLines.map (·.taxClassId)).Nodup ∧ ⟨2⟩ ∈ totals.taxLines.map (·.taxClassId) := by
  have hok : succeedsWith (assemble threeClassBill)
      (fun totals => decide (amountIn ⟨2⟩ (feeShares totals.feeLines) ≠ 0)) = true := by
    decide +kernel
  obtain ⟨totals, h, hfee⟩ := exists_of_succeedsWith hok
  obtain ⟨hreconciles, hclasses⟩ := assemble_reconciles threeClassBill totals h
  obtain ⟨hnodup, hmem⟩ := hclasses (by decide)
  exact ⟨totals, h, hreconciles, hnodup, (hmem ⟨2⟩).2 (.inr (.inl (of_decide_eq_true hfee)))⟩

/-- A discount past the whole bill makes a ten percent fee -10; a fee of 10 in the same class then
    cancels it, and the class has no tax line although both fees have a share in it. -/
def cancellingBill : BillInput :=
  oneClassBill (.few 200)
    [offBillRule ⟨1⟩ .percent
        (some ⟨⟨10, by decide, by decide⟩, ⟨100, by decide, by decide⟩, by decide⟩) none,
      offBillRule ⟨2⟩ .amountPerBill none (some (.few 10))]

theorem cancellingBill_share_without_line :
    ∃ totals, assemble cancellingBill = .ok totals ∧
      (cancellingBill.classBases.map (·.taxClassId)).Nodup ∧
      ∃ fee ∈ totals.feeLines, ∃ share ∈ fee.classShares,
        share.amount.minor ≠ 0 ∧ share.taxClassId ∉ totals.taxLines.map (·.taxClassId) := by
  have hrun : succeedsWith (assemble cancellingBill) (fun totals =>
      decide (∃ fee ∈ totals.feeLines, ∃ share ∈ fee.classShares,
        share.amount.minor ≠ 0 ∧ share.taxClassId ∉ totals.taxLines.map (·.taxClassId))) =
          true := by
    decide +kernel
  obtain ⟨totals, h, hshare⟩ := exists_of_succeedsWith hrun
  exact ⟨totals, h, by decide, of_decide_eq_true hshare⟩

end PosFramework
