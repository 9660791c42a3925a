import PosFramework.Core.Billing.Reconcile

set_option autoImplicit false

/-! # Prices that include tax

Where the menu's prices include tax, the guest pays what the menu says whatever the rates are: two
assemblies that differ only in their rate table charge the same fees and come to the same amount.
The tax is subtracted from the quoted subtotal and added back, so it cancels; the fees read no rate
as long as none quotes its base in the other posture. -/

namespace PosFramework

open Fallible Except Money

/-- The same bill under another rate table. -/
def BillInput.withRates (input : BillInput) (rates : TaxRateTable) : BillInput :=
  { input with rates := rates }

section WithRates

variable (input : BillInput) (rates : TaxRateTable)

@[simp] theorem currencyCode_withRates :
    (input.withRates rates).currencyCode = input.currencyCode := rfl

@[simp] theorem classBases_withRates : (input.withRates rates).classBases = input.classBases := rfl

@[simp] theorem billDiscount_withRates :
    (input.withRates rates).billDiscount = input.billDiscount := rfl

@[simp] theorem comps_withRates : (input.withRates rates).comps = input.comps := rfl

@[simp] theorem chargedRules_withRates :
    chargedRules (input.withRates rates) = chargedRules input := rfl

@[simp] theorem lines_withRates : (input.withRates rates).lines = input.lines := rfl

end WithRates

/-- No percentage fee quotes its base in the posture the store does not use. -/
def OwnPosture (input : BillInput) : Prop :=
  ∀ rule ∈ input.feeRules, rule.kind.known = .percent →
    rule.baseTaxInclusive = input.pricesIncludeTax

instance (input : BillInput) : Decidable (OwnPosture input) := by
  unfold OwnPosture
  infer_instance

/-! ## The fees read no rate -/

variable {rule : FrozenFee} {input : BillInput} {kind : FeeKind}

theorem known_of_kind? (h : rule.kind? = some kind) : rule.kind.known = kind := by
  unfold FrozenFee.kind? Open.require? at h
  split at h
  · exact absurd h (by simp)
  · exact Option.some.inj h

variable (rates : TaxRateTable)

theorem feeAmount_withRates (counted : List BillLine) (subtotal reductions : Money)
    (h : kind = .percent → rule.baseTaxInclusive = input.pricesIncludeTax) :
    feeAmount rule kind (input.withRates rates) counted subtotal reductions
      = feeAmount rule kind input counted subtotal reductions := by
  cases kind with
  | unspecified => rfl
  | amountPerBill => rfl
  | amountPerUnit => rfl
  | percent =>
    have hown := h rfl
    have hown' : rule.baseTaxInclusive = (input.withRates rates).pricesIncludeTax := hown
    unfold feeAmount
    cases rule.rate with
    | none => rfl
    | some rate =>
      simp only [if_pos hown, if_pos hown']
      rfl

theorem feeLine_withRates (subtotal reductions : Money)
    (h : rule.kind.known = .percent → rule.baseTaxInclusive = input.pricesIncludeTax) :
    feeLine rule (input.withRates rates) subtotal reductions
      = feeLine rule input subtotal reductions := by
  unfold feeLine
  cases hkind : rule.kind? with
  | none => rfl
  | some kind =>
    have hown : kind = .percent → rule.baseTaxInclusive = input.pricesIncludeTax :=
      fun he => h ((known_of_kind? hkind).trans he)
    simp only [feeAmount_withRates rates _ subtotal reductions hown]
    rfl

theorem chargeFees_withRates (subtotal : Money) (hown : OwnPosture input) :
    chargeFees (input.withRates rates) subtotal = chargeFees input subtotal := by
  have hloop : ∀ reductions fees,
      (chargedRules input).foldlM (chargeFee (input.withRates rates) subtotal reductions) fees
        = (chargedRules input).foldlM (chargeFee input subtotal reductions) fees := by
    intro reductions fees
    refine foldlM_congr fees fun rule hmem acc => ?_
    unfold chargeFee
    rw [feeLine_withRates rates subtotal reductions (hown rule (List.mem_of_mem_filter hmem))]
  simp only [chargeFees, chargedRules_withRates, lines_withRates, classBases_withRates,
    billDiscount_withRates, comps_withRates, currencyCode_withRates, hloop]

/-! ## The tax taken out of the quoted amounts -/

/-- A tax line's class and what it was quoted at: the reported base with the tax put back. -/
def TaxLine.quoted (line : TaxLine) : TaxClassId × Int :=
  (line.taxClassId, line.taxableBase.minor + line.tax.minor)

theorem classTaxLine_quoted {c : TaxClassId} {taxable : Money} {line : TaxLine}
    (h : classTaxLine input c taxable = .ok line) (hincl : input.pricesIncludeTax = true) :
    line.quoted = (c, taxable.minor) := by
  simp only [classTaxLine, taxFor, hincl, if_true, bind_eq_ok, liftMoney_eq_ok, pure_eq_ok] at h
  obtain ⟨rate, -, _, ⟨tax, -, base, hbase, split, -, rfl⟩, rfl⟩ := h
  obtain ⟨-, -, hminor⟩ := checkedSub_eq_ok.1 hbase
  simp only [TaxLine.quoted, hminor, Prod.mk.injEq, true_and]
  omega

/-- Two class taxes whose lines were quoted at the same amounts. -/
def SameQuoted (t t' : ClassTax) : Prop :=
  t'.taxLines.map TaxLine.quoted = t.taxLines.map TaxLine.quoted

theorem pushTaxLine_sameQuoted {acc acc' out out' : ClassTax} {line line' : TaxLine}
    (h : pushTaxLine acc line = .ok out) (h' : pushTaxLine acc' line' = .ok out')
    (hline : line'.quoted = line.quoted) (hacc : SameQuoted acc acc') : SameQuoted out out' := by
  unfold SameQuoted at *
  rw [(pushTaxLine_eq_ok h).1, (pushTaxLine_eq_ok h').1]
  simp [hline, hacc]

/-- The class tax of one bill under two rate tables, prices including tax: the same classes at the
    same quoted amounts. -/
theorem classTax_sameQuoted {rates : TaxRateTable} {discountShares compShares : List Money}
    {feeShares : List ClassBase} {out out' : ClassTax} (hincl : input.pricesIncludeTax = true)
    (h : classTax input discountShares compShares feeShares = .ok out)
    (h' : classTax (input.withRates rates) discountShares compShares feeShares = .ok out') :
    SameQuoted out out' := by
  obtain ⟨classes, charges, extra, hclasses, hcharges, hextra, hout⟩ := classTax_eq_ok h
  obtain ⟨classes', charges', extra', hclasses', hcharges', hextra', hout'⟩ := classTax_eq_ok h'
  have hincl' : (input.withRates rates).pricesIncludeTax = true := hincl
  have hloop : SameQuoted classes classes' := by
    refine foldlM_lockstep SameQuoted ?_ hclasses hclasses' rfl
    intro acc acc' entry next next' _ hacc hstep hstep'
    obtain ⟨lines, taxable, line, hlines, htaxable, hline, hpush⟩ := classTaxStep_eq_ok hstep
    obtain ⟨lines', taxable', line', hlines', htaxable', hline', hpush'⟩ :=
      classTaxStep_eq_ok hstep'
    -- neither the reductions nor the taxable amount read the rates
    obtain rfl : lines = lines' := ok.inj (hlines.symm.trans hlines')
    obtain rfl : taxable = taxable' := ok.inj (htaxable.symm.trans htaxable')
    refine pushTaxLine_sameQuoted hpush hpush' ?_ hacc
    rw [classTaxLine_quoted hline hincl, classTaxLine_quoted hline' hincl']
  obtain rfl : charges = charges' := ok.inj (hcharges.symm.trans hcharges')
  have hlines : extra'.map TaxLine.quoted = extra.map TaxLine.quoted := by
    have hquoted : ∀ {bill : BillInput} {lines : List TaxLine}, bill.pricesIncludeTax = true →
        charges.mapM (fun charge => classTaxLine bill charge.taxClassId charge.amount) = .ok lines →
        lines.map TaxLine.quoted = charges.map fun charge =>
          (charge.taxClassId, charge.amount.minor) := by
      intro bill lines hbill hmap
      have hforall := mapM_eq_ok_iff.1 hmap
      clear * - hforall hbill
      induction hforall with
      | nil => rfl
      | cons hline _ ih => simp [classTaxLine_quoted hline hbill, ih]
    rw [hquoted hincl' hextra', hquoted hincl hextra]
  unfold SameQuoted at hloop ⊢
  rw [(pushTaxLines_eq_ok hout).1, (pushTaxLines_eq_ok hout').1, List.map_append, List.map_append,
    hloop, hlines]

/-! ## The whole bill -/

/-- Two totals that charge the guest the same and differ only in the tax taken out of the quoted
    amounts. -/
structure SameCharges (totals totals' : BillTotals) : Prop where
  totalDue : totals'.totalDue = totals.totalDue
  roundingAdjustment : totals'.roundingAdjustment = totals.roundingAdjustment
  /-- The same fees, with the same amounts and the same amount in each class. -/
  feeLines : totals'.feeLines.map FeeLine.untaxed = totals.feeLines.map FeeLine.untaxed
  discountTotal : totals'.discountTotal = totals.discountTotal
  compTotal : totals'.compTotal = totals.compTotal
  serviceCharge : totals'.serviceCharge = totals.serviceCharge
  /-- What was quoted is the same: the subtotal with the tax put back, … -/
  quoted : totals'.subtotal.minor + totals'.taxTotal.minor
    = totals.subtotal.minor + totals.taxTotal.minor
  /-- … and the same in every class. -/
  taxLines : totals'.taxLines.map TaxLine.quoted = totals.taxLines.map TaxLine.quoted

/-- Where prices include tax and no percentage fee quotes its base without it, the rate table
    changes nothing the guest pays. -/
theorem assemble_rate_independent (input : BillInput) (rates : TaxRateTable)
    (totals totals' : BillTotals) (hincl : input.pricesIncludeTax = true)
    (hown : OwnPosture input) (h : assemble input = .ok totals)
    (h' : assemble (input.withRates rates) = .ok totals') : SameCharges totals totals' := by
  obtain ⟨a⟩ := assembled_of_ok h
  obtain ⟨b⟩ := assembled_of_ok h'
  have hquoted : b.quoted = a.quoted := ok.inj (b.quoted_ok.symm.trans a.quoted_ok)
  have hdiscount : b.discountShares = a.discountShares :=
    ok.inj (b.discount_ok.symm.trans a.discount_ok)
  have hcomp : b.compShares = a.compShares := ok.inj (b.comp_ok.symm.trans a.comp_ok)
  have hfees : b.fees = a.fees := by
    have hb := b.fees_ok
    rw [hquoted, chargeFees_withRates rates a.quoted hown] at hb
    exact ok.inj (hb.symm.trans a.fees_ok)
  have hservice : totals'.serviceCharge = totals.serviceCharge := by
    have hb := b.serviceCharge_ok
    rw [hfees] at hb
    exact ok.inj (hb.symm.trans a.serviceCharge_ok)
  have hsub := a.subtotal_ok
  have hsub' := b.subtotal_ok
  simp only [BillInput.withRates, hincl, if_true, hquoted, checkedSub_eq_ok] at hsub hsub'
  obtain ⟨-, hcur, hminor⟩ := hsub
  obtain ⟨-, hcur', hminor'⟩ := hsub'
  have hunrounded : b.unrounded = a.unrounded := by
    refine ext ?_ ?_
    · rw [b.unrounded_currency, a.unrounded_currency, hcur, hcur']
    · -- the tax that left the subtotal comes back with the tax total
      have hb := b.unrounded_minor
      have ha := a.unrounded_minor
      simp only [billDiscount_withRates, comps_withRates, hservice] at hb
      simp only [minor] at *
      omega
  have hdue : (totals'.totalDue, totals'.roundingAdjustment)
      = (totals.totalDue, totals.roundingAdjustment) := by
    have hb := b.rounded_ok
    rw [hunrounded] at hb
    exact ok.inj (hb.symm.trans a.rounded_ok)
  have hlines : SameQuoted a.taxed b.taxed := by
    have hb := b.taxed_ok
    rw [hdiscount, hcomp, hfees] at hb
    exact classTax_sameQuoted hincl a.taxed_ok hb
  refine ⟨congrArg Prod.fst hdue, congrArg Prod.snd hdue, ?_, ?_, ?_, hservice, ?_, ?_⟩
  · rw [(taxTheFees_eq_ok b.feeLines_ok).1, hfees, (taxTheFees_eq_ok a.feeLines_ok).1]
  · rw [b.discountTotal_eq, a.discountTotal_eq, billDiscount_withRates]
  · rw [b.compTotal_eq, a.compTotal_eq, comps_withRates]
  · rw [a.taxTotal_eq, b.taxTotal_eq]
    omega
  · rw [a.taxLines_eq, b.taxLines_eq]
    exact hlines

/-- A bill of one class whose menu prices include tax. -/
def inclusiveBill : BillInput :=
  { oneClassBill (zero .vnd) [] with pricesIncludeTax := true }

/-- No tax at all on the class. -/
def untaxedRates : TaxRateTable := ⟨[⟨⟨1⟩, .fromKnown .dineIn, ⟨0, by decide⟩, []⟩]⟩

theorem assemble_rate_independent_untaxed :
    ∃ totals totals', assemble inclusiveBill = .ok totals ∧
      assemble (inclusiveBill.withRates untaxedRates) = .ok totals' ∧
      totals'.taxTotal ≠ totals.taxTotal ∧ SameCharges totals totals' := by
  have hrun : succeedsWith (assemble inclusiveBill)
      (fun totals => decide (totals.taxTotal.minor = 9)) = true := by decide +kernel
  have hrun' : succeedsWith (assemble (inclusiveBill.withRates untaxedRates))
      (fun totals => decide (totals.taxTotal.minor = 0)) = true := by decide +kernel
  obtain ⟨totals, h, htax⟩ := exists_of_succeedsWith hrun
  obtain ⟨totals', h', htax'⟩ := exists_of_succeedsWith hrun'
  refine ⟨totals, totals', h, h', ?_, ?_⟩
  · intro heq
    rw [heq, decide_eq_true_eq] at htax'
    rw [decide_eq_true_eq] at htax
    omega
  · exact assemble_rate_independent inclusiveBill untaxedRates totals totals' rfl (by decide) h h'

end PosFramework
