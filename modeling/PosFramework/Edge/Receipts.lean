import PosFramework.Core.Billing.Reconcile
import PosFramework.Edge.Commands.Bills

set_option autoImplicit false

/-! # Copies of a receipt

A copy is printed from what the settle recorded. The event has the discount and the comps in one
figure, and events from before the fees, the tax per class or its parts were recorded have none of
them: what is missing is borrowed from the bill computed again, where it fits what was recorded. -/

namespace PosFramework

open Fallible List Money Option

namespace SettledReceipt

/-- Whether the reductions of a bill computed again come to the recorded figure. -/
def reducedAs (receipt : SettledReceipt) (totals : BillTotals) : Bool :=
  match totals.discountTotal.checkedAdd totals.compTotal with
  | .ok reduction => decide (reduction = receipt.reductionTotal)
  | .error _ => false

/-- The recorded reductions as a discount and a comp. -/
def reductions (receipt : SettledReceipt) (recomputed : Option BillTotals) : Money × Money :=
  ((recomputed.filter receipt.reducedAs).map fun totals =>
    (totals.discountTotal, totals.compTotal)).getD
    (receipt.reductionTotal, zero receipt.totalDue.currencyCode)

/-- A recorded fee as the copy prints it. -/
def feeLine (recorded : BillFeeLine) : FeeLine where
  feeId := recorded.feeId
  code := recorded.code
  displayName := recorded.displayName
  amount := recorded.amount
  classShares := []
  tax := recorded.tax
  taxComponents := recorded.taxComponents
  waivable := false

/-- A recorded tax line as the copy prints it, with its named parts. -/
def taxLine (recomputed : Option BillTotals) (recorded : TaxLine) : TaxLine :=
  if recorded.components = [] then
    let same := recomputed.bind fun totals => totals.taxLines.find? fun line =>
      decide (line.taxClassId = recorded.taxClassId) &&
        decide (line.rateBasisPoints = recorded.rateBasisPoints) && decide (line.tax = recorded.tax)
    { recorded with components := (same.map (·.components)).getD [] }
  else recorded

/-- Whether a bill computed again has every figure the settle recorded. -/
def agrees (receipt : SettledReceipt) (totals : BillTotals) : Bool :=
  decide (totals.subtotal = receipt.subtotal) && receipt.reducedAs totals &&
    decide (totals.serviceCharge = receipt.serviceCharge) &&
    decide (totals.taxTotal = receipt.taxTotal) &&
    decide (totals.roundingAdjustment = receipt.roundingAdjustment) &&
    decide (totals.totalDue = receipt.totalDue)

/-- The recorded figures, with these fee and tax lines. -/
def recorded (receipt : SettledReceipt) (recomputed : Option BillTotals) (feeLines : List FeeLine)
    (taxLines : List TaxLine) : BillTotals where
  subtotal := receipt.subtotal
  discountTotal := (receipt.reductions recomputed).1
  compTotal := (receipt.reductions recomputed).2
  serviceCharge := receipt.serviceCharge
  feeLines := feeLines
  taxLines := taxLines
  taxTotal := receipt.taxTotal
  roundingAdjustment := receipt.roundingAdjustment
  totalDue := receipt.totalDue

/-- The totals a copy prints. -/
def totals (receipt : SettledReceipt) (recomputed : Option BillTotals) : BillTotals :=
  if receipt.taxLines ≠ [] then
    receipt.recorded recomputed (receipt.feeLines.map feeLine)
      (receipt.taxLines.map (taxLine recomputed))
  else (recomputed.filter receipt.agrees).getD (receipt.recorded recomputed [] [])

/-- A copy has the recorded figures, and they add up, with its tax lines and under each of them. -/
structure AddsUp (receipt : SettledReceipt) (copy : BillTotals) : Prop where
  subtotal : copy.subtotal = receipt.subtotal
  serviceCharge : copy.serviceCharge = receipt.serviceCharge
  taxTotal : copy.taxTotal = receipt.taxTotal
  roundingAdjustment : copy.roundingAdjustment = receipt.roundingAdjustment
  totalDue : copy.totalDue = receipt.totalDue
  due : copy.subtotal.minor - copy.discountTotal.minor - copy.compTotal.minor
      + copy.serviceCharge.minor + copy.taxTotal.minor + copy.roundingAdjustment.minor
    = copy.totalDue.minor
  currency : ∀ m ∈ [copy.subtotal, copy.discountTotal, copy.compTotal, copy.serviceCharge,
    copy.taxTotal, copy.roundingAdjustment], m.currencyCode = copy.totalDue.currencyCode
  taxes : copy.taxLines = [] ∨ totalMinor (copy.taxLines.map (·.tax)) = copy.taxTotal.minor
  breakdowns : ∀ line ∈ copy.taxLines, BreaksDown line.components line.tax

/-- The recorded figures add up, with the reductions in one. -/
structure Balanced (receipt : SettledReceipt) : Prop where
  due : receipt.subtotal.minor - receipt.reductionTotal.minor + receipt.serviceCharge.minor
      + receipt.taxTotal.minor + receipt.roundingAdjustment.minor = receipt.totalDue.minor
  currency : ∀ m ∈ [receipt.subtotal, receipt.reductionTotal, receipt.serviceCharge,
    receipt.taxTotal,
    receipt.roundingAdjustment], m.currencyCode = receipt.totalDue.currencyCode

/-- A tax line as an event records it: with its parts, or from before they were recorded. -/
def RecordedLine (line recorded : TaxLine) : Prop :=
  recorded = line ∨ recorded = { line with components := [] }

/-- A settle as its event records it: with its fees and its tax per class, or from before they were
    recorded. -/
def RecordsSettle (totals : BillTotals) (event : BillingBillSettled) : Prop :=
  ∃ billId receiptNumber reductionTotal buyer feeLines taxLines,
    addMoney totals.discountTotal totals.compTotal = .ok reductionTotal ∧
    (taxLines = [] ∨ List.Forall₂ RecordedLine totals.taxLines taxLines) ∧
    event =
      { Env.settledEvent billId receiptNumber totals reductionTotal buyer with feeLines, taxLines }

variable {receipt : SettledReceipt} {recomputed : Option BillTotals} {again : BillTotals}

theorem reducedAs_iff : receipt.reducedAs again = true ↔
    again.discountTotal.checkedAdd again.compTotal = .ok receipt.reductionTotal := by
  unfold reducedAs
  cases again.discountTotal.checkedAdd again.compTotal <;> simp

/-- However the reductions are divided, the recorded figures add up. -/
theorem Balanced.recorded (h : receipt.Balanced) (recomputed : Option BillTotals)
    (feeLines : List FeeLine) {taxLines : List TaxLine}
    (htaxes : taxLines = [] ∨ totalMinor (taxLines.map (·.tax)) = receipt.taxTotal.minor)
    (hbreakdowns : ∀ line ∈ taxLines, BreaksDown line.components line.tax) :
    receipt.AddsUp (receipt.recorded recomputed feeLines taxLines) := by
  have hcurrency := h.currency
  simp only [forall_mem_cons] at hcurrency
  obtain ⟨hsubtotal, hreduction, hservice, htax, hround, -⟩ := hcurrency
  obtain ⟨hsum, hdiscount, hcomp⟩ : (receipt.reductions recomputed).1.minor +
      (receipt.reductions recomputed).2.minor = receipt.reductionTotal.minor ∧
      (receipt.reductions recomputed).1.currencyCode = receipt.totalDue.currencyCode ∧
      (receipt.reductions recomputed).2.currencyCode = receipt.totalDue.currencyCode := by
    unfold reductions
    cases hagain : recomputed.filter receipt.reducedAs with
    | none => exact ⟨Int.add_zero _, hreduction, rfl⟩
    | some =>
      obtain ⟨hsame, hsum, hminor⟩ :=
        checkedAdd_eq_ok.1 (reducedAs_iff.1 (filter_eq_some_iff.1 hagain).2)
      exact ⟨hminor.symm, hsum.symm.trans hreduction, hsame.symm.trans (hsum.symm.trans hreduction)⟩
  refine ⟨rfl, rfl, rfl, rfl, rfl, ?_, ?_, htaxes, hbreakdowns⟩
  · have hdue := h.due
    simp only [SettledReceipt.recorded]
    omega
  · simp only [forall_mem_cons]
    exact ⟨hsubtotal, hdiscount, hcomp, hservice, htax, hround, fun _ h => absurd h not_mem_nil⟩

theorem addsUp_of_agrees {input : BillInput} (h : Reconciles input again)
    (hagrees : receipt.agrees again = true) : receipt.AddsUp again := by
  simp only [agrees, Bool.and_eq_true, decide_eq_true_eq] at hagrees
  obtain ⟨⟨⟨⟨⟨hsubtotal, -⟩, hservice⟩, htax⟩, hround⟩, hdue⟩ := hagrees
  refine ⟨hsubtotal, hservice, htax, hround, hdue, h.due, fun m hm => ?_, .inr h.taxes,
    h.taxBreakdowns⟩
  have htotal := h.currency again.totalDue (by simp)
  have hmem : m ∈ [again.subtotal, again.discountTotal, again.compTotal, again.serviceCharge,
      again.taxTotal, again.roundingAdjustment, again.totalDue] :=
    mem_append_left [again.totalDue] hm
  exact (h.currency m hmem).trans htotal.symm

/-- Parts that are borrowed are those of a line of the same tax. -/
theorem taxLine_breaksDown {line recorded : TaxLine} (hline : BreaksDown line.components line.tax)
    (hrecorded : RecordedLine line recorded)
    (hagain : ∀ again ∈ recomputed, ∀ line ∈ again.taxLines, BreaksDown line.components line.tax) :
    (taxLine recomputed recorded).tax = line.tax ∧
      BreaksDown (taxLine recomputed recorded).components line.tax := by
  have htax : recorded.tax = line.tax := by
    rcases hrecorded with rfl | rfl
    · rfl
    · rfl
  unfold taxLine
  split
  next hnone =>
    refine ⟨htax, ?_⟩
    generalize hsame : recomputed.bind _ = same
    cases same with
    | none => exact .inl rfl
    | some found =>
      obtain ⟨again, hmem, hfound⟩ := bind_eq_some_iff.1 hsame
      have hfits := find?_some hfound
      simp only [Bool.and_eq_true, decide_eq_true_eq] at hfits
      have hparts := hagain again hmem found (mem_of_find?_eq_some hfound)
      rwa [hfits.2, htax] at hparts
  next hsome =>
    rcases hrecorded with rfl | rfl
    · exact ⟨rfl, hline⟩
    · exact absurd rfl hsome

/-- The recorded tax lines sum to the recorded tax. -/
theorem totalMinor_recorded {lines recorded : List TaxLine}
    (h : List.Forall₂ RecordedLine lines recorded)
    (hlines : ∀ line ∈ lines, BreaksDown line.components line.tax)
    (hagain : ∀ again ∈ recomputed, ∀ line ∈ again.taxLines, BreaksDown line.components line.tax) :
    totalMinor ((recorded.map (taxLine recomputed)).map (·.tax)) = totalMinor (lines.map (·.tax)) ∧
      ∀ line ∈ recorded.map (taxLine recomputed), BreaksDown line.components line.tax := by
  induction h with
  | nil => exact ⟨rfl, fun _ h => absurd h not_mem_nil⟩
  | cons hline _ ih =>
    rw [forall_mem_cons] at hlines
    obtain ⟨htax, hbreaks⟩ := taxLine_breaksDown hlines.1 hline hagain
    obtain ⟨hsum, hrest⟩ := ih hlines.2
    simp only [map_cons, totalMinor_cons, forall_mem_cons]
    exact ⟨by rw [htax, hsum], htax ▸ hbreaks, hrest⟩

/-- Every copy of a receipt adds up to what was paid, whatever the bill comes to when it is computed
    again. -/
theorem copy_adds_up (input : BillInput) (paid : BillTotals) (hpaid : assemble input = .ok paid)
    (event : BillingBillSettled) (hevent : RecordsSettle paid event) (businessDate : BusinessDate)
    (settleTime : Timestamp) (recomputed : Option BillTotals)
    (hagain : ∀ again ∈ recomputed, ∃ input, assemble input = .ok again) :
    AddsUp (.of event businessDate settleTime)
      ((SettledReceipt.of event businessDate settleTime).totals recomputed) := by
  have hreconciles : ∀ again ∈ recomputed, ∃ input, Reconciles input again := by
    intro again hmem
    obtain ⟨input, hinput⟩ := hagain again hmem
    obtain ⟨assembled⟩ := assembled_of_ok hinput
    exact ⟨input, assembled.reconciles⟩
  obtain ⟨assembled⟩ := assembled_of_ok hpaid
  have hpaid := assembled.reconciles
  obtain ⟨billId, receiptNumber, reductionTotal, buyer, feeLines, taxLines, hreduction,
    hlines, rfl⟩ :=
    hevent
  generalize hreceipt : SettledReceipt.of _ businessDate settleTime = receipt
  have hbalanced : receipt.Balanced := by
    obtain ⟨-, hreduced, hreduction⟩ := addMoney_eq_ok.1 hreduction
    have hcurrency := hpaid.currency
    have hdue := hpaid.due
    simp only [forall_mem_cons] at hcurrency
    obtain ⟨hsub, hdiscount, hcomp, hcharge, htax, hround, htotal, -⟩ := hcurrency
    subst hreceipt
    simp only [SettledReceipt.of, Env.settledEvent]
    constructor
    · dsimp only
      omega
    · simp only [forall_mem_cons, htotal]
      exact ⟨hsub, hreduced.trans hdiscount, hcharge, htax, hround, fun _ h => absurd h not_mem_nil⟩
  have hrecorded : receipt.taxLines = taxLines := by rw [← hreceipt]; rfl
  have htotal : receipt.taxTotal = paid.taxTotal := by rw [← hreceipt]; rfl
  unfold totals
  split
  next hsome =>
    rw [hrecorded] at hsome ⊢
    obtain ⟨hsum, hbreaks⟩ := totalMinor_recorded (hlines.resolve_left hsome) hpaid.taxBreakdowns
      fun again hmem => (hreconciles again hmem).choose_spec.taxBreakdowns
    exact hbalanced.recorded _ _ (.inr (by rw [hsum, htotal, hpaid.taxes])) hbreaks
  next =>
    cases hsame : recomputed.filter receipt.agrees with
    | none => exact hbalanced.recorded _ _ (.inl rfl) fun _ h => absurd h not_mem_nil
    | some again =>
      obtain ⟨hmem, hagrees⟩ := filter_eq_some_iff.1 hsame
      obtain ⟨input, hagain⟩ := hreconciles again hmem
      exact addsUp_of_agrees hagain hagrees

/-- A bill paid with 10 off, and computed again with 20 off. -/
theorem copy_adds_up_discountMoved :
    ∃ paid again event, RecordsSettle paid event ∧
      assemble (oneClassBill (dong 10 (by decide) (by decide)) []) = .ok paid ∧
      assemble (oneClassBill (dong 20 (by decide) (by decide)) []) = .ok again ∧
      AddsUp (.of event ⟨0⟩ ⟨0⟩) ((SettledReceipt.of event ⟨0⟩ ⟨0⟩).totals (some again)) := by
  have hok : succeedsWith (assemble (oneClassBill (dong 10 (by decide) (by decide)) []))
      (fun paid => succeedsWith (addMoney paid.discountTotal paid.compTotal) fun _ => true) =
        true := by
    decide +kernel
  have hok' : succeedsWith (assemble (oneClassBill (dong 20 (by decide) (by decide)) []))
      (fun _ => true) = true := by
    decide +kernel
  obtain ⟨paid, hpaid, hsum⟩ := exists_of_succeedsWith hok
  obtain ⟨reductionTotal, hreduction, -⟩ := exists_of_succeedsWith hsum
  obtain ⟨again, hagain, -⟩ := exists_of_succeedsWith hok'
  have hevent : RecordsSettle paid (Env.settledEvent ⟨1⟩ 1 paid reductionTotal none) :=
    ⟨⟨1⟩, 1, reductionTotal, none, feeRecords paid, paid.taxLines, hreduction,
      .inr (forall₂_same.2 fun _ _ => .inl rfl), rfl⟩
  refine ⟨paid, again, _, hevent, hpaid, hagain, copy_adds_up _ paid hpaid _ hevent ⟨0⟩ ⟨0⟩ _ ?_⟩
  intro again' hmem
  exact ⟨_, hagain.trans (congrArg _ (some.inj hmem))⟩

end SettledReceipt

end PosFramework
