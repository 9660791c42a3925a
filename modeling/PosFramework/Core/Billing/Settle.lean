import PosFramework.Core.Billing.Sums

set_option autoImplicit false

/-! # Settling a bill

The tenders a bill is paid with. What they apply to the bill has to come to exactly what is due;
what they hand over beyond that and the tips is given back as change. -/

namespace PosFramework

open Fallible

/-- One tender. -/
structure Payment where
  method : PaymentMethod
  tendered : Money
  appliedToBill : Money
  tip : Money
deriving DecidableEq

/-- What one tender leaves over: negative on a tender that another one's change makes up. -/
def Payment.change (payment : Payment) : Except DomainError Money := do
  let overApplied ← liftMoney (payment.tendered.checkedSub payment.appliedToBill)
  liftMoney (overApplied.checkedSub payment.tip)

/-- What the tenders of a bill come to. -/
structure Settlement where
  totalApplied : Money
  totalTendered : Money
  totalTips : Money
  changeGiven : Money

/-- What the tenders come to so far. -/
structure TenderSums where
  applied : Money
  tendered : Money
  tips : Money

def TenderSums.zero (currency : CurrencyCode) : TenderSums :=
  ⟨Money.zero currency, Money.zero currency, Money.zero currency⟩

/-- One more tender. -/
def TenderSums.add (sums : TenderSums) (payment : Payment) : Except DomainError TenderSums := do
  let applied ← addMoney sums.applied payment.appliedToBill
  let tendered ← addMoney sums.tendered payment.tendered
  let tips ← addMoney sums.tips payment.tip
  pure { applied, tendered, tips }

/-- The tenders cover the bill exactly, and the change is not below zero. -/
def settle (totalDue : Money) (payments : List Payment) : Except DomainError Settlement := do
  refuseIf (payments = []) (.empty "payments")
  let sums ← payments.foldlM TenderSums.add (.zero totalDue.currencyCode)
  refuseIf (sums.applied ≠ totalDue)
    (.paymentsDoNotSumToTotal sums.applied.amountMinor totalDue.amountMinor)
  let overApplied ← liftMoney (sums.tendered.checkedSub sums.applied)
  let changeGiven ← liftMoney (overApplied.checkedSub sums.tips)
  refuseIf changeGiven.isNegative .negativeChange
  pure { totalApplied := sums.applied, totalTendered := sums.tendered, totalTips := sums.tips,
         changeGiven }

/-- Sums of tenders are all in one currency. -/
def TenderSums.InCurrency (sums : TenderSums) (currency : CurrencyCode) : Prop :=
  sums.applied.currencyCode = currency ∧ sums.tendered.currencyCode = currency ∧
    sums.tips.currencyCode = currency

/-- All three figures of a tender are in one currency. -/
def Payment.InCurrency (payment : Payment) (currency : CurrencyCode) : Prop :=
  payment.appliedToBill.currencyCode = currency ∧ payment.tendered.currencyCode = currency ∧
    payment.tip.currencyCode = currency

variable {payments : List Payment}

theorem foldlM_tenders_eq_ok {sums out : TenderSums}
    {currency : CurrencyCode} (hsums : sums.InCurrency currency)
    (h : payments.foldlM TenderSums.add sums = .ok out) :
    (∀ payment ∈ payments, payment.InCurrency currency) ∧
      out.applied.minor = sums.applied.minor + totalMinor (payments.map (·.appliedToBill)) ∧
      out.tendered.minor = sums.tendered.minor + totalMinor (payments.map (·.tendered)) ∧
      out.tips.minor = sums.tips.minor + totalMinor (payments.map (·.tip)) := by
  induction payments generalizing sums with
  | nil =>
    obtain rfl := pure_eq_ok.1 h
    simp
  | cons payment rest ih =>
    simp only [List.foldlM_cons, TenderSums.add, bind_eq_ok, addMoney_eq_ok, pure_eq_ok] at h
    obtain ⟨_, ⟨applied, ⟨hcur, hcur', happlied⟩, tendered, ⟨htcur, htcur', htendered⟩, tips,
      ⟨hpcur, hpcur', htips⟩, rfl⟩, hrest⟩ := h
    obtain ⟨hc, htc, hpc⟩ := hsums
    obtain ⟨hall, hsumApplied, hsumTendered, hsumTips⟩ :=
      ih ⟨hcur'.trans hc, htcur'.trans htc, hpcur'.trans hpc⟩ hrest
    simp only [List.map_cons, totalMinor_cons]
    refine ⟨List.forall_mem_cons.2 ⟨⟨hcur.symm.trans hc, htcur.symm.trans htc,
      hpcur.symm.trans hpc⟩, hall⟩, ?_, ?_, ?_⟩
    · rw [hsumApplied, happlied, Int.add_assoc]
    · rw [hsumTendered, htendered, Int.add_assoc]
    · rw [hsumTips, htips, Int.add_assoc]

/-- The change of a settlement, on the sums of payments in one currency. -/
theorem settle_ok {totalDue : Money} {settlement : Settlement}
    (h : settle totalDue payments = .ok settlement) :
    (∀ payment ∈ payments, payment.InCurrency totalDue.currencyCode) ∧
      settlement.changeGiven.minor = totalMinor (payments.map (·.tendered)) -
        totalMinor (payments.map (·.appliedToBill)) - totalMinor (payments.map (·.tip)) ∧
      0 ≤ settlement.changeGiven.minor := by
  simp only [settle, bind_eq_ok, refuseIf_eq_ok, liftMoney_eq_ok, Money.checkedSub_eq_ok,
    pure_eq_ok] at h
  obtain ⟨_, _, sums, hsums, _, _, beyond, ⟨_, _, hbeyond⟩, change, ⟨_, _, hchange⟩, _, hpositive,
    rfl⟩ := h
  obtain ⟨hall, happlied, htendered, htips⟩ := foldlM_tenders_eq_ok ⟨rfl, rfl, rfl⟩ hsums
  simp only [TenderSums.zero, Money.minor_zero, Int.zero_add] at happlied htendered htips
  refine ⟨hall, ?_, by simpa [Money.isNegative] using hpositive⟩
  rw [hchange, hbeyond, happlied, htendered, htips]

end PosFramework
