import PosFramework.Core.Billing.Assemble
import PosFramework.Proto.Money.Proofs

set_option autoImplicit false

/-! # What the steps of a bill sum to

One lemma per step of `Core.Billing`: what it returned in exact integers. Money is summed by
`totalMinor`; what a list charges in one class by `amountIn`. -/

namespace PosFramework

open Fallible List Money Apportion Tally Except

/-- The exact sum of amounts, in minor units. -/
def totalMinor (amounts : List Money) : Int := (amounts.map minor).sum

@[simp] theorem totalMinor_nil : totalMinor [] = 0 := rfl

@[simp] theorem totalMinor_cons (m : Money) (ms : List Money) :
    totalMinor (m :: ms) = m.minor + totalMinor ms := rfl

@[simp] theorem totalMinor_append (ms ns : List Money) :
    totalMinor (ms ++ ns) = totalMinor ms + totalMinor ns := by
  simp [totalMinor]

/-- What is charged in one class. -/
def amountIn (taxClassId : TaxClassId) (bases : List ClassBase) : Int :=
  sumAt ClassBase.taxClassId (fun base => base.amount.minor) taxClassId bases

/-! ## Sums -/

variable {amount out sum : Money} {amounts parts : List Money} {weights : List I64}

theorem addMoney_eq_ok :
    addMoney sum amount = .ok out ↔
      sum.currencyCode = amount.currencyCode ∧ out.currencyCode = sum.currencyCode ∧
        out.minor = sum.minor + amount.minor := by
  simp only [addMoney, liftMoney_eq_ok, checkedAdd_eq_ok]

/-- A running sum: exact, and every amount in the sum's currency. -/
theorem foldlM_addMoney_eq_ok
    (h : amounts.foldlM addMoney sum = .ok out) :
    out.currencyCode = sum.currencyCode ∧ out.minor = sum.minor + totalMinor amounts ∧
      ∀ amount ∈ amounts, amount.currencyCode = sum.currencyCode := by
  induction amounts generalizing sum with
  | nil =>
    simp only [foldlM_nil, pure_eq_ok] at h
    subst h
    simp
  | cons amount amounts ih =>
    simp only [foldlM_cons, bind_eq_ok, addMoney_eq_ok] at h
    obtain ⟨mid, ⟨hcur, hmid, hminor⟩, hrest⟩ := h
    obtain ⟨hout, hsum, hall⟩ := ih hrest
    refine ⟨hout.trans hmid, ?_, ?_⟩
    · rw [hsum, hminor, totalMinor_cons]
      ring
    · intro a ha
      rcases mem_cons.1 ha with rfl | ha
      · exact hcur.symm
      · exact (hall a ha).trans hmid

theorem sumMoney_eq_ok {currency : CurrencyCode} (h : sumMoney currency amounts = .ok out) :
    out.currencyCode = currency ∧ out.minor = totalMinor amounts ∧
      ∀ amount ∈ amounts, amount.currencyCode = currency := by
  have hfold := foldlM_addMoney_eq_ok h
  simpa using hfold

/-- Adding to a class adds there and nowhere else. -/
theorem addToClass_adds :
    Adds ClassBase.taxClassId (fun base : ClassBase => base.amount.minor)
      ClassBase.taxClassId (fun base : ClassBase => base.amount.minor)
      (fun sums base => addToClass sums base.taxClassId base.amount) := by
  intro sums base out h
  refine bump_adds base ?_ ?_ h
  · simp
  · intro x x' hx
    simp only [bind_eq_ok, addMoney_eq_ok, pure_eq_ok] at hx
    obtain ⟨total, ⟨-, -, hminor⟩, rfl⟩ := hx
    exact ⟨rfl, hminor⟩

/-- Adding a component adds its tax to the breakdown's sum. -/
theorem addComponent_adds :
    Adds (fun line : TaxComponentLine => (line.name, line.rateBasisPoints))
      (fun line => line.tax.minor) (fun line => (line.name, line.rateBasisPoints))
      (fun line => line.tax.minor) addComponent := by
  intro sums part out h
  refine bump_adds part ?_ ?_ h
  · simp
  · intro x x' hx
    simp only [bind_eq_ok, addMoney_eq_ok, pure_eq_ok] at hx
    obtain ⟨total, ⟨-, -, hminor⟩, rfl⟩ := hx
    exact ⟨rfl, hminor⟩

/-! ## Splits -/

theorem totalMinor_of_allocate
    (h : amount.allocate weights = .ok parts) : totalMinor parts = amount.minor := by
  obtain ⟨-, -, -, hminor, -⟩ := allocate_eq_ok h
  rw [totalMinor, hminor, sum_shares]

theorem length_of_allocate
    (h : amount.allocate weights = .ok parts) : parts.length = weights.length := by
  obtain ⟨hne, -, -, hminor, -⟩ := allocate_eq_ok h
  have hlen := congrArg length hminor
  rw [length_map, length_shares _ (by simpa using hne), length_map] at hlen
  exact hlen

/-- A breakdown that is given sums to the tax. -/
theorem splitComponents_eq_ok {tax : Money} {components : List TaxComponent}
    {lines : List TaxComponentLine} (h : splitComponents tax components = .ok lines) :
    lines = [] ∨ totalMinor (lines.map (·.tax)) = tax.minor := by
  unfold splitComponents at h
  split at h
  · simp only [ok.injEq] at h
    exact Or.inl h.symm
  · next names hnames =>
      simp only at h
      split at h
      · simp only [ok.injEq] at h
        exact Or.inl h.symm
      · simp only [bind_eq_ok, liftMoney_eq_ok, pure_eq_ok] at h
        obtain ⟨shares, hshares, rfl⟩ := h
        have hlen : shares.length = components.length := by
          simpa using length_of_allocate hshares
        have hnlen : names.length = components.length := length_of_mapM_some hnames
        right
        have htax : (((names.zip components).zip shares).map
            (fun p => (⟨p.1.1, p.1.2.rate.basisPoints, p.2⟩ : TaxComponentLine))).map
              (·.tax) = shares := by
          rw [map_map]
          exact map_snd_zip (by simp [hlen, hnlen])
        rw [htax, totalMinor_of_allocate hshares]

/-- A bill-level amount over the classes is its apportionment over the class bases, in both the
    zero case and the allocated one. -/
theorem allocateAcrossClasses_eq_ok {classBases : List ClassBase}
    {shares : List Money} (hne : classBases ≠ [])
    (h : allocateAcrossClasses amount classBases = .ok shares) :
    shares.map minor
        = Apportion.shares amount.minor (classBases.map fun base => base.amount.minor) ∧
      ∀ share ∈ shares, share.currencyCode = amount.currencyCode := by
  unfold allocateAcrossClasses at h
  split at h
  · next hzero =>
      simp only [ok.injEq] at h
      subst h
      rw [isZero_iff.1 hzero, shares_zero (by simpa using hne)]
      simp
  · rw [liftMoney_eq_ok] at h
    obtain ⟨-, -, -, hminor, hcur⟩ := allocate_eq_ok h
    refine ⟨?_, hcur⟩
    rw [hminor, map_map]
    rfl

end PosFramework
