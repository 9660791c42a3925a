import PosFramework.Cloud.Reports.Rollup
import PosFramework.Lib.Tally

set_option autoImplicit false

/-! # A day's revenue and the bills that stand on it

The revenue of a trading day is the sum of the bills settled on it and not voided since. The settle
of a bill merges its fees by code and puts its tax components to their totals; its void takes them
back out of what the day has then, a fee's entry going with its last bill. Where the bill stands on
the day, what is left is the sum of the other bills: the void undoes the settle, whatever was folded
in between. -/

namespace PosFramework

open Std (ExtTreeMap)
open Entries List Prod Sums

/-! ## Fees -/

/-- What the charges of one fee code sum to. A charge is a code, an amount and a tax. -/
def charged (g : String × Int × Int → Int) (charges : List (String × Int × Int))
    (code : String) : Int :=
  ((charges.filter fun charge => charge.1 = code).map g).sum

section Charged

variable (g : String × Int × Int → Int) (charge : String × Int × Int)
  (charges more : List (String × Int × Int)) (code : String)

theorem charged_cons :
    charged g (charge :: charges) code = (if charge.1 = code then g charge else 0) +
      charged g charges code :=
  Tally.sumAt_cons ..

theorem charged_append :
    charged g (charges ++ more) code = charged g charges code + charged g more code :=
  Tally.sumAt_append ..

variable {charges more}

theorem charged_perm (h : charges.Perm more) : charged g charges code = charged g more code :=
  ((h.filter _).map g).sum_eq

theorem charged_one : charged (fun _ => 1) charges code =
    (charges.filter fun charge => charge.1 = code).length := by
  rw [charged, map_const', sum_replicate, nsmul_one]

theorem charged_one_nonneg : 0 ≤ charged (fun _ => 1) charges code := by
  rw [charged_one]
  exact Int.natCast_nonneg _

theorem charged_eq_zero (h : charged (fun _ => 1) charges code = 0) :
    charged g charges code = 0 := by
  rw [charged_one, Int.natCast_eq_zero, length_eq_zero_iff] at h
  rw [charged, h]
  rfl

end Charged

/-- The fee totals of a day are those of its charges. -/
structure FeesStand (byFee : ExtTreeMap String FeeTotal)
    (charges : List (String × Int × Int)) : Prop where
  bills : ∀ code, worth (·.bills) byFee code = charged (fun _ => 1) charges code
  amount : ∀ code, worth (·.amount) byFee code = charged (·.2.1) charges code
  tax : ∀ code, worth (·.tax) byFee code = charged (·.2.2) charges code

namespace FeesStand

variable {byFee : ExtTreeMap String FeeTotal} {charges more : List (String × Int × Int)}

theorem perm (h : FeesStand byFee charges) (hperm : charges.Perm more) : FeesStand byFee more where
  bills := fun code => (h.bills code).trans (charged_perm _ code hperm)
  amount := fun code => (h.amount code).trans (charged_perm _ code hperm)
  tax := fun code => (h.tax code).trans (charged_perm _ code hperm)

/-- A charge that stands is taken back; with the last charge of its code the entry goes. -/
theorem takeBackFee {charge : String × Int × Int} (h : FeesStand byFee (charge :: charges)) :
    FeesStand (takeBackFee .exact byFee charge) charges := by
  obtain ⟨code, amount, tax⟩ := charge
  have hbills := h.bills code
  have hamount := h.amount code
  have htax := h.tax code
  rw [charged_cons, if_pos rfl] at hbills hamount htax
  cases hentry : byFee[code]? with
  | none =>
    -- the charge is counted, so its code has an entry
    rw [worth, hentry, Option.elim_none] at hbills
    have hnonneg : 0 ≤ charged (fun _ => 1) charges code := charged_one_nonneg code
    omega
  | some total =>
    rw [worth, hentry, Option.elim_some] at hbills hamount htax
    have hleft : total.bills - 1 = charged (fun _ => 1) charges code := by omega
    have hother : ∀ another, code ≠ another → ∀ g : String × Int × Int → Int,
        charged g ((code, amount, tax) :: charges) another = charged g charges another := by
      intro another hne g
      rw [charged_cons, if_neg hne, zero_add]
    by_cases hlast : total.bills - 1 = 0
    · have hgone : PosFramework.takeBackFee .exact byFee (code, amount, tax) =
          byFee.erase code := by
        simp only [PosFramework.takeBackFee, hentry, exact, id_eq, hlast, if_true]
      have hzero (g : String × Int × Int → Int) : charged g charges code = 0 :=
        charged_eq_zero g code (hleft ▸ hlast)
      rw [hgone]
      constructor
      all_goals
        intro another
        rw [worth_erase]
        split
        case isTrue hsame => rw [← hsame, hzero]
      case bills.isFalse hne => rw [h.bills, hother another hne]
      case amount.isFalse hne => rw [h.amount, hother another hne]
      case tax.isFalse hne => rw [h.tax, hother another hne]
    · have hkept : PosFramework.takeBackFee .exact byFee (code, amount, tax) =
          byFee.insert code { total with
            amount := total.amount - amount, tax := total.tax - tax
            bills := total.bills - 1 } := by
        simp only [PosFramework.takeBackFee, hentry, exact, id_eq, hlast, if_false]
      rw [hkept]
      constructor
      all_goals
        intro another
        rw [worth_insert]
        split
      case bills.isTrue hsame => rw [← hsame, hleft]
      case amount.isTrue hsame => rw [← hsame, hamount]; ring
      case tax.isTrue hsame => rw [← hsame, htax]; ring
      case bills.isFalse hne => rw [h.bills, hother another hne]
      case amount.isFalse hne => rw [h.amount, hother another hne]
      case tax.isFalse hne => rw [h.tax, hother another hne]

theorem takeBack (h : FeesStand byFee (more ++ charges)) :
    FeesStand (more.foldl (PosFramework.takeBackFee .exact) byFee) charges := by
  induction more generalizing byFee with
  | nil => exact h
  | cons charge rest ih => exact ih h.takeBackFee

end FeesStand

section AddFee

variable (code : String) (amount tax : Int) (fees : List (String × Int × Int)) (another : String)

theorem mem_codes_addFee :
    another ∈ (addFee .exact code amount tax fees).map fst ↔
      another = code ∨ another ∈ fees.map fst := by
  induction fees with
  | nil => simp [addFee]
  | cons fee rest ih =>
    rw [addFee]
    split
    case isTrue hcode => simp only [map_cons, mem_cons, hcode, or_self_left]
    case isFalse => simp only [map_cons, mem_cons, ih, or_left_comm]

/-- A line under a code that the bill has charged is no charge more. -/
theorem charged_one_addFee :
    charged (fun _ => 1) (addFee .exact code amount tax fees) another =
      charged (fun _ => 1) fees another +
        if code = another ∧ code ∉ fees.map fst then 1 else 0 := by
  induction fees with
  | nil =>
    by_cases hsame : code = another <;> simp [addFee, charged, hsame]
  | cons fee rest ih =>
    rw [addFee]
    by_cases hcode : fee.1 = code
    · have hmem : code ∈ (fee :: rest).map fst := mem_cons.2 (.inl hcode.symm)
      rw [if_pos hcode, if_neg fun h => h.2 hmem, add_zero, charged_cons, charged_cons]
    · have hmem : code ∉ (fee :: rest).map fst ↔ code ∉ rest.map fst := by
        simp [Ne.symm hcode]
      rw [if_neg hcode, charged_cons, charged_cons, ih, add_assoc]
      simp only [hmem]

theorem charged_addFee (g : String × Int × Int → Int) (hg : ∀ code amount tax amount' tax',
      g (code, amount + amount', tax + tax') = g (code, amount, tax) + g (code, amount', tax')) :
    charged g (addFee .exact code amount tax fees) another =
      charged g fees another + if code = another then g (code, amount, tax) else 0 := by
  induction fees with
  | nil =>
    by_cases hsame : code = another <;> simp [addFee, charged, hsame]
  | cons fee rest ih =>
    obtain ⟨first, amount', tax'⟩ := fee
    rw [addFee]
    by_cases hcode : first = code
    · subst hcode
      rw [if_pos rfl, charged_cons, charged_cons]
      split
      · simp only [exact, id_eq, hg]
        ring
      · simp only [add_zero]
    · rw [if_neg hcode, charged_cons, charged_cons, ih, add_assoc]

end AddFee

/-- One fee line, merged under its code or passed over. -/
def mergeFee (fees : List (String × Int × Int)) (line : BillFeeLine) : List (String × Int × Int) :=
  if line.charges then addFee .exact line.code.value line.amount.minor line.tax.minor fees else fees

namespace FeesStand

variable {charges fees : List (String × Int × Int)}
    {folded : ExtTreeMap String FeeTotal × List String}

/-- A line that the totals count and one that the bill merges are one charge. -/
theorem foldFee (h : FeesStand folded.1 (fees ++ charges))
    (hcounted : ∀ code, code ∈ folded.2 ↔ code ∈ fees.map fst) (line : BillFeeLine) :
    FeesStand (foldFee .exact folded line).1 (mergeFee fees line ++ charges) ∧
      ∀ code, code ∈ (PosFramework.foldFee .exact folded line).2 ↔
        code ∈ (mergeFee fees line).map fst := by
  by_cases hcharges : line.charges
  · rw [PosFramework.foldFee, if_pos hcharges, mergeFee, if_pos hcharges]
    have hworth (g : FeeTotal → Int) (hg : g ⟨"", 0, 0, 0⟩ = 0) :
        g (folded.1[line.code.value]?.getD ⟨"", 0, 0, 0⟩) = worth g folded.1 line.code.value := by
      rw [worth]
      cases folded.1[line.code.value]? with
      | none => exact hg
      | some => rfl
    constructor
    · constructor
      · intro code
        refine (worth_upsert ..).trans ?_
        rw [charged_append, charged_one_addFee]
        split
        case isTrue hsame =>
          have hbefore := hworth (·.bills) rfl
          rw [h.bills, charged_append] at hbefore
          subst hsame
          by_cases hmem : line.code.value ∈ folded.2
          · have hmerged := (hcounted _).1 hmem
            simp only [hmem, not_true, if_false, hmerged, and_false]
            omega
          · have hmerged : line.code.value ∉ fees.map fst :=
              fun hfees => hmem ((hcounted _).2 hfees)
            simp only [hmem, not_false_eq_true, if_true, hmerged, and_self, exact, id_eq]
            omega
        case isFalse hne =>
          rw [if_neg fun hboth => hne hboth.1, h.bills, charged_append]
          ring
      · intro code
        refine (worth_upsert ..).trans ?_
        rw [charged_append, charged_addFee _ _ _ _ _ (·.2.1) fun _ _ _ _ _ => rfl]
        split
        case isTrue hsame =>
          have hbefore := hworth (·.amount) rfl
          rw [h.amount, charged_append] at hbefore
          subst hsame
          simp only [exact, id_eq]
          omega
        case isFalse hne =>
          rw [h.amount, charged_append]
          ring
      · intro code
        refine (worth_upsert ..).trans ?_
        rw [charged_append, charged_addFee _ _ _ _ _ (·.2.2) fun _ _ _ _ _ => rfl]
        split
        case isTrue hsame =>
          have hbefore := hworth (·.tax) rfl
          rw [h.tax, charged_append] at hbefore
          subst hsame
          simp only [exact, id_eq]
          omega
        case isFalse hne =>
          rw [h.tax, charged_append]
          ring
    · intro code
      rw [mem_codes_addFee, ← hcounted code]
      by_cases hmem : line.code.value ∈ folded.2
      · simp only [hmem, not_true, if_false]
        exact ⟨.inr, fun h => h.elim (fun hsame => hsame ▸ hmem) id⟩
      · simp only [hmem, not_false_eq_true, if_true, mem_append, mem_singleton]
        exact or_comm
  · rw [PosFramework.foldFee, if_neg hcharges, mergeFee, if_neg hcharges]
    exact ⟨h, hcounted⟩

theorem foldl_foldFee (h : FeesStand folded.1 (fees ++ charges))
    (hcounted : ∀ code, code ∈ folded.2 ↔ code ∈ fees.map fst) (lines : List BillFeeLine) :
    FeesStand (lines.foldl (PosFramework.foldFee .exact) folded).1
      (lines.foldl mergeFee fees ++ charges) := by
  induction lines generalizing folded fees with
  | nil => exact h
  | cons line rest ih =>
    obtain ⟨hstand, hcodes⟩ := h.foldFee hcounted line
    exact ih hstand hcodes

/-- What a settled bill charges is put to the totals. -/
theorem foldFees {byFee : ExtTreeMap String FeeTotal} (h : FeesStand byFee charges)
    (bill : BillingBillSettled) :
    FeesStand (foldFees .exact byFee bill.feeLines) (feesByCode .exact bill ++ charges) := by
  have hnone : ∀ code, code ∈ (byFee, ([] : List String)).2 ↔
      code ∈ ([] : List (String × Int × Int)).map fst := fun code => by simp
  exact foldl_foldFee h hnone bill.feeLines

end FeesStand

/-! ## Tax components -/

/-- What the entries of one component, told by its name and rate, hold together. -/
def componentTax (totals : List TaxComponentTotal) (name : String) (rate : Nat) : Int :=
  ((totals.filter fun total => total.componentName = name ∧ total.rateBasisPoints = rate).map
    (·.tax)).sum

/-- What a list of recorded components holds of one. -/
def componentCharged (components : List (String × Nat × Int)) (name : String) (rate : Nat) : Int :=
  ((components.filter fun component => component.1 = name ∧ component.2.1 = rate).map (·.2.2)).sum

section Components

variable (total : TaxComponentTotal) (totals : List TaxComponentTotal)
    (component : String × Nat × Int)
  (components more : List (String × Nat × Int)) (name : String) (rate : Nat)

theorem sum_filter_cons {α : Type} (p : α → Prop) [DecidablePred p] (f : α → Int) (a : α)
    (l : List α) :
    (((a :: l).filter p).map f).sum = (if p a then f a else 0) + ((l.filter p).map f).sum := by
  by_cases h : p a <;> simp [h]

theorem componentTax_cons :
    componentTax (total :: totals) name rate =
      (if total.componentName = name ∧ total.rateBasisPoints = rate then total.tax else 0) +
        componentTax totals name rate := sum_filter_cons ..

theorem componentCharged_cons :
    componentCharged (component :: components) name rate =
      (if component.1 = name ∧ component.2.1 = rate then component.2.2 else 0) +
        componentCharged components name rate := sum_filter_cons ..

theorem componentTax_addComponentTotal (tax : Int) (another : String) (anotherRate : Nat) :
    componentTax (addComponentTotal .exact name rate tax totals) another anotherRate =
      (if name = another ∧ rate = anotherRate then tax else 0) +
        componentTax totals another anotherRate := by
  induction totals with
  | nil => rw [addComponentTotal, componentTax_cons]
  | cons total rest ih =>
    rw [addComponentTotal]
    split
    case isTrue hkey =>
      obtain ⟨rfl, rfl⟩ := hkey
      rw [componentTax_cons, componentTax_cons]
      split
      · simp only [exact, id_eq]
        ring
      · simp only [zero_add]
    case isFalse =>
      split
      · rw [componentTax_cons]
      · rw [componentTax_cons, componentTax_cons, ih]
        ring

/-- The component has an entry. -/
def HasComponent (totals : List TaxComponentTotal) (name : String) (rate : Nat) : Prop :=
  ∃ total ∈ totals, total.componentName = name ∧ total.rateBasisPoints = rate

variable {totals components more}

theorem hasComponent_addComponentTotal (tax : Int) (another : String) (anotherRate : Nat) :
    HasComponent (addComponentTotal .exact name rate tax totals) another anotherRate ↔
      (name = another ∧ rate = anotherRate) ∨ HasComponent totals another anotherRate := by
  induction totals with
  | nil => simp [addComponentTotal, HasComponent]
  | cons total rest ih =>
    simp only [HasComponent, mem_cons, exists_eq_or_imp] at ih ⊢
    rw [addComponentTotal]
    split
    case isTrue hkey =>
      obtain ⟨rfl, rfl⟩ := hkey
      simp only [mem_cons, exists_eq_or_imp, or_self_left]
    case isFalse =>
      split
      · simp only [mem_cons, exists_eq_or_imp]
      · simp only [mem_cons, exists_eq_or_imp, ih, or_left_comm]

theorem componentTax_takeBackComponent (h : HasComponent totals component.1 component.2.1) :
    componentTax (takeBackComponent .exact component totals) name rate =
      componentTax totals name rate -
        if component.1 = name ∧ component.2.1 = rate then component.2.2 else 0 := by
  induction totals with
  | nil =>
    obtain ⟨total, hmem, -⟩ := h
    cases hmem
  | cons total rest ih =>
    rw [takeBackComponent]
    split
    case isTrue hkey =>
      rw [componentTax_cons, componentTax_cons, ← hkey.1, ← hkey.2]
      split
      · simp only [exact, id_eq]
        ring
      · simp only [zero_add, sub_zero]
    case isFalse hkey =>
      obtain ⟨found, hmem, hfound⟩ := h
      have hrest : HasComponent rest component.1 component.2.1 := by
        rcases mem_cons.1 hmem with rfl | hmem
        · exact absurd hfound hkey
        · exact ⟨found, hmem, hfound⟩
      rw [componentTax_cons, componentTax_cons, ih hrest]
      ring

theorem hasComponent_takeBackComponent :
    HasComponent (takeBackComponent .exact component totals) name rate ↔
      HasComponent totals name rate := by
  induction totals with
  | nil => rfl
  | cons total rest ih =>
    simp only [HasComponent, mem_cons, exists_eq_or_imp] at ih ⊢
    rw [takeBackComponent]
    split
    · simp only [mem_cons, exists_eq_or_imp]
    · simp only [mem_cons, exists_eq_or_imp, ih]

end Components

/-- The component totals of a day are those of the components recorded on it. -/
structure ComponentsStand (totals : List TaxComponentTotal)
    (components : List (String × Nat × Int)) :
    Prop where
  tax : ∀ name rate, componentTax totals name rate = componentCharged components name rate
  entries : ∀ component ∈ components, HasComponent totals component.1 component.2.1

namespace ComponentsStand

variable {totals : List TaxComponentTotal} {components more : List (String × Nat × Int)}

theorem perm (h : ComponentsStand totals components) (hperm : components.Perm more) :
    ComponentsStand totals more where
  tax := fun name rate => (h.tax name rate).trans ((hperm.filter _).map _).sum_eq
  entries := fun component hmem => h.entries component (hperm.mem_iff.2 hmem)

theorem add (h : ComponentsStand totals components) (component : TaxComponentLine) :
    ComponentsStand
      (addComponentTotal .exact component.name.text component.rateBasisPoints
        component.tax.minor totals)
      ((component.name.text, component.rateBasisPoints, component.tax.minor) :: components) where
  tax := fun name rate => by
    rw [componentTax_addComponentTotal, componentCharged_cons, h.tax]
  entries := by
    intro recorded hmem
    rw [hasComponent_addComponentTotal]
    rcases mem_cons.1 hmem with rfl | hmem
    · exact .inl ⟨rfl, rfl⟩
    · exact .inr (h.entries recorded hmem)

/-- What a settled bill records is put to the totals. -/
theorem foldTaxComponents (h : ComponentsStand totals components) (lines : List TaxComponentLine) :
    ComponentsStand (foldTaxComponents .exact totals lines)
      (lines.map (fun component =>
        (component.name.text, component.rateBasisPoints, component.tax.minor)) ++ components) := by
  induction lines generalizing totals components with
  | nil => exact h
  | cons line rest ih =>
    refine (ih (h.add line)).perm ?_
    exact perm_middle

theorem takeBackComponent {component : String × Nat × Int}
    (h : ComponentsStand totals (component :: components)) :
    ComponentsStand (takeBackComponent .exact component totals) components where
  tax := fun name rate => by
    rw [componentTax_takeBackComponent component name rate (h.entries component mem_cons_self),
      h.tax, componentCharged_cons]
    ring
  entries := fun recorded hmem =>
    (hasComponent_takeBackComponent component _ _).2 (h.entries recorded (mem_cons_of_mem _ hmem))

theorem takeBack (h : ComponentsStand totals (more ++ components)) :
    ComponentsStand (more.foldl (fun totals component =>
      PosFramework.takeBackComponent .exact component totals) totals) components := by
  induction more generalizing totals with
  | nil => exact h
  | cons component rest ih => exact ih h.takeBackComponent

end ComponentsStand

/-! ## Days -/

/-- The figures that a settled bill adds to its day. -/
inductive RevenueFigure
  | bills
  | gross
  | reductions
  | serviceCharge
  | tax
  | net
  | feeAmount (code : String)
  | feeTax (code : String)
  | feeBills (code : String)
  | componentTax (name : String) (rateBasisPoints : Nat)

/-- A figure of a day; what has no entry is zero. -/
def DailyRevenue.figure (day : DailyRevenue) : RevenueFigure → Int
  | .bills => day.bills
  | .gross => day.gross
  | .reductions => day.reductions
  | .serviceCharge => day.serviceCharge
  | .tax => day.tax
  | .net => day.net
  | .feeAmount code => worth (·.amount) day.byFee code
  | .feeTax code => worth (·.tax) day.byFee code
  | .feeBills code => worth (·.bills) day.byFee code
  | .componentTax name rate => PosFramework.componentTax day.byTaxComponent name rate

/-- The figures of a day are those of the bills that stand on it. -/
structure DayStands (day : DailyRevenue) (standing : List KeptBill) : Prop where
  bills : day.bills = standing.length
  gross : day.gross = (standing.map (·.subtotal)).sum
  reductions : day.reductions = (standing.map (·.reductions)).sum
  serviceCharge : day.serviceCharge = (standing.map (·.serviceCharge)).sum
  tax : day.tax = (standing.map (·.tax)).sum
  net : day.net = (standing.map (·.totalDue)).sum
  fees : FeesStand day.byFee (standing.flatMap (·.fees))
  components : ComponentsStand day.byTaxComponent (standing.flatMap (·.components))

namespace DayStands

variable {day another : DailyRevenue} {bills more : List KeptBill}

theorem empty (date : BusinessDate) : DayStands (emptyRevenue date) [] where
  bills := rfl
  gross := rfl
  reductions := rfl
  serviceCharge := rfl
  tax := rfl
  net := rfl
  fees := by constructor <;> intro code <;> simp [emptyRevenue, worth, charged]
  components := ⟨fun _ _ => rfl, fun _ h => by cases h⟩

theorem perm (h : DayStands day bills) (hperm : bills.Perm more) : DayStands day more where
  bills := h.bills.trans (congrArg Nat.cast hperm.length_eq)
  gross := h.gross.trans (hperm.map _).sum_eq
  reductions := h.reductions.trans (hperm.map _).sum_eq
  serviceCharge := h.serviceCharge.trans (hperm.map _).sum_eq
  tax := h.tax.trans (hperm.map _).sum_eq
  net := h.net.trans (hperm.map _).sum_eq
  fees := h.fees.perm (hperm.flatMap_right _)
  components := h.components.perm (hperm.flatMap_right _)

/-- The bills that stand on a day tell every figure of it. -/
theorem figure_eq (h : DayStands day bills) (h' : DayStands another bills)
    (figure : RevenueFigure) :
    day.figure figure = another.figure figure := by
  cases figure with
  | bills => exact h.bills.trans h'.bills.symm
  | gross => exact h.gross.trans h'.gross.symm
  | reductions => exact h.reductions.trans h'.reductions.symm
  | serviceCharge => exact h.serviceCharge.trans h'.serviceCharge.symm
  | tax => exact h.tax.trans h'.tax.symm
  | net => exact h.net.trans h'.net.symm
  | feeAmount code => exact (h.fees.amount code).trans (h'.fees.amount code).symm
  | feeTax code => exact (h.fees.tax code).trans (h'.fees.tax code).symm
  | feeBills code => exact (h.fees.bills code).trans (h'.fees.bills code).symm
  | componentTax name rate =>
    exact (h.components.tax name rate).trans (h'.components.tax name rate).symm

theorem settle (h : DayStands day bills) (bill : BillingBillSettled) (cash : Int) :
    DayStands (day.settle .exact bill) (keptBill .exact bill cash :: bills) where
  bills := by simp [DailyRevenue.settle, exact, h.bills]
  gross := by simp [DailyRevenue.settle, exact, keptBill, h.gross, add_comm]
  reductions := by simp [DailyRevenue.settle, exact, keptBill, h.reductions, add_comm]
  serviceCharge := by simp [DailyRevenue.settle, exact, keptBill, h.serviceCharge, add_comm]
  tax := by simp [DailyRevenue.settle, exact, keptBill, h.tax, add_comm]
  net := by simp [DailyRevenue.settle, exact, keptBill, h.net, add_comm]
  fees := h.fees.foldFees bill
  components := h.components.foldTaxComponents bill.components

theorem takeBack {bill : KeptBill} (h : DayStands day (bill :: bills)) :
    DayStands (day.takeBack .exact bill) bills where
  bills := by simp [DailyRevenue.takeBack, exact, h.bills]
  gross := by simp [DailyRevenue.takeBack, exact, h.gross]
  reductions := by simp [DailyRevenue.takeBack, exact, h.reductions]
  serviceCharge := by simp [DailyRevenue.takeBack, exact, h.serviceCharge]
  tax := by simp [DailyRevenue.takeBack, exact, h.tax]
  net := by simp [DailyRevenue.takeBack, exact, h.net]
  fees := h.fees.takeBack
  components := h.components.takeBack

end DayStands

end PosFramework
