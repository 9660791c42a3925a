import PosFramework.Core.Billing.Regroup.Proofs
import PosFramework.Edge.Regroup.Reductions
import PosFramework.Edge.WellFormed.Run

set_option autoImplicit false

/-! # How a split shares what was taken off

The parts of a split share their source's discount and comp by what their sold lines come to, each
share rounded down and the rest on the last part that owes anything. The two are shared one at a
time, so the last part that owes anything may take more than its lines come to. -/

namespace PosFramework

open Fallible Projection ReductionKind List Apportion BillRecord BoundedInt Edge

/-! ## What lines come to -/

namespace Projection

/-- What the sold lines of a bill come to. -/
def soldTotal (P : Projection) (bill : BillRecord) : Int :=
  ((soldLines (P.snapshotLines bill)).map (·.lineTotal.minor)).sum

def soldTotalOf (P : Projection) (billId : BillId) : Int :=
  ((P.bill billId).map P.soldTotal).getD 0

/-- What the sold ones of an order's lines come to, among those named. -/
def partTotal (P : Projection) (orderId : OrderId) (part : List OrderLineId) : Int :=
  (((P.identifiedLinesForOrder orderId).filter fun entry =>
    decide (entry.1 ∈ part) && entry.2.isSold).map (·.2.lineTotal.minor)).sum

variable {P P' : Projection}

theorem identifiedLinesForOrder_congr (hlines : P'.lines = P.lines)
    (hindex : P'.orderLines = P.orderLines) (orderId : OrderId) :
    P'.identifiedLinesForOrder orderId = P.identifiedLinesForOrder orderId := by
  simp only [identifiedLinesForOrder, lineIdsForOrder, line, hlines, hindex]

theorem partTotal_congr (hlines : P'.lines = P.lines) (hindex : P'.orderLines = P.orderLines)
    (orderId : OrderId) (part : List OrderLineId) :
    P'.partTotal orderId part = P.partTotal orderId part := by
  rw [partTotal, partTotal, identifiedLinesForOrder_congr hlines hindex]

theorem soldTotal_eq_partTotal {bill : BillRecord} (hnamed : bill.orderLineIds ≠ []) :
    P.soldTotal bill = P.partTotal bill.orderId bill.orderLineIds := by
  rw [soldTotal, partTotal, snapshotLines, if_neg hnamed, soldLines, filter_map,
    filter_filter, map_map]
  simp only [Function.comp_def, Bool.and_comm]

variable {orderId : OrderId} {kind : ReductionKind} {record : BillRecord} {parts : List BillId}
  {source : BillId}

theorem partTotal_perm {part part' : List OrderLineId} (h : part.Perm part') :
    P.partTotal orderId part = P.partTotal orderId part' := by
  simp only [partTotal, h.mem_iff]

theorem partTotal_append {part part' : List OrderLineId} (hdisjoint : part.Disjoint part') :
    P.partTotal orderId (part ++ part') = P.partTotal orderId part + P.partTotal orderId part' := by
  unfold partTotal
  generalize P.identifiedLinesForOrder orderId = entries
  induction entries with
  | nil => rfl
  | cons entry entries ih =>
    have hboth : ¬ (entry.1 ∈ part ∧ entry.1 ∈ part') := fun h => hdisjoint h.1 h.2
    by_cases hsold : entry.2.isSold = true <;> by_cases hpart : entry.1 ∈ part <;>
      by_cases hpart' : entry.1 ∈ part' <;>
      simp_all [add_assoc, add_left_comm]

/-- The parts of a partition come to what its lines come to. -/
theorem sum_partTotal {parts : List (List OrderLineId)} (hnodup : parts.flatten.Nodup) :
    (parts.map (P.partTotal orderId)).sum = P.partTotal orderId parts.flatten := by
  induction parts with
  | nil =>
    rw [flatten_nil, partTotal]
    simp
  | cons part parts ih =>
    rw [flatten_cons] at hnodup ⊢
    obtain ⟨_, hrest, hdisjoint⟩ := nodup_append'.1 hnodup
    rw [map_cons, sum_cons, ih hrest, partTotal_append hdisjoint]

/-! ## The parts take their shares -/

theorem takeShare_reducedAt {entry : BillId × Money} (hbill : P.bill entry.1 = some record)
    (h : takeShare kind P entry = .ok P') :
    P.ReducedAt P' entry.1 record (kind.onDiscount entry.2.minor) (kind.onComp entry.2.minor) := by
  unfold takeShare at h
  split at h
  · next hzero =>
    cases h
    rw [Money.isZero_iff.1 hzero, onDiscount, onComp, ite_self, ite_self]
    exact .refl hbill
  · exact addReduction_reducedAt hbill h

/-- A bill that had more taken off, and the others. -/
theorem ReducedAt.reads {billId : BillId} {d c : Int} (hbill : P.bill billId = some record)
    (h : P.ReducedAt P' billId record d c) :
    P'.discountOf billId = P.discountOf billId + d ∧ P'.compOf billId = P.compOf billId + c ∧
      (P'.bill billId).isSome ∧ ∀ other, billId ≠ other → P'.bill other = P.bill other := by
  obtain ⟨record', rfl, hreduced⟩ := h
  refine ⟨?_, ?_, ?_, fun other hne => ?_⟩
  · rw [discountOf, discountOf, bill_insert, if_pos rfl, hbill]
    exact hreduced.discount
  · rw [compOf, compOf, bill_insert, if_pos rfl, hbill]
    exact hreduced.comp
  · rw [bill_insert, if_pos rfl]
    rfl
  · rw [bill_insert, if_neg hne]

/-- Distinct bills take their shares, and the others stay as they are. -/
theorem takeShares_ok {entries : List (BillId × Money)} (hnodup : (entries.map (·.1)).Nodup)
    (hknown : ∀ entry ∈ entries, (P.bill entry.1).isSome)
    (h : entries.foldlM (takeShare kind) P = .ok P') :
    (∀ entry ∈ entries,
      P'.discountOf entry.1 = P.discountOf entry.1 + kind.onDiscount entry.2.minor ∧
        P'.compOf entry.1 = P.compOf entry.1 + kind.onComp entry.2.minor) ∧
      ∀ other ∉ entries.map (·.1), P'.bill other = P.bill other := by
  induction entries generalizing P with
  | nil =>
    cases h
    exact ⟨fun entry hentry => absurd hentry not_mem_nil, fun _ _ => rfl⟩
  | cons first rest ih =>
    simp only [foldlM_cons, bind_eq_ok] at h
    obtain ⟨Q, hfirst, hrest⟩ := h
    obtain ⟨hfirstNew, hrestNodup⟩ := nodup_cons.1 hnodup
    obtain ⟨record, hrecord⟩ := Option.isSome_iff_exists.1 (hknown first mem_cons_self)
    obtain ⟨hdiscount, hcomp, _, hothers⟩ := (takeShare_reducedAt hrecord hfirst).reads hrecord
    have hapart : ∀ entry ∈ rest, first.1 ≠ entry.1 := fun entry hentry heq =>
      hfirstNew (mem_map.2 ⟨entry, hentry, heq.symm⟩)
    obtain ⟨hshares, hsame⟩ := ih hrestNodup (fun entry hentry => by
      rw [hothers _ (hapart entry hentry)]
      exact hknown entry (mem_cons_of_mem _ hentry)) hrest
    refine ⟨fun entry hentry => ?_, fun other hother => ?_⟩
    · rcases mem_cons.1 hentry with rfl | hentry
      · have hfix := hsame _ hfirstNew
        rw [discountOf_congr hfix, compOf_congr hfix]
        exact ⟨hdiscount, hcomp⟩
      · have hfix := hothers _ (hapart entry hentry)
        rw [← discountOf_congr hfix, ← compOf_congr hfix]
        exact hshares entry hentry
    · rw [hsame other (not_mem_of_not_mem_cons hother),
        hothers other (Ne.symm (ne_of_not_mem_cons hother))]

/-- What a part of a split takes of an amount: its share among the parts up to the last that owes
    anything. -/
def shareAt (amount : Int) (totals : List Int) (i : Nat) : Int :=
  if trim totals = [] then 0
  else (shares amount (trim totals)).getD i 0

theorem shareAt_zero (totals : List Int) (i : Nat) : shareAt 0 totals i = 0 := by
  unfold shareAt
  split
  · rfl
  · next hne =>
      rw [shares_zero hne, getD_eq_getElem?_getD,
        getElem?_getD_replicate_default_eq]

theorem map_fst_zip_sublist {α β : Type} (xs : List α) (ys : List β) :
    ((xs.zip ys).map (·.1)).Sublist xs := by
  induction xs generalizing ys with
  | nil => exact .refl _
  | cons x xs ih =>
    cases ys with
    | nil => exact nil_sublist _
    | cons y ys => exact (ih ys).cons_cons x

theorem shareReduction_ok {weights : List I64} {totals : List Int} {held : Option Money}
    (hnodup : parts.Nodup) (hknown : ∀ part ∈ parts, (P.bill part).isSome)
    (hweights : weights.map val = trim totals)
    (h : P.shareReduction parts weights kind held = .ok P') :
    (∀ (i : Nat) (part : BillId), parts[i]? = some part →
      P'.discountOf part = P.discountOf part + kind.onDiscount (shareAt (takenOff held) totals i) ∧
        P'.compOf part = P.compOf part + kind.onComp (shareAt (takenOff held) totals i)) ∧
      ∀ other ∉ parts, P'.bill other = P.bill other := by
  cases held with
  | none =>
    cases h
    refine ⟨fun i part _ => ?_, fun _ _ => rfl⟩
    rw [show takenOff none = 0 from rfl, shareAt_zero, onDiscount,
      onComp, ite_self, ite_self, Int.add_zero, Int.add_zero]
    exact ⟨rfl, rfl⟩
  | some amount =>
    simp only [shareReduction, bind_eq_ok, liftMoney_eq_ok] at h
    obtain ⟨shares, hshares, hfold⟩ := h
    obtain ⟨hne, _, _, hminor, _⟩ := Money.allocate_eq_ok hshares
    rw [hweights] at hminor
    have htrim : trim totals ≠ [] := by
      rw [← hweights]
      simpa using hne
    have hkeys := map_fst_zip_sublist parts shares
    obtain ⟨htaken, hsame⟩ := takeShares_ok (hkeys.nodup hnodup)
      (fun entry hentry => hknown _ (of_mem_zip hentry).1) hfold
    refine ⟨fun i part hpart => ?_, fun other hother =>
      hsame other fun hmem => hother (hkeys.subset hmem)⟩
    rw [shareAt, if_neg htrim, show takenOff (some amount) = amount.minor from rfl, ← hminor]
    cases hshare : shares[i]? with
    | some share =>
      have hmem : (part, share) ∈ parts.zip shares :=
        mem_of_getElem? (getElem?_zip_eq_some.2 ⟨hpart, hshare⟩)
      rw [getD_eq_getElem?_getD, getElem?_map, hshare]
      exact htaken _ hmem
    | none =>
      -- the part stands past the last share, and it stands there only
      have hlast : part ∉ (parts.zip shares).map (·.1) := by
        intro hmem
        obtain ⟨⟨_, share⟩, hentry, rfl⟩ := mem_map.1 hmem
        obtain ⟨j, hj⟩ := mem_iff_getElem?.1 hentry
        obtain ⟨hj, hjshare⟩ := getElem?_zip_eq_some.1 hj
        have hlt : i < parts.length := (List.getElem?_eq_some_iff.1 hpart).1
        obtain rfl := (getElem?_inj hlt hnodup).1 (hpart.trans hj.symm)
        rw [hshare] at hjshare
        contradiction
      rw [getD_eq_getElem?_getD, getElem?_map, hshare]
      simp only [Option.map_none, Option.getD_none, onDiscount,
        onComp, ite_self, Int.add_zero]
      exact ⟨discountOf_congr (hsame _ hlast), compOf_congr (hsame _ hlast)⟩

theorem SameFaces.isSome_eq (h : P.SameFaces P') (billId : BillId) :
    (P'.bill billId).isSome = (P.bill billId).isSome := by
  have hmap := congrArg Option.isSome (h.read_eq face (fun _ => rfl) billId)
  rwa [Option.isSome_map, Option.isSome_map] at hmap

/-- The lines a bill names. -/
def namedLines (P : Projection) (billId : BillId) : List OrderLineId :=
  ((P.bill billId).map (·.orderLineIds)).getD []

/-- A part weighs what its sold lines come to, where none of them is below zero. -/
theorem partWeight_ok {part : BillId} {weight : I64}
    (hnonneg : ∀ entry ∈ P.identifiedLinesForOrder orderId, entry.1 ∈ P.namedLines part →
      entry.2.isSold = true → 0 ≤ entry.2.lineTotal.minor)
    (h : P.partWeight (P.identifiedLinesForOrder orderId) part = .ok weight) :
    weight.val = P.partTotal orderId (P.namedLines part) := by
  simp only [partWeight, liftMoney_eq_ok] at h
  rw [sumWeights_eq_ok h, partTotal, map_map]
  refine congrArg sum (map_congr_left fun entry hentry => ?_)
  obtain ⟨hmem, hsold⟩ := mem_filter.1 hentry
  obtain ⟨hnamed, hsold⟩ := Bool.and_eq_true_iff.1 hsold
  have hminor := hnonneg entry hmem (of_decide_eq_true hnamed) hsold
  show entry.2.lineTotal.weight.val = _
  rw [Money.weight, if_neg (not_lt.2 hminor)]
  rfl

/-- The parts share their source's discount and its comp. -/
theorem inheritReductions_ok {bill : BillRecord}
    (hbill : P.bill source = some bill) (hnodup : parts.Nodup)
    (hknown : ∀ part ∈ parts, (P.bill part).isSome)
    (hnonneg : ∀ part ∈ parts, ∀ entry ∈ P.identifiedLinesForOrder bill.orderId,
      entry.1 ∈ P.namedLines part → entry.2.isSold = true → 0 ≤ entry.2.lineTotal.minor)
    (h : P.inheritReductions source parts = .ok P') (i : Nat) (part : BillId)
    (hpart : parts[i]? = some part) :
    P'.discountOf part = P.discountOf part + shareAt bill.discountMinor
        (parts.map fun part => P.partTotal bill.orderId (P.namedLines part)) i ∧
      P'.compOf part = P.compOf part + shareAt bill.compMinor
        (parts.map fun part => P.partTotal bill.orderId (P.namedLines part)) i := by
  simp only [inheritReductions, hbill] at h
  split at h
  · next hnone =>
    cases h
    rw [discountMinor, compMinor, hnone.1, hnone.2,
      show takenOff none = 0 from rfl, shareAt_zero, Int.add_zero, Int.add_zero]
    exact ⟨rfl, rfl⟩
  · simp only [bind_eq_ok] at h
    obtain ⟨weights, hweights, h⟩ := h
    have htotals : weights.map val =
        parts.map fun part => P.partTotal bill.orderId (P.namedLines part) :=
      map_eq_of_mapM _ _ hweights fun part hmem weight hweight =>
        partWeight_ok (hnonneg part hmem) hweight
    have htrim : (trimWeights weights).map val =
        trim (parts.map fun part => P.partTotal bill.orderId (P.namedLines part)) := by
      rw [← htotals]
      exact map_rdropWhile_eq_trim _ _
    split at h
    · next hempty =>
      rw [pure_eq_ok] at h
      subst h
      rw [hempty, map_nil] at htrim
      rw [shareAt, shareAt, if_pos htrim.symm, if_pos htrim.symm, Int.add_zero, Int.add_zero]
      exact ⟨rfl, rfl⟩
    · rw [bind_eq_ok] at h
      obtain ⟨discounted, hdiscounted, hcomped⟩ := h
      have hsame := sameFaces_shareReduction hdiscounted
      obtain ⟨hd, hdc⟩ := (shareReduction_ok hnodup hknown htrim hdiscounted).1 i part hpart
      obtain ⟨hcd, hc⟩ := (shareReduction_ok hnodup
        (fun part hmem => by rw [hsame.isSome_eq]; exact hknown part hmem) htrim hcomped).1 i part
        hpart
      simp only [onDiscount, onComp, reduceCtorEq, if_true, if_false,
        Int.add_zero] at hd hdc hcd hc
      exact ⟨hcd.trans hd, by rw [hc, hdc]; rfl⟩

/-! ## The parts open -/

theorem bill_openBillRecord {billId other : BillId} :
    (P.openBillRecord billId record).bill other =
      if billId = other then some record else P.bill other :=
  Keyed.get_insert ..

/-- Bills that open one after another, under ids of their own. -/
theorem openings_ok {tableId : Option TableId} {openings : List BillingBillOpened}
    (hnodup : (openings.map (·.billId)).Nodup) :
    let Q := openings.foldl
      (fun P opening => P.openBillRecord opening.billId (.opened opening tableId)) P
    Q.lines = P.lines ∧ Q.orderLines = P.orderLines ∧
      (∀ opening ∈ openings, Q.bill opening.billId = some (.opened opening tableId)) ∧
      ∀ other ∉ openings.map (·.billId), Q.bill other = P.bill other := by
  induction openings generalizing P with
  | nil =>
    exact ⟨rfl, rfl, fun opening h => absurd h not_mem_nil, fun _ _ => rfl⟩
  | cons first rest ih =>
    obtain ⟨hfirst, hrest⟩ := nodup_cons.1 hnodup
    obtain ⟨hlines, hindex, hopened, hothers⟩ :=
      ih (P := P.openBillRecord first.billId (.opened first tableId)) hrest
    refine ⟨hlines, hindex, fun opening hopening => ?_, fun other hother => ?_⟩
    · rcases mem_cons.1 hopening with rfl | hopening
      · exact (hothers _ hfirst).trans (bill_openBillRecord.trans (if_pos rfl))
      · exact hopened opening hopening
    · exact (hothers other (not_mem_of_not_mem_cons hother)).trans
        (bill_openBillRecord.trans (if_neg (Ne.symm (ne_of_not_mem_cons hother))))

/-- Fees that parts take leave what was taken off every bill, and the other bills, as they are. -/
theorem inheritFees_ok :
    let Q := P.inheritFees source parts
    (∀ billId, Q.discountOf billId = P.discountOf billId ∧ Q.compOf billId = P.compOf billId) ∧
      ∀ other ∉ parts, Q.bill other = P.bill other := by
  unfold inheritFees
  cases P.bill source with
  | none => exact ⟨fun _ => ⟨rfl, rfl⟩, fun _ _ => rfl⟩
  | some bill =>
    induction parts generalizing P with
    | nil => exact ⟨fun _ => ⟨rfl, rfl⟩, fun _ _ => rfl⟩
    | cons part parts ih =>
      obtain ⟨hreductions, hothers⟩ := ih (P := P.updateBill part fun record =>
        { record with feeWholes := bill.feeWholes, waivedFeeIds := bill.waivedFeeIds })
      refine ⟨fun billId => ?_, fun other hother => ?_⟩
      · obtain ⟨hd, hc⟩ := hreductions billId
        refine ⟨hd.trans ?_, hc.trans ?_⟩
        · rw [discountOf, discountOf, bill_updateBill]
          split
          · next heq =>
            rw [heq, Option.map_map]
            rfl
          · rfl
        · rw [compOf, compOf, bill_updateBill]
          split
          · next heq =>
            rw [heq, Option.map_map]
            rfl
          · rfl
      · exact (hothers other (not_mem_of_not_mem_cons hother)).trans
          (bill_updateBill.trans (if_neg (Ne.symm (ne_of_not_mem_cons hother))))

end Projection

/-! ## What the shares come to -/

theorem sum_map_getD_range {xs : List Int} {n : Nat} (h : xs.length ≤ n) :
    ((range n).map fun i => xs.getD i 0).sum = xs.sum := by
  induction xs generalizing n with
  | nil => simp
  | cons x xs ih =>
    cases n with
    | zero => exact absurd h (by simp)
    | succ n =>
      rw [range_succ_eq_map, map_cons, map_map, sum_cons, sum_cons,
        ← ih (Nat.le_of_succ_le_succ h)]
      rfl

section

variable {d c : Int} {totals : List Int}

open Projection Apportion

/-- Shares come to the whole amount, unless there is nothing to take it off. -/
theorem sum_shareAt (hne : trim totals ≠ []) (amount : Int) :
    ((range totals.length).map (shareAt amount totals)).sum = amount := by
  have hlen : (shares amount (trim totals)).length ≤ totals.length := by
    rw [length_shares amount hne]
    exact length_trim_le totals
  calc ((range totals.length).map (shareAt amount totals)).sum
      = ((range totals.length).map fun i => (shares amount (trim totals)).getD i 0).sum := by
        refine congrArg sum (map_congr_left fun i _ => ?_)
        rw [shareAt, if_neg hne]
    _ = (shares amount (trim totals)).sum := sum_map_getD_range hlen
    _ = amount := sum_shares amount _

theorem shareAt_nonneg (htotals : ∀ total ∈ totals, 0 ≤ total) (hne : trim totals ≠ [])
    {amount : Int} (hamount : 0 ≤ amount) (i : Nat) : 0 ≤ shareAt amount totals i := by
  have hnonneg : ∀ total ∈ trim totals, 0 ≤ total :=
    fun total h => htotals total (mem_of_mem_trim h)
  have hpos : 0 < (trim totals).sum := by
    have hlast := getLast_trim_ne_zero hne
    have hlastNonneg := hnonneg _ (getLast_mem hne)
    rw [← sum_dropLast_add_getLast hne]
    have hrest : 0 ≤ (trim totals).dropLast.sum :=
      sum_nonneg fun total h => hnonneg total (mem_of_mem_dropLast h)
    omega
  rw [shareAt, if_neg hne]
  rcases Nat.lt_or_ge i (shares amount (trim totals)).length with hi | hi
  · rw [getD_eq_getElem _ _ hi]
    exact shares_nonneg hamount hpos hnonneg _ (getElem_mem hi)
  · rw [getD_eq_default _ _ hi]

theorem shareAt_within_iff (htotals : ∀ total ∈ totals, 0 ≤ total) (hne : trim totals ≠ [])
    (hd : 0 ≤ d) (hc : 0 ≤ c) (hwithin : d + c ≤ totals.sum) :
    (∀ i < totals.length, shareAt d totals i + shareAt c totals i ≤ totals.getD i 0) ↔
      ResidualFits d c (trim totals) := by
  rw [← pairFits_iff hne (fun total h => htotals total (mem_of_mem_trim h)) hd hc
    (by rwa [sum_trim])]
  simp only [PairFits, shareAt, if_neg hne, getD_trim]
  refine ⟨fun h i => ?_, fun h i _ => h i⟩
  rcases Nat.lt_or_ge i totals.length with hi | hi
  · exact h i hi
  · have hle := (length_trim_le totals).trans hi
    rw [getD_shares_of_le d hne hle, getD_shares_of_le c hne hle, getD_eq_default _ _ hi]
    rfl

/-- The parts' shares of a discount and of a comp that are within the lines come to the whole of
    them, none is below zero and no part takes more than its lines, exactly where neither is below
    zero and what rounding the other parts down leaves over fits in the last part that owes
    anything. -/
theorem shareAt_iff (htotals : ∀ total ∈ totals, 0 ≤ total) (hwithin : d + c ≤ totals.sum) :
    (((range totals.length).map (shareAt d totals)).sum = d ∧
        ((range totals.length).map (shareAt c totals)).sum = c ∧
        (∀ i < totals.length, 0 ≤ shareAt d totals i ∧ 0 ≤ shareAt c totals i) ∧
        ∀ i < totals.length, shareAt d totals i + shareAt c totals i ≤ totals.getD i 0) ↔
      0 ≤ d ∧ 0 ≤ c ∧ ResidualFits d c (trim totals) := by
  by_cases hempty : trim totals = []
  · have hzero : totals.sum = 0 := by rw [← sum_trim, hempty]; rfl
    have hshare : ∀ amount i, shareAt amount totals i = 0 := fun amount i => if_pos hempty
    have hsum : ∀ amount, ((range totals.length).map (shareAt amount totals)).sum = 0 := by
      intro amount
      rw [map_congr_left fun i _ => hshare amount i]
      simp
    constructor
    · rintro ⟨hd, hc, _, _⟩
      rw [hsum] at hd hc
      subst hd hc
      refine ⟨le_refl _, le_refl _, ?_⟩
      rw [hempty]
      decide
    · rintro ⟨hd, hc, _⟩
      obtain rfl : d = 0 := by omega
      obtain rfl : c = 0 := by omega
      refine ⟨hsum 0, hsum 0, fun i _ => ?_, fun i hi => ?_⟩
      · rw [hshare]
        exact ⟨le_refl _, le_refl _⟩
      · rw [hshare, getD_eq_getElem _ _ hi]
        exact htotals _ (getElem_mem hi)
  · constructor
    · rintro ⟨hd, hc, hnonneg, hfit⟩
      have hdpos : 0 ≤ d := by
        rw [← hd]
        refine sum_nonneg fun share hshare => ?_
        obtain ⟨i, hi, rfl⟩ := mem_map.1 hshare
        exact (hnonneg i (mem_range.1 hi)).1
      have hcpos : 0 ≤ c := by
        rw [← hc]
        refine sum_nonneg fun share hshare => ?_
        obtain ⟨i, hi, rfl⟩ := mem_map.1 hshare
        exact (hnonneg i (mem_range.1 hi)).2
      exact ⟨hdpos, hcpos, (shareAt_within_iff htotals hempty hdpos hcpos hwithin).1 hfit⟩
    · rintro ⟨hd, hc, hfits⟩
      exact ⟨sum_shareAt hempty d, sum_shareAt hempty c,
        fun i _ => ⟨shareAt_nonneg htotals hempty hd i, shareAt_nonneg htotals hempty hc i⟩,
        (shareAt_within_iff htotals hempty hd hc hwithin).2 hfits⟩

end

/-! ## The split -/

/-- The bills a split opens. -/
def partIds (ids : Nat → Nat) (parts : List (List OrderLineId)) : List BillId :=
  (range parts.length).map fun i => ⟨ids i⟩

/-- What the parts of a split took of their source: all of its discount and comp, nothing below zero
    and no part more than its own lines come to. -/
structure Projection.SplitShares (P : Projection) (source : BillRecord) (parts : List BillId) :
    Prop where
  discount : (parts.map P.discountOf).sum = source.discountMinor
  comp : (parts.map P.compOf).sum = source.compMinor
  nonneg : ∀ part ∈ parts, 0 ≤ P.discountOf part ∧ 0 ≤ P.compOf part
  within : ∀ part ∈ parts, P.discountOf part + P.compOf part ≤ P.soldTotalOf part

namespace Projection

variable {P P' : Projection}

theorem namedLines_of_charge {billId : BillId} {charge : Charge}
    (h : (P.bill billId).map BillRecord.charge = some charge) :
    P.namedLines billId = charge.lines := by
  obtain ⟨record, hrecord, rfl⟩ := Option.map_eq_some_iff.1 h
  rw [namedLines, hrecord]
  rfl

theorem SameFaces.charge_eq (h : P.SameFaces P') (billId : BillId) :
    (P'.bill billId).map BillRecord.charge = (P.bill billId).map BillRecord.charge :=
  h.read_eq BillRecord.charge (fun _ => rfl) billId

theorem SameFaces.lines_eq (h : P.SameFaces P') :
    P'.lines = P.lines ∧ P'.orderLines = P.orderLines := by
  obtain ⟨_, rfl, _⟩ := h
  exact ⟨rfl, rfl⟩

end Projection

variable {ids : Nat → Nat} {plan : Plan} {env : Env}

/-- The parts of a split that opens them and shares its source's reductions out. -/
theorem splitBill_shares {P P' : Projection} {billId : BillId}
    {parts : List (List OrderLineId)} {bill : BillRecord} {openings : List BillingBillOpened}
    (hsplit : SplitPlan ids P billId parts bill openings)
    (hsold : ∀ part ∈ parts, ∀ entry ∈ P.identifiedLinesForOrder bill.orderId, entry.1 ∈ part →
      entry.2.isSold = true → 0 ≤ entry.2.lineTotal.minor)
    (happly : Env.applySplit P billId bill.tableId openings .split = .ok P') (i : Nat)
    (part : List OrderLineId) (hpart : parts[i]? = some part) :
    P'.discountOf ⟨ids i⟩ =
        shareAt bill.discountMinor (parts.map (P.partTotal bill.orderId)) i ∧
      P'.compOf ⟨ids i⟩ =
        shareAt bill.compMinor (parts.map (P.partTotal bill.orderId)) i ∧
      P'.soldTotalOf ⟨ids i⟩ = P.partTotal bill.orderId part := by
  simp only [Env.applySplit, bind_eq_ok, pure_eq_ok] at happly
  obtain ⟨reduced, hreduced, rfl⟩ := happly
  -- the parts open, with nothing taken off
  let O := openings.foldl
    (fun P opening => P.openBillRecord opening.billId (.opened opening bill.tableId)) P
  obtain ⟨hOlines, hOindex, hOopened, hOothers⟩ :
      O.lines = P.lines ∧ O.orderLines = P.orderLines ∧
        (∀ opening ∈ openings, O.bill opening.billId = some (.opened opening bill.tableId)) ∧
        ∀ other ∉ openings.map (·.billId), O.bill other = P.bill other :=
    openings_ok hsplit.nodup
  have hsource : billId ∉ openings.map (·.billId) := by
    intro hmem
    obtain ⟨opening, hopening, heq⟩ := mem_map.1 hmem
    have hnew := hsplit.new opening hopening
    rw [heq, hsplit.source] at hnew
    contradiction
  -- they take the fees
  let Q := O.inheritFees billId (openings.map (·.billId))
  obtain ⟨hQreductions, hQothers⟩ :
      (∀ billId, Q.discountOf billId = O.discountOf billId ∧ Q.compOf billId = O.compOf billId) ∧
        ∀ other ∉ openings.map (·.billId), Q.bill other = O.bill other :=
    inheritFees_ok
  have hOQ : O.SameFaces Q := sameFaces_inheritFees
  have hQbill : Q.bill billId = some bill := by
    rw [hQothers _ hsource, hOothers _ hsource, hsplit.source]
  have hQcharge : ∀ opening ∈ openings,
      (Q.bill opening.billId).map BillRecord.charge = some opening.charge := by
    intro opening hopening
    rw [hOQ.charge_eq, hOopened opening hopening]
    rfl
  have hQlines : Q.lines = P.lines := hOQ.lines_eq.1.trans hOlines
  have hQindex : Q.orderLines = P.orderLines := hOQ.lines_eq.2.trans hOindex
  have hQtotals : (openings.map (·.billId)).map
      (fun part => Q.partTotal bill.orderId (Q.namedLines part)) =
        parts.map (P.partTotal bill.orderId) := by
    rw [← hsplit.lines, map_map, map_map]
    refine map_congr_left fun opening hopening => ?_
    show Q.partTotal bill.orderId (Q.namedLines opening.billId) = _
    rw [namedLines_of_charge (hQcharge opening hopening),
      partTotal_congr hQlines hQindex]
    rfl
  -- the part at hand
  obtain ⟨opening, hopening, rfl⟩ : ∃ opening, openings[i]? = some opening ∧
      opening.orderLineIds = part := by
    rw [← hsplit.lines, getElem?_map] at hpart
    exact Option.map_eq_some_iff.1 hpart
  have hmem := mem_of_getElem? hopening
  have hid : opening.billId = ⟨ids i⟩ := by
    have hlt : i < parts.length := (List.getElem?_eq_some_iff.1 hpart).1
    have hget := congrArg (·[i]?) hsplit.ids
    rw [getElem?_map, hopening, getElem?_map, getElem?_range hlt] at hget
    exact Option.some.inj hget
  have hkey : (openings.map (·.billId))[i]? = some opening.billId := by
    rw [getElem?_map, hopening]
    rfl
  -- it takes its share
  obtain ⟨hdiscount, hcomp⟩ := inheritReductions_ok hQbill hsplit.nodup
    (fun part hpart => by
      obtain ⟨opening, hopening, rfl⟩ := mem_map.1 hpart
      rw [hOQ.isSome_eq, hOopened opening hopening]
      rfl)
    (fun part hpart entry hentry hnamed => by
      obtain ⟨opening, hopening, rfl⟩ := mem_map.1 hpart
      rw [namedLines_of_charge (hQcharge opening hopening)] at hnamed
      rw [identifiedLinesForOrder_congr hQlines hQindex] at hentry
      exact hsold _ (hsplit.lines ▸ mem_map_of_mem hopening) entry hentry hnamed)
    hreduced i opening.billId hkey
  rw [hQtotals, (hQreductions _).1] at hdiscount
  rw [hQtotals, (hQreductions _).2] at hcomp
  have hnothing : O.discountOf opening.billId = 0 ∧ O.compOf opening.billId = 0 := by
    rw [discountOf, compOf, hOopened opening hmem]
    exact ⟨rfl, rfl⟩
  -- its source is another bill
  have hreducedSame := sameFaces_inheritReductions hreduced
  have hfinal : (reduced.setBillState billId .split).bill opening.billId =
      reduced.bill opening.billId := by
    rw [bill_setBillState, if_neg]
    rintro heq
    exact hsource (heq ▸ mem_map_of_mem hmem)
  have hfinalLines : (reduced.setBillState billId .split).lines = P.lines ∧
      (reduced.setBillState billId .split).orderLines = P.orderLines := by
    obtain ⟨_, _, heq⟩ : reduced.BillsOnly (reduced.setBillState billId .split) :=
      billsOnly_setBillState
    rw [heq]
    exact ⟨hreducedSame.lines_eq.1.trans hQlines, hreducedSame.lines_eq.2.trans hQindex⟩
  rw [← hid]
  refine ⟨?_, ?_, ?_⟩
  · rw [discountOf_congr hfinal, hdiscount, hnothing.1, Int.zero_add]
  · rw [compOf_congr hfinal, hcomp, hnothing.2, Int.zero_add]
  · obtain ⟨record, hrecord, hcharge⟩ := Option.map_eq_some_iff.1
      ((hreducedSame.charge_eq opening.billId).trans (hQcharge opening hmem))
    have horder : record.orderId = bill.orderId :=
      (congrArg Charge.orderId hcharge).trans (hsplit.order opening hmem)
    have hrecordLines : record.orderLineIds = opening.orderLineIds := congrArg Charge.lines hcharge
    have hnonempty : record.orderLineIds ≠ [] :=
      hrecordLines ▸ hsplit.nonempty _ (mem_of_getElem? hpart)
    rw [soldTotalOf, hfinal, hrecord, Option.map_some, Option.getD_some,
      soldTotal_eq_partTotal hnonempty, horder, hrecordLines,
      partTotal_congr hfinalLines.1 hfinalLines.2]

/-- What an accepted split does: part by part, its share of what was taken off, on its own lines. -/
theorem splitBill_changes {P P' : Projection} {bound bound' : Nat}
    {actor : Actor} {billId : BillId} {parts : List (List OrderLineId)}
    {bill : BillRecord} (hP : P.WellFormed bound) (hids : TakesIds ids bound plan.minted bound')
    (hplan : env.splitBill ids P actor billId parts = .ok plan) (happly : plan.apply P = .ok P')
    (hbill : P.bill billId = some bill)
    (hlines : ∀ line ∈ soldLines (P.snapshotLines bill), 0 ≤ line.lineTotal.minor) :
    (parts.map (P.partTotal bill.orderId)).sum = P.soldTotal bill ∧
      (∀ total ∈ parts.map (P.partTotal bill.orderId), 0 ≤ total) ∧
      ∀ (i : Nat) (part : List OrderLineId), parts[i]? = some part →
        P'.discountOf ⟨ids i⟩ =
            shareAt bill.discountMinor (parts.map (P.partTotal bill.orderId)) i ∧
          P'.compOf ⟨ids i⟩ =
            shareAt bill.compMinor (parts.map (P.partTotal bill.orderId)) i ∧
          P'.soldTotalOf ⟨ids i⟩ = P.partTotal bill.orderId part := by
  obtain ⟨ctx, _, openings, payloads, hsplit, _, rfl⟩ := splitPlan_of_splitBill hP hids hplan
  obtain rfl := Option.some.inj (hbill.symm.trans hsplit.source)
  have hholds := hP.sound.holds billId _ (charge_of_bill hbill) (.inl hsplit.isOpen)
  have hnamed : bill.orderLineIds ≠ [] := hholds.nonempty
  have hsold : ∀ part ∈ parts, ∀ entry ∈ P.identifiedLinesForOrder bill.orderId, entry.1 ∈ part →
      entry.2.isSold = true → 0 ≤ entry.2.lineTotal.minor := by
    intro part hpart entry hentry hmem hsold
    refine hlines entry.2 (mem_filter.2 ⟨?_, hsold⟩)
    have hcovered : entry.1 ∈ bill.orderLineIds :=
      hsplit.dealt.mem_iff.1 (mem_flatten_of_mem hpart hmem)
    rw [snapshotLines, if_neg hnamed]
    exact mem_map_of_mem (mem_filter.2 ⟨hentry, decide_eq_true hcovered⟩)
  refine ⟨?_, ?_, ?_⟩
  · rw [soldTotal_eq_partTotal hnamed, ← partTotal_perm hsplit.dealt]
    exact sum_partTotal (hsplit.dealt.nodup_iff.2 hholds.nodup)
  · intro total htotal
    obtain ⟨part, hpart, rfl⟩ := mem_map.1 htotal
    refine sum_nonneg fun amount hamount => ?_
    obtain ⟨entry, hentry, rfl⟩ := mem_map.1 hamount
    obtain ⟨hentry, hboth⟩ := mem_filter.1 hentry
    obtain ⟨hmem, hentrySold⟩ := Bool.and_eq_true_iff.1 hboth
    exact hsold part hpart entry hentry (of_decide_eq_true hmem) hentrySold
  · exact splitBill_shares hsplit hsold happly

/-- The parts of a split share what was taken off their source, where that is within its lines,
    exactly where neither the discount nor the comp is below zero and what rounding the other parts'
    shares down leaves over fits in the last part that owes anything. -/
theorem splitBill_shares_iff {P P' : Projection} {bound bound' : Nat}
    {actor : Actor} {billId : BillId} {parts : List (List OrderLineId)}
    {bill : BillRecord} (hP : P.WellFormed bound) (hids : TakesIds ids bound plan.minted bound')
    (hplan : env.splitBill ids P actor billId parts = .ok plan) (happly : plan.apply P = .ok P')
    (hbill : P.bill billId = some bill)
    (hlines : ∀ line ∈ soldLines (P.snapshotLines bill), 0 ≤ line.lineTotal.minor)
    (hwithin : bill.discountMinor + bill.compMinor ≤ P.soldTotal bill) :
    P'.SplitShares bill (partIds ids parts) ↔
      0 ≤ bill.discountMinor ∧ 0 ≤ bill.compMinor ∧
        ResidualFits bill.discountMinor bill.compMinor
          (trim (parts.map (P.partTotal bill.orderId))) := by
  obtain ⟨hsum, hnonneg, hshares⟩ := splitBill_changes hP hids hplan happly hbill hlines
  rw [← hsum] at hwithin
  rw [← shareAt_iff hnonneg hwithin, length_map]
  have hat : ∀ i < parts.length,
      P'.discountOf ⟨ids i⟩ =
          shareAt bill.discountMinor (parts.map (P.partTotal bill.orderId)) i ∧
        P'.compOf ⟨ids i⟩ =
          shareAt bill.compMinor (parts.map (P.partTotal bill.orderId)) i ∧
        P'.soldTotalOf ⟨ids i⟩ = (parts.map (P.partTotal bill.orderId)).getD i 0 := by
    intro i hi
    obtain ⟨hd, hc, htotal⟩ := hshares i parts[i] (getElem?_eq_getElem hi)
    refine ⟨hd, hc, htotal.trans ?_⟩
    rw [getD_eq_getElem _ _ (by rwa [length_map]), getElem_map]
  have hdiscounts : (partIds ids parts).map P'.discountOf = (range parts.length).map
      (shareAt bill.discountMinor (parts.map (P.partTotal bill.orderId))) := by
    rw [partIds, map_map]
    exact map_congr_left fun i hi => (hat i (mem_range.1 hi)).1
  have hcomps : (partIds ids parts).map P'.compOf = (range parts.length).map
      (shareAt bill.compMinor (parts.map (P.partTotal bill.orderId))) := by
    rw [partIds, map_map]
    exact map_congr_left fun i hi => (hat i (mem_range.1 hi)).2.1
  rw [← hdiscounts, ← hcomps]
  constructor
  · rintro ⟨hd, hc, hpos, hfit⟩
    refine ⟨hd, hc, fun i hi => ?_, fun i hi => ?_⟩
    · obtain ⟨hdi, hci, _⟩ := hat i hi
      rw [← hdi, ← hci]
      exact hpos _ (mem_map_of_mem (mem_range.2 hi))
    · obtain ⟨hdi, hci, hti⟩ := hat i hi
      rw [← hdi, ← hci, ← hti]
      exact hfit _ (mem_map_of_mem (mem_range.2 hi))
  · rintro ⟨hd, hc, hpos, hfit⟩
    refine ⟨hd, hc, fun part hpart => ?_, fun part hpart => ?_⟩
    · obtain ⟨i, hi, rfl⟩ := mem_map.1 hpart
      obtain ⟨hdi, hci, _⟩ := hat i (mem_range.1 hi)
      rw [hdi, hci]
      exact hpos i (mem_range.1 hi)
    · obtain ⟨i, hi, rfl⟩ := mem_map.1 hpart
      obtain ⟨hdi, hci, hti⟩ := hat i (mem_range.1 hi)
      rw [hdi, hci, hti]
      exact hfit i (mem_range.1 hi)

namespace Trial

/-- A party of three orders at a price each, and its bill is discounted. -/
def reducedBill (price discount : Money) : List Command :=
  [.seatTable actor table,
    .addLine actor table (line price) false,
    .addLine actor table (line price) false,
    .addLine actor table (line price) false,
    .openBill actor table,
    .discountBill actor ⟨9⟩ discount reason none]

/-- One part for each of them. -/
def oneEach : Command := .splitBill actor ⟨9⟩ [[⟨3⟩], [⟨5⟩], [⟨7⟩]]

/-- Whether a bill's discount and comp are within its lines, none of which is below zero. -/
def withinLines (P : Projection) (billId : BillId) : Bool :=
  (P.bill billId).any fun bill =>
    decide (∀ line ∈ soldLines (P.snapshotLines bill), 0 ≤ line.lineTotal.minor) &&
      decide (bill.discountMinor + bill.compMinor ≤ P.soldTotal bill)

end Trial

/-- Two off three lines of one each: the last part takes both, on a line that comes to one. -/
theorem splitBill_last_part_below_zero :
    ∃ (env : Env) (ids : Nat → Nat) (P P' : Projection) (actor : Actor) (billId : BillId)
      (parts : List (List OrderLineId)) (plan : Plan) (bill : BillRecord) (bound bound' : Nat),
      P.WellFormed bound ∧ TakesIds ids bound plan.minted bound' ∧
      env.splitBill ids P actor billId parts = .ok plan ∧ plan.apply P = .ok P' ∧
      P.bill billId = some bill ∧
      (∀ line ∈ soldLines (P.snapshotLines bill), 0 ≤ line.lineTotal.minor) ∧
      bill.discountMinor + bill.compMinor ≤ P.soldTotal bill ∧
      ∃ part ∈ partIds ids parts, P'.soldTotalOf part < P'.discountOf part + P'.compOf part := by
  have hnext : Trial.next
      (Trial.reducedBill (Trial.dong 1 (by decide)) (Trial.dong 2 (by decide))) Trial.oneEach
      (fun P ids P' => Trial.withinLines P ⟨9⟩ &&
        decide (∃ part ∈ partIds ids [[(⟨3⟩ : OrderLineId)], [⟨5⟩], [⟨7⟩]],
          P'.soldTotalOf part < P'.discountOf part + P'.compOf part)) = true := by
    decide +kernel
  obtain ⟨edge, plan, P', hrun, hplan, happly, hproperty⟩ := Trial.exists_of_next hnext
  obtain ⟨hbill, hpart⟩ := Bool.and_eq_true_iff.1 hproperty
  obtain ⟨bill, hbill, hwithin⟩ := (Option.any_eq_true _ _).1 hbill
  obtain ⟨hlines, hreduced⟩ := Bool.and_eq_true_iff.1 hwithin
  exact ⟨Trial.env, edge.freshIds Trial.ids, edge.projection, P', Trial.actor, ⟨9⟩, _,
    plan, bill, _,
    _, wellFormed_of_run hrun, takesIds Trial.ids edge plan.minted, hplan, happly, hbill,
    of_decide_eq_true hlines, of_decide_eq_true hreduced, of_decide_eq_true hpart⟩

/-- Two off three lines of five each: each part has room for its share. -/
theorem splitBill_shares_reducedBill :
    ∃ (ids : Nat → Nat) (P P' : Projection) (plan : Plan) (bill : BillRecord),
      Trial.env.splitBill ids P Trial.actor ⟨9⟩ [[⟨3⟩], [⟨5⟩], [⟨7⟩]] = .ok plan ∧
      plan.apply P = .ok P' ∧ P.bill ⟨9⟩ = some bill ∧
      P'.SplitShares bill (partIds ids [[⟨3⟩], [⟨5⟩], [⟨7⟩]]) := by
  have hnext : Trial.next
      (Trial.reducedBill (Trial.dong 5 (by decide)) (Trial.dong 2 (by decide))) Trial.oneEach
      (fun P _ _ => Trial.withinLines P ⟨9⟩ && (P.bill ⟨9⟩).all fun bill =>
        decide (0 ≤ bill.discountMinor ∧ 0 ≤ bill.compMinor ∧
          ResidualFits bill.discountMinor bill.compMinor (trim
            ([[⟨3⟩], [⟨5⟩], [⟨7⟩]].map (P.partTotal bill.orderId))))) = true := by
    decide +kernel
  obtain ⟨edge, plan, P', hrun, hplan, happly, hproperty⟩ := Trial.exists_of_next hnext
  obtain ⟨hwithin, hfits⟩ := Bool.and_eq_true_iff.1 hproperty
  obtain ⟨bill, hbill, hwithin⟩ := (Option.any_eq_true _ _).1 hwithin
  obtain ⟨hlines, hreduced⟩ := Bool.and_eq_true_iff.1 hwithin
  rw [hbill] at hfits
  exact ⟨edge.freshIds Trial.ids, edge.projection, P', plan, bill, hplan, happly, hbill,
    (splitBill_shares_iff (wellFormed_of_run hrun) (takesIds Trial.ids edge plan.minted)
      hplan happly hbill (of_decide_eq_true hlines) (of_decide_eq_true hreduced)).2
      (of_decide_eq_true hfits)⟩

end PosFramework
