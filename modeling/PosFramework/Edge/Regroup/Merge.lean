import PosFramework.Edge.Regroup.Reductions
import PosFramework.Edge.Run

set_option autoImplicit false

/-! # What a merge does to lines and reductions

A merge gathers the lines, the discounts and the comps of the bills it absorbs. The lines are put
together as a set; what was taken off is added bill by bill along the list of the request, so an id
the request repeats gives its discount and its comp again. -/

namespace PosFramework

open Fallible Projection List ReductionKind BillRecord

namespace Projection

variable {P P' : Projection} {record : BillRecord}

/-! ## What the absorbed bills give up -/

/-- One absorbed bill gives what was taken off it. -/
theorem absorbReduction_ok {target absorbed : BillId}
    (hbill : P.bill target = some record) (h : absorbReduction target P absorbed = .ok P') :
    P.ReducedAt P' target record (P.discountOf absorbed) (P.compOf absorbed) := by
  unfold absorbReduction at h
  unfold discountOf compOf
  cases habsorbed : P.bill absorbed with
  | none =>
    rw [habsorbed] at h
    cases h
    exact .refl hbill
  | some bill =>
    simp only [habsorbed, bind_eq_ok] at h
    obtain ⟨discounted, hdiscount, hcomp⟩ := h
    have hboth := (addHeld_reducedAt hbill hdiscount).trans fun record' hrecord' =>
      addHeld_reducedAt hrecord' hcomp
    simpa [onDiscount, onComp, discountMinor,
      compMinor] using hboth

/-- The absorbed bills give what was taken off them, one after another, each as often as it is
    named. -/
theorem absorbReductions_ok {target : BillId} {absorbed : List BillId}
    (hbill : P.bill target = some record) (hother : target ∉ absorbed)
    (h : P.absorbReductions target absorbed = .ok P') :
    P.ReducedAt P' target record (absorbed.map P.discountOf).sum (absorbed.map P.compOf).sum := by
  unfold absorbReductions at h
  induction absorbed generalizing P record with
  | nil =>
    cases h
    exact .refl hbill
  | cons first rest ih =>
    simp only [foldlM_cons, bind_eq_ok] at h
    obtain ⟨Q, hfirst, hrest⟩ := h
    have hreduced := absorbReduction_ok hbill hfirst
    -- the target is none of the absorbed, so they still hold what they held
    have hsame : ∀ a ∈ rest, Q.bill a = P.bill a := by
      intro a ha
      obtain ⟨record', rfl, _⟩ := hreduced
      rw [bill_insert, if_neg]
      rintro rfl
      exact hother (mem_cons_of_mem _ ha)
    have hdiscount : rest.map Q.discountOf = rest.map P.discountOf :=
      map_congr_left fun a ha => discountOf_congr (hsame a ha)
    have hcomp : rest.map Q.compOf = rest.map P.compOf :=
      map_congr_left fun a ha => compOf_congr (hsame a ha)
    rw [map_cons, map_cons, sum_cons, sum_cons, ← hdiscount, ← hcomp]
    exact hreduced.trans fun record' hrecord' =>
      ih hrecord' (not_mem_of_not_mem_cons hother) hrest

/-- The absorbed bills move to their state, and their lines join the others. -/
theorem absorb_ok {folded : List (BillId × BillRecord × BillState)} {lines : List OrderLineId}
    (hnext : ∀ entry ∈ folded, entry.2.2 = .merged) :
    let Q := folded.foldl Env.absorb (P, lines)
    P.BillsOnly Q.1 ∧
      Q.2 = lines ++ folded.flatMap (fun entry => P.coveredLines entry.2.1) ∧
      ∀ other, Q.1.bill other =
        if other ∈ folded.map (·.1) then (P.bill other).map fun bill =>
          { bill with state := .merged }
        else P.bill other := by
  induction folded generalizing P lines with
  | nil => exact ⟨.refl P, (append_nil lines).symm, fun other => rfl⟩
  | cons first rest ih =>
    have hfirst := hnext first mem_cons_self
    have hone : P.BillsOnly (P.setBillState first.1 first.2.2) := billsOnly_setBillState
    obtain ⟨honly, hlines, hbills⟩ := @ih (P.setBillState first.1 first.2.2)
      (lines ++ P.coveredLines first.2.1)
      fun entry hentry => hnext entry (mem_cons_of_mem _ hentry)
    refine ⟨hone.trans honly, ?_, fun other => ?_⟩
    · simp only [hone.coveredLines_eq] at hlines
      exact hlines.trans (append_assoc ..)
    · refine (hbills other).trans ?_
      rw [bill_setBillState, hfirst, map_cons]
      by_cases heq : first.1 = other
      · subst heq
        rw [if_pos rfl, if_pos mem_cons_self]
        -- a bill that is named again is merged already
        split
        · rw [Option.map_map]
          rfl
        · rfl
      · have hmem : other ∈ first.1 :: rest.map (·.1) ↔ other ∈ rest.map (·.1) := by
          rw [mem_cons, or_iff_right (Ne.symm heq)]
        simp only [if_neg heq, hmem]

end Projection

/-! ## The merge -/

/-- A merge puts together what its bills held: every line once, what was taken off each of the bills
    once, and the bills it absorbed are open no more. -/
structure Projection.MergeConserves (P P' : Projection) (billId : BillId) (target : BillRecord)
    (absorbed : List BillId) : Prop where
  lines : ∃ merged, P'.bill billId = some merged ∧ (P'.coveredLines merged).Nodup ∧
    ∀ line, line ∈ P'.coveredLines merged ↔ line ∈ P.coveredLines target ∨
      ∃ a ∈ absorbed, ∃ record, P.bill a = some record ∧ line ∈ P.coveredLines record
  discount : P'.discountOf billId = P.discountOf billId + (absorbed.dedup.map P.discountOf).sum
  comp : P'.compOf billId = P.compOf billId + (absorbed.dedup.map P.compOf).sum
  absorbed : ∀ a ∈ absorbed, ∃ record, P'.bill a = some record ∧ record.state ≠ .open

/-- The occurrences of an id after its first. -/
def repeats (absorbed : List BillId) : List BillId := absorbed.diff absorbed.dedup

theorem sum_map_repeats (f : BillId → Int) (absorbed : List BillId) :
    (absorbed.map f).sum = (absorbed.dedup.map f).sum + ((repeats absorbed).map f).sum := by
  have hperm : (absorbed.dedup ++ repeats absorbed).Perm absorbed :=
    subperm_append_diff_self_of_count_le fun a _ =>
      (dedup_sublist absorbed).count_le a
  rw [← (hperm.map f).sum_eq, map_append, sum_append]

variable {billId : BillId} {P P' : Projection} {ids : Nat → Nat} {plan : Plan} {env : Env}

/-- The target takes lines and fees, and keeps what was taken off it. -/
theorem Projection.bill_regrouped {target : BillRecord}
    (hbill : P.bill billId = some target) (lines : List OrderLineId) (fees : Option MergedFees) :
    let Q := (P.setBillLines billId lines).setMergedFees billId fees
    (∀ other, billId ≠ other → Q.bill other = P.bill other) ∧
      ∃ holder, Q.bill billId = some holder ∧ holder.orderId = target.orderId ∧
        holder.orderLineIds = lines ∧ holder.discountMinor = target.discountMinor ∧
        holder.compMinor = target.compMinor := by
  have hlined : (P.setBillLines billId lines).bill billId =
      some { target with orderLineIds := lines } := by
    rw [setBillLines, bill_updateBill, if_pos rfl, hbill]
    rfl
  cases fees with
  | none =>
    refine ⟨fun other hne => ?_, _, hlined, rfl, rfl, rfl, rfl⟩
    exact bill_updateBill.trans (if_neg hne)
  | some fees =>
    refine ⟨fun other hne => ?_,
      { target with
        orderLineIds := lines
        feeRules := fees.feeRules
        feeWholes := fees.feeWholes
        waivedFeeIds := fees.waivedFeeIds }, ?_, rfl, rfl, rfl, rfl⟩
    · exact (bill_updateBill.trans (if_neg hne)).trans (bill_updateBill.trans (if_neg hne))
    · refine bill_updateBill.trans ?_
      rw [if_pos rfl, hlined]
      rfl

/-- A bill that took the lines of another covers them, also where there are none. -/
theorem Projection.coveredLines_sortedLines {target merged : BillRecord}
    {lines : List OrderLineId} (horder : merged.orderId = target.orderId)
    (hheld : merged.orderLineIds = sortedLines lines)
    (htarget : ∀ line ∈ P.coveredLines target, line ∈ lines) :
    P.coveredLines merged = sortedLines lines := by
  unfold coveredLines at htarget ⊢
  by_cases hnone : sortedLines lines = []
  · rw [hheld, if_pos hnone, hnone, horder]
    refine eq_nil_iff_forall_not_mem.2 fun line hline => ?_
    have hempty : ∀ line, line ∉ lines := fun line hmem =>
      absurd (mem_sortedLines.2 hmem) (by simp [hnone])
    by_cases hnamed : target.orderLineIds = []
    · rw [if_pos hnamed] at htarget
      exact hempty line (htarget line hline)
    · obtain ⟨named, hmem⟩ := exists_mem_of_ne_nil _ hnamed
      rw [if_neg hnamed] at htarget
      exact hempty named (htarget named hmem)
  · rw [hheld, if_neg hnone]

/-- What an accepted merge does: the lines of all the bills once each, and what was taken off the
    bills as often as the request names them. -/
theorem mergeBills_changes {actor : Actor} {absorbed : List BillId}
    (hplan : env.mergeBills ids P actor billId absorbed = .ok plan)
    (happly : plan.apply P = .ok P') :
    ∃ target merged, P.bill billId = some target ∧ target.state = .open ∧
      P'.bill billId = some merged ∧ (P'.coveredLines merged).Nodup ∧
      (∀ line, line ∈ P'.coveredLines merged ↔ line ∈ P.coveredLines target ∨
        ∃ a ∈ absorbed, ∃ record, P.bill a = some record ∧ line ∈ P.coveredLines record) ∧
      merged.discountMinor = target.discountMinor + (absorbed.map P.discountOf).sum ∧
      merged.compMinor = target.compMinor + (absorbed.map P.compOf).sum ∧
      (∀ a ∈ absorbed, ∃ record, P'.bill a = some record ∧ record.state = .merged) ∧
      ∀ other, billId ≠ other →
        P'.discountOf other = P.discountOf other ∧ P'.compOf other = P.compOf other := by
  obtain ⟨ctx, target, folded, fees, hbill, hopen, hfolded, _, rfl⟩ := Env.mergeBills_ok hplan
  obtain ⟨hkeys, habsorbable⟩ := absorbable_of_mapM hfolded
  have hother : billId ∉ absorbed := by
    rw [← hkeys]
    intro hmem
    obtain ⟨entry, hentry, heq⟩ := mem_map.1 hmem
    exact (habsorbable entry hentry).other heq
  let Q := folded.foldl Env.absorb (P, P.coveredLines target)
  obtain ⟨honly, hlines, hbills⟩ :=
    @absorb_ok P folded (P.coveredLines target)
      fun entry hentry => (habsorbable entry hentry).next
  rw [hkeys] at hbills
  have hmem : ∀ line, line ∈ Q.2 ↔ line ∈ P.coveredLines target ∨
      ∃ a ∈ absorbed, ∃ record, P.bill a = some record ∧ line ∈ P.coveredLines record := by
    intro line
    rw [show Q.2 = _ from hlines, mem_append, mem_flatMap, ← hkeys]
    refine or_congr_right ⟨?_, ?_⟩
    · rintro ⟨entry, hentry, hline⟩
      exact ⟨entry.1, mem_map_of_mem hentry, _, (habsorbable entry hentry).bill, hline⟩
    · rintro ⟨a, ha, record, hrecord, hline⟩
      obtain ⟨entry, hentry, rfl⟩ := mem_map.1 ha
      obtain rfl := Option.some.inj ((habsorbable entry hentry).bill.symm.trans hrecord)
      exact ⟨entry, hentry, hline⟩
  -- the target takes the lines and the fees, then what was taken off the others
  have htarget : Q.1.bill billId = some target := by rw [hbills, if_neg hother, hbill]
  obtain ⟨hrest, holder, hholder, horder, hheld, hdiscount, hcomp⟩ :=
    bill_regrouped htarget (sortedLines Q.2) fees
  let R := (Q.1.setBillLines billId (sortedLines Q.2)).setMergedFees billId fees
  obtain ⟨merged, hP', hreduced⟩ := absorbReductions_ok hholder hother happly
  have honlyR : P.BillsOnly R :=
    (honly.trans billsOnly_updateBill).trans billsOnly_setMergedFees
  have honly' : P.BillsOnly P' := honlyR.trans ⟨_, _, hP'⟩
  have hbills' : ∀ other, P'.bill other = if billId = other then some merged else R.bill other := by
    intro other
    rw [hP']
    exact bill_insert
  have hapart : ∀ a ∈ absorbed, billId ≠ a := fun a ha heq => hother (heq ▸ ha)
  have hR : ∀ a ∈ absorbed, R.bill a =
      (P.bill a).map fun bill => { bill with state := .merged } := by
    intro a ha
    rw [show R.bill a = Q.1.bill a from hrest a (hapart a ha), hbills, if_pos ha]
  -- a bill that is not the target keeps what was taken off it, absorbed or not
  have hkept : ∀ other, billId ≠ other →
      R.discountOf other = P.discountOf other ∧ R.compOf other = P.compOf other := by
    intro other hne
    rw [discountOf, compOf, show R.bill other = Q.1.bill other from
      hrest other hne, hbills]
    split
    · rw [Option.map_map, Option.map_map]
      exact ⟨rfl, rfl⟩
    · exact ⟨rfl, rfl⟩
  have hdiscounts : absorbed.map R.discountOf = absorbed.map P.discountOf :=
    map_congr_left fun a ha => (hkept a (hapart a ha)).1
  have hcomps : absorbed.map R.compOf = absorbed.map P.compOf :=
    map_congr_left fun a ha => (hkept a (hapart a ha)).2
  have hcovered : P'.coveredLines merged = sortedLines Q.2 := by
    rw [honly'.coveredLines_eq]
    have hheldLines : ∀ line ∈ P.coveredLines target, line ∈ Q.2 := fun line hline =>
      (hmem line).2 (.inl hline)
    refine coveredLines_sortedLines ?_ ?_ hheldLines
    · rw [hreduced.same]
      exact horder
    · rw [hreduced.same]
      exact hheld
  refine ⟨target, merged, hbill, hopen, ?_, ?_, fun line => ?_, ?_, ?_, fun a ha => ?_,
    fun other hne => ?_⟩
  · rw [hbills', if_pos rfl]
  · rw [hcovered]
    exact nodup_sortedLines _
  · rw [hcovered, mem_sortedLines, hmem]
  · rw [hreduced.discount, hdiscount, ← hdiscounts]
  · rw [hreduced.comp, hcomp, ← hcomps]
  · rw [← hkeys] at ha
    obtain ⟨entry, hentry, rfl⟩ := mem_map.1 ha
    rw [hkeys] at ha
    refine ⟨{ entry.2.1 with state := .merged }, ?_, rfl⟩
    rw [hbills', if_neg (hapart _ ha), hR _ ha, (habsorbable entry hentry).bill]
    rfl
  · have hsame : P'.bill other = R.bill other := by rw [hbills', if_neg hne]
    rw [discountOf_congr hsame, compOf_congr hsame]
    exact hkept other hne

/-- A merge conserves lines and reductions exactly where the ids its request repeats hold no
    discount and no comp. -/
theorem mergeBills_conserves_iff {actor : Actor} {absorbed : List BillId}
    (hplan : env.mergeBills ids P actor billId absorbed = .ok plan)
    (happly : plan.apply P = .ok P') :
    (∃ target, P.bill billId = some target ∧ target.state = .open ∧
        P.MergeConserves P' billId target absorbed) ↔
      ((repeats absorbed).map P.discountOf).sum = 0 ∧
      ((repeats absorbed).map P.compOf).sum = 0 := by
  obtain ⟨target, merged, hbill, hopen, hmerged, hnodup, hlines, hdiscount, hcomp, habsorbed, _⟩ :=
    mergeBills_changes hplan happly
  have hdiscountOf : P'.discountOf billId = P.discountOf billId +
      (absorbed.map P.discountOf).sum := by
    rw [discountOf, discountOf, hmerged, hbill]
    exact hdiscount
  have hcompOf : P'.compOf billId = P.compOf billId + (absorbed.map P.compOf).sum := by
    rw [compOf, compOf, hmerged, hbill]
    exact hcomp
  rw [sum_map_repeats] at hdiscountOf hcompOf
  constructor
  · rintro ⟨_, _, _, hconserves⟩
    have hd := hconserves.discount
    have hc := hconserves.comp
    exact ⟨by omega, by omega⟩
  · rintro ⟨hd, hc⟩
    refine ⟨target, hbill, hopen, ⟨merged, hmerged, hnodup, hlines⟩, by omega, by omega, ?_⟩
    intro a ha
    obtain ⟨record, hrecord, hstate⟩ := habsorbed a ha
    exact ⟨record, hrecord, by rw [hstate]; decide⟩

namespace Trial

/-- A party's bill is split in two, and one part is discounted. -/
def discountedPart : List Command :=
  [.seatTable actor table,
    .addLine actor table (line (.few 5)) false,
    .addLine actor table (line (.few 9)) false,
    .openBill actor table,
    .splitBill actor ⟨7⟩ [[⟨3⟩], [⟨5⟩]],
    .discountBill actor ⟨10⟩ (.few 1) reason none]

end Trial

/-- A request that names a bill twice takes its discount twice. -/
theorem mergeBills_repeated_id_counts_twice :
    ∃ (env : Env) (ids : Nat → Nat) (P P' : Projection) (actor : Actor) (plan : Plan),
      env.mergeBills ids P actor ⟨9⟩ [⟨10⟩, ⟨10⟩] = .ok plan ∧ plan.apply P = .ok P' ∧
        ∀ target, ¬ P.MergeConserves P' ⟨9⟩ target [⟨10⟩, ⟨10⟩] := by
  have hnext : Trial.next Trial.discountedPart (.mergeBills Trial.actor ⟨9⟩ [⟨10⟩, ⟨10⟩])
      (fun P _ P' =>
        decide (P.discountOf ⟨9⟩ = 0 ∧ P.discountOf ⟨10⟩ = 1 ∧ P'.discountOf ⟨9⟩ = 2)) =
        true := by
    decide +kernel
  obtain ⟨edge, plan, P', _, hplan, happly, hproperty⟩ := Trial.exists_of_next hnext
  obtain ⟨hnine, hten, hmerged⟩ := of_decide_eq_true hproperty
  refine ⟨Trial.env, edge.freshIds Trial.ids, edge.projection, P', Trial.actor, plan, hplan, happly,
    fun target hconserves => ?_⟩
  have hdiscount := hconserves.discount
  rw [show ([⟨10⟩, ⟨10⟩] : List BillId).dedup = [⟨10⟩] from by decide, hnine, hmerged] at hdiscount
  simp [hten] at hdiscount

/-- Named once, the discounted part gives its discount once. -/
theorem mergeBills_conserves_discountedPart :
    ∃ (ids : Nat → Nat) (P P' : Projection) (plan : Plan),
      Trial.env.mergeBills ids P Trial.actor ⟨9⟩ [⟨10⟩] = .ok plan ∧ plan.apply P = .ok P' ∧
        ∃ target, P.bill ⟨9⟩ = some target ∧ target.state = .open ∧
          P.MergeConserves P' ⟨9⟩ target [⟨10⟩] := by
  have hnext : Trial.next Trial.discountedPart (.mergeBills Trial.actor ⟨9⟩ [⟨10⟩])
      (fun _ _ _ => true) = true := by
    decide +kernel
  obtain ⟨edge, plan, P', _, hplan, happly, _⟩ := Trial.exists_of_next hnext
  have hrepeats : repeats [(⟨10⟩ : BillId)] = [] := by decide
  refine ⟨edge.freshIds Trial.ids, edge.projection, P', plan, hplan, happly,
    (mergeBills_conserves_iff hplan happly).2 ?_⟩
  exact ⟨rfl, rfl⟩

end PosFramework
