import PosFramework.Edge.Regroup.Merge
import PosFramework.Edge.Regroup.Split

set_option autoImplicit false

/-! # The room reductions leave

A discount is refused where the bill's reductions would pass what its lines come to. The lines may
come to less afterwards: one is voided, or its quantity is lowered. What a bill's reductions leave
of its lines is its room, and every command the floor takes keeps it from going below zero as long
as no line of an open bill gives up more than the bill's room. -/

namespace PosFramework

open Fallible Env Projection List Trial Ledger Edge Function Transition ReductionKind

/-! ## The room of a ledger -/

namespace Ledger

variable {L L' : Ledger} {reduced reduced' : BillId → Int}

/-- What was taken off the open bills is within what their lines come to. -/
def Within (L : Ledger) (reduced : BillId → Int) : Prop :=
  ∀ bill charge, L.charge bill = some charge → charge.state = .open →
    reduced bill ≤ L.total charge.lines

variable {lines : List OrderLineId} {line : OrderLineId} {bill : BillId} {charge : Charge}
  {absorbed : List BillId} {state : BillState}

theorem total_perm {lines' : List OrderLineId} (h : lines.Perm lines') :
    L.total lines = L.total lines' :=
  (h.map L.amount).sum_eq

theorem total_append (lines lines' : List OrderLineId) :
    L.total (lines ++ lines') = L.total lines + L.total lines' := by
  rw [total, map_append, sum_append]
  rfl

theorem total_flatMap {α : Type} (xs : List α) (f : α → List OrderLineId) :
    L.total (xs.flatMap f) = (xs.map fun x => L.total (f x)).sum := by
  induction xs with
  | nil => rfl
  | cons x xs ih => rw [flatMap_cons, total_append, ih, map_cons, sum_cons]

theorem total_congr (h : ∀ line ∈ lines, L'.sale line = L.sale line) :
    L'.total lines = L.total lines := by
  refine congrArg List.sum (map_congr_left fun line hline => ?_)
  rw [amount, amount, h line hline]

/-- A line that is written anew counts anew, once. -/
theorem total_sell (hnodup : lines.Nodup) (line : OrderLineId) (sale : Sale) :
    (L.sell line sale).total lines =
      if line ∈ lines then L.total lines - L.amount line + sale.amount else L.total lines := by
  have hat : (L.sell line sale).amount line = sale.amount := by
    simp [amount, sell]
  have hothers : ∀ other, other ≠ line → (L.sell line sale).amount other = L.amount other := by
    intro other hne
    simp [amount, sell, update_of_ne hne]
  induction lines with
  | nil => rfl
  | cons first rest ih =>
    obtain ⟨hfirst, hrest⟩ := nodup_cons.1 hnodup
    have hcons : ∀ M : Ledger, M.total (first :: rest) = M.amount first + M.total rest := by
      simp [total]
    rw [hcons, hcons, ih hrest]
    by_cases heq : first = line
    · subst heq
      rw [if_neg hfirst, if_pos mem_cons_self, hat]
      omega
    · rw [hothers first heq]
      split
      · next hmem =>
        rw [if_pos (mem_cons_of_mem _ hmem)]
        omega
      · next hmem =>
        rw [if_neg (by simp [Ne.symm heq, hmem])]

theorem Within.sell_new (hL : L.Sound) (hwithin : L.Within reduced) {sale : Sale}
    (hnew : L.sale line = none) : (L.sell line sale).Within reduced := by
  intro bill charge hcharge hopen
  have hholds := hL.holds bill charge hcharge (.inl hopen)
  rw [total_sell hholds.nodup, if_neg]
  · exact hwithin bill charge hcharge hopen
  · intro hmem
    obtain ⟨sold, hsold, _⟩ := hholds.on_order line hmem
    rw [hnew] at hsold
    contradiction

/-- A line that gives up no more than the room of the open bill it is on. -/
theorem Within.sell (hL : L.Sound) (hwithin : L.Within reduced) {sale : Sale}
    (hroom : ∀ bill charge, L.charge bill = some charge → charge.state = .open →
      line ∈ charge.lines → L.amount line - sale.amount ≤ L.total charge.lines - reduced bill) :
    (L.sell line sale).Within reduced := by
  intro bill charge hcharge hopen
  rw [total_sell (hL.holds bill charge hcharge (.inl hopen)).nodup]
  have hbill := hwithin bill charge hcharge hopen
  by_cases hmem : line ∈ charge.lines
  · have := hroom bill charge hcharge hopen hmem
    omega
  · rwa [if_neg hmem]

/-- A bill that is written. -/
theorem Within.issue (hwithin : L.Within reduced)
    (hsame : ∀ other, other ≠ bill → reduced' other = reduced other)
    (hbill : charge.state = .open → reduced' bill ≤ L.total charge.lines) :
    (L.issue bill charge).Within reduced' := by
  intro other charge' hcharge hopen
  by_cases heq : other = bill
  · subst heq
    obtain rfl : charge = charge' := by
      simpa [Ledger.issue] using hcharge
    exact hbill hopen
  · rw [hsame other heq]
    refine hwithin other charge' ?_ hopen
    simpa [Ledger.issue, update_of_ne heq] using hcharge

/-- The lines of a bill. -/
def linesOf (L : Ledger) (bill : BillId) : List OrderLineId :=
  ((L.charge bill).map Charge.lines).getD []

theorem mem_linesOf (hcharge : L.charge bill = some charge) (hactive : charge.Active) :
    line ∈ L.linesOf bill ↔ line ∈ L.held bill := by
  rw [linesOf, hcharge]
  constructor
  · exact fun hline => ⟨charge, hcharge, hactive, hline⟩
  · rintro ⟨charge', hcharge', _, hline⟩
    obtain rfl := Option.some.inj (hcharge.symm.trans hcharge')
    exact hline

/-- Merged bills come to what they came to. -/
theorem total_merges (hL : L.Sound) {billId : BillId}
    (hmerges : L.Merges billId absorbed charge lines) (hnodup : absorbed.Nodup) :
    L.total lines = L.total charge.lines + (absorbed.map fun a => L.total (L.linesOf a)).sum := by
  have hopen : ∀ a ∈ absorbed, ∃ c, L.charge a = some c ∧ c.Active := by
    intro a ha
    obtain ⟨c, hc, hstate, _⟩ := hmerges.absorbedOpen a ha
    exact ⟨c, hc, .inl hstate⟩
  have hmem : ∀ a ∈ absorbed, ∀ line, line ∈ L.linesOf a ↔ line ∈ L.held a := by
    intro a ha line
    obtain ⟨c, hc, hactive⟩ := hopen a ha
    exact mem_linesOf hc hactive
  have htarget : ∀ line ∈ charge.lines, line ∈ L.held billId :=
    fun line hline => ⟨charge, hmerges.target, .inl hmerges.isOpen, hline⟩
  -- the bills hold their lines apart, so putting them one after another repeats none
  have hapart : (charge.lines ++ absorbed.flatMap L.linesOf).Nodup := by
    refine nodup_append'.2
      ⟨(hL.holds billId charge hmerges.target (.inl hmerges.isOpen)).nodup, ?_, ?_⟩
    · refine nodup_flatMap.2 ⟨fun a ha => ?_, hnodup.imp_of_mem fun {a b} ha hb hne => ?_⟩
      · obtain ⟨c, hc, hactive⟩ := hopen a ha
        rw [linesOf, hc]
        exact (hL.holds a c hc hactive).nodup
      · intro line hlineA hlineB
        exact Set.disjoint_left.1 (hL.apart hne) ((hmem a ha line).1 hlineA)
          ((hmem b hb line).1 hlineB)
    · intro line hline habsorbed
      obtain ⟨a, ha, hlineA⟩ := mem_flatMap.1 habsorbed
      have hne : billId ≠ a := fun heq => hmerges.other (heq ▸ ha)
      exact Set.disjoint_left.1 (hL.apart hne) (htarget line hline) ((hmem a ha line).1 hlineA)
  have hperm : lines.Perm (charge.lines ++ absorbed.flatMap L.linesOf) := by
    refine (perm_ext_iff_of_nodup hmerges.nodup hapart).2 fun line => ?_
    rw [hmerges.mem_lines, mem_append, mem_flatMap]
    refine or_congr_right (exists_congr fun a => and_congr_right fun ha => ?_)
    exact (hmem a ha line).symm
  rw [total_perm hperm, total_append, total_flatMap]

theorem Within.restate (hwithin : L.Within reduced) (hstate : state ≠ .open) :
    (L.restate bill state).Within reduced := by
  intro other charge hcharge hopen
  by_cases heq : other = bill
  · subst heq
    obtain ⟨old, _, rfl⟩ : ∃ old, L.charge other = some old ∧ { old with state } = charge := by
      simpa [Ledger.restate] using hcharge
    exact absurd hopen hstate
  · refine hwithin other charge ?_ hopen
    simpa [Ledger.restate, update_of_ne heq] using hcharge

theorem Within.restateAll (hwithin : L.Within reduced) {bills : List BillId}
    (hstate : state ≠ .open) : (L.restateAll bills state).Within reduced := by
  induction bills generalizing L with
  | nil => exact hwithin
  | cons bill bills ih => exact ih (hwithin.restate hstate)

theorem Within.merge (hL : L.Sound) (hwithin : L.Within reduced) {billId : BillId}
    (hmerges : L.Merges billId absorbed charge lines)
    (hnodup : absorbed.Nodup) (hsame : ∀ other, other ≠ billId → reduced' other = reduced other)
    (hbill : reduced' billId = reduced billId + (absorbed.map reduced).sum) :
    ((L.restateAll absorbed .merged).issue billId { charge with lines }).Within reduced' := by
  refine (hwithin.restateAll (by decide)).issue hsame fun _ => ?_
  have hsales : (L.restateAll absorbed .merged).total lines = L.total lines :=
    total_congr fun line _ => by rw [sale_restateAll]
  rw [hsales, total_merges hL hmerges hnodup, hbill]
  refine Int.add_le_add (hwithin billId charge hmerges.target hmerges.isOpen) ?_
  refine sum_le_sum fun a ha => ?_
  obtain ⟨c, hc, hopen, _⟩ := hmerges.absorbedOpen a ha
  rw [linesOf, hc]
  exact hwithin a c hc hopen

end Ledger

/-! ## The room of a projection -/

namespace Projection

variable {P P' : Projection} {bound : Nat}

/-- What was taken off a bill. -/
def reducedOf (P : Projection) (billId : BillId) : Int := P.discountOf billId + P.compOf billId

variable {billId : BillId} {bill : BillRecord} {now : Timestamp}

theorem reducedOf_of_bill (hbill : P.bill billId = some bill) :
    P.reducedOf billId = bill.discountMinor + bill.compMinor := by
  rw [reducedOf, discountOf, compOf, hbill]
  rfl

theorem reducedOf_congr (h : P'.bill billId = P.bill billId) :
    P'.reducedOf billId = P.reducedOf billId := by
  rw [reducedOf, reducedOf, discountOf_congr h, compOf_congr h]

/-- What some lines of an order come to, counted along the order's index. -/
theorem partTotal_eq_total {orderId : OrderId} {part : List OrderLineId}
    (hindexed : P.books.Indexed) (hnodup : part.Nodup)
    (hon : ∀ line ∈ part, P.ledger.On orderId line) :
    P.partTotal orderId part = P.ledger.total part := by
  have hcount : ∀ index : List OrderLineId,
      (((index.filterMap fun id => (P.line id).map fun record => (id, record)).filter fun entry =>
        decide (entry.1 ∈ part) && entry.2.isSold).map (·.2.lineTotal.minor)).sum =
          P.ledger.total (index.filter fun id => decide (id ∈ part)) := by
    intro index
    induction index with
    | nil => rfl
    | cons id index ih =>
      have hamount : P.ledger.amount id =
          ((P.line id).map fun record => record.sale.amount).getD 0 := by
        rw [amount, sale_ledger, Option.map_map]
        rfl
      have hcons : ∀ ids, P.ledger.total (id :: ids) = P.ledger.amount id + P.ledger.total ids := by
        intro ids
        rfl
      cases hline : P.line id with
      | none =>
        rw [filterMap_cons_none (by rw [hline]; rfl), ih, filter_cons]
        split
        · rw [hcons, hamount, hline]
          exact (Int.zero_add _).symm
        · rfl
      | some record =>
        rw [filterMap_cons_some (by rw [hline]; rfl), filter_cons, filter_cons]
        by_cases hpart : id ∈ part
        · rw [if_pos (decide_eq_true hpart), hcons, hamount, hline, ← ih]
          by_cases hsold : record.isSold = true
          · simp [hpart, hsold, LineRecord.sale, Sale.amount]
          · simp [hpart, hsold, LineRecord.sale, Sale.amount]
        · simp [hpart, ih]
  have hperm : ((P.lineIdsForOrder orderId).filter fun id => decide (id ∈ part)).Perm part := by
    refine (perm_ext_iff_of_nodup ((hindexed.nodup_lineIndex orderId).filter _) hnodup).2
      fun line => ?_
    rw [mem_filter, decide_eq_true_iff, and_iff_right_iff_imp]
    intro hline
    obtain ⟨sale, hsale, horder⟩ := hon line hline
    obtain ⟨record, hrecord, rfl⟩ := Option.map_eq_some_iff.1 hsale
    exact (hindexed.mem_lineIndex orderId line).2 ⟨record, hrecord, horder⟩
  exact (hcount _).trans (total_perm hperm)

/-- An open or paid bill's lines come to what the ledger says. -/
theorem soldTotal_eq_total (hP : P.WellFormed bound)
    (hbill : P.bill billId = some bill) (hactive : bill.charge.Active) :
    P.soldTotal bill = P.ledger.total bill.orderLineIds := by
  have hholds := hP.sound.holds billId _ (charge_of_bill hbill) hactive
  rw [soldTotal_eq_partTotal hholds.nonempty]
  exact partTotal_eq_total hP.indexed hholds.nodup hholds.on_order

/-- What was taken off the open bills is within what their lines come to. -/
def Room (P : Projection) : Prop := P.ledger.Within P.reducedOf

theorem room_iff (hP : P.WellFormed bound) :
    P.Room ↔ ∀ billId bill, P.bill billId = some bill → bill.state = .open →
      bill.discountMinor + bill.compMinor ≤ P.soldTotal bill := by
  constructor
  · intro hroom billId bill hbill hopen
    rw [← reducedOf_of_bill hbill, soldTotal_eq_total hP hbill (.inl hopen)]
    exact hroom billId bill.charge (charge_of_bill hbill) hopen
  · intro hbills billId charge hcharge hopen
    obtain ⟨bill, hbill, rfl⟩ := Option.map_eq_some_iff.1 hcharge
    have hwithin := hbills billId bill hbill hopen
    rw [← reducedOf_of_bill hbill, soldTotal_eq_total hP hbill (.inl hopen)] at hwithin
    exact hwithin

theorem reducedOf_of_bills_eq (h : P'.bills = P.bills) : P'.reducedOf = P.reducedOf :=
  funext fun billId => reducedOf_congr (by rw [bill, bill, h])

/-- A change that leaves the lines alone, where every open bill is one that was there or has
    room. -/
theorem Room.of_bills (hroom : P.Room) (hlines : P'.lines = P.lines)
    (hbills : ∀ billId bill, P'.bill billId = some bill → bill.state = .open →
      P.bill billId = some bill ∨
        bill.discountMinor + bill.compMinor ≤ P.ledger.total bill.orderLineIds) : P'.Room := by
  intro billId charge hcharge hopen
  obtain ⟨bill, hbill, rfl⟩ := Option.map_eq_some_iff.1 hcharge
  have htotal : P'.ledger.total bill.orderLineIds = P.ledger.total bill.orderLineIds :=
    total_congr fun line _ => by rw [sale_ledger, sale_ledger, Projection.line, hlines]; rfl
  show P'.reducedOf billId ≤ P'.ledger.total bill.orderLineIds
  rw [reducedOf_of_bill hbill, htotal]
  rcases hbills billId bill hbill hopen with hold | hnew
  · rw [← reducedOf_of_bill hold]
    exact hroom billId bill.charge (charge_of_bill hold) hopen
  · exact hnew

/-! ## Frames -/

theorem bills_updateLine {lineId : OrderLineId} {change : LineRecord → LineRecord} :
    (P.updateLine lineId change).bills = P.bills := by
  unfold updateLine
  split <;> rfl

theorem bills_addLine {lineId : OrderLineId} {record : LineRecord} :
    (P.addLine lineId record).bills = P.bills := by
  unfold addLine
  split
  · rfl
  · split <;> rfl

theorem bills_applyFired {fired : FiredLine} : (applyFired now P fired).bills = P.bills :=
  bills_updateLine.trans bills_updateLine

theorem bills_foldl_applyFired {fired : List FiredLine} :
    (fired.foldl (applyFired now) P).bills = P.bills := by
  induction fired generalizing P with
  | nil => rfl
  | cons first rest ih => exact ih.trans bills_applyFired

end Projection

/-! ## What a discount is checked against -/

variable {bases : List ClassBase} {ids : Nat → Nat} {plan : Plan} {env : Env}

theorem classBases_total {lines : List LineRecord} (h : classBases lines = .ok bases) :
    totalMinor (bases.map (·.amount)) = ((soldLines lines).map (·.lineTotal.minor)).sum := by
  have hadds : Tally.Adds ClassBase.taxClassId (fun base => base.amount.minor) LineRecord.taxClassId
      (fun line => line.lineTotal.minor)
      fun bases line => addToClass bases line.taxClassId line.lineTotal :=
    fun bases line out hout => addToClass_adds bases ⟨line.taxClassId, line.lineTotal⟩ out hout
  have htotal := Tally.foldlM_total hadds h
  simpa [totalMinor, Tally.total, comp_def] using htotal

theorem reducibleBase_minor {currency : CurrencyCode} {reducible : Money}
    (h : reducibleBase bases currency = .ok reducible) :
    reducible.minor = totalMinor (bases.map (·.amount)) := by
  have hfold : (bases.map (·.amount)).foldlM addMoney (Money.zero currency) = .ok reducible := by
    rw [foldlM_map]
    exact h
  have hminor := (foldlM_addMoney_eq_ok hfold).2.1
  simpa using hminor

theorem reductions_minor (bill : BillRecord) (currency : CurrencyCode) :
    (bill.reductions currency).1.minor = bill.discountMinor ∧
      (bill.reductions currency).2.minor = bill.compMinor := by
  have hslot : ∀ held : Option Money, (held.getD (Money.zero currency)).minor = takenOff held := by
    intro held
    cases held <;> rfl
  exact ⟨hslot bill.discount, hslot bill.comp⟩

/-- A discount that is let through is within the bill's lines, with what was taken off before. -/
theorem discountBill_within {P P' : Projection} {actor : Actor}
    {billId : BillId} {amount : Money} {reasonCodeId : ReasonCodeId} {approval : Option Approval}
    (hplan : env.discountBill ids P actor billId amount reasonCodeId approval = .ok plan)
    (happly : plan.apply P = .ok P') :
    ∃ bill bill', P.bill billId = some bill ∧ bill.state = .open ∧
      bill.Reduced bill' amount.minor 0 ∧
      P' = { P with bills := P.bills.insert billId bill' } ∧
      bill'.discountMinor + bill'.compMinor ≤ P.soldTotal bill := by
  obtain ⟨ctx, bill, order, reducible, applied, _, _, hbill, hopen, horder, hreducible, happlied,
    hbound, _, _, rfl⟩ := discountBill_ok hplan
  obtain ⟨bill', hP', hreduced⟩ := addReduction_reducedAt hbill happly
  simp only [onDiscount, onComp, reduceCtorEq, if_true, if_false]
    at hreduced
  refine ⟨bill, bill', hbill, hopen, hreduced, hP', ?_⟩
  simp only [billSnapshot, bind_eq_ok, pure_eq_ok] at horder
  obtain ⟨bases, hbases, rfl⟩ := horder
  have htotal : reducible.minor = P.soldTotal bill :=
    (reducibleBase_minor hreducible).trans (classBases_total hbases)
  obtain ⟨hdiscount, hcomp⟩ := reductions_minor bill env.session.currency
  have hsum := (addMoney_eq_ok.1 happlied).2.2
  have hd := hreduced.discount
  have hc := hreduced.comp
  omega

/-! ## Commands that keep the room -/

/-- Every open bill that covers a line has room for what the line gives up. -/
def Projection.HasRoom (P : Projection) (lineId : OrderLineId) (loss : Int) : Prop :=
  ∀ billId bill, P.bill billId = some bill → bill.state = .open → lineId ∈ P.coveredLines bill →
    loss ≤ P.soldTotal bill - (bill.discountMinor + bill.compMinor)

/-- The floor's commands, with what each may do to the lines of open bills: a bill opens on lines
    that come to no less than zero, a merge names distinct bills, and a line that is voided or set
    to another quantity gives up no more than the room of the open bill it is on. -/
def Edge.KeepsRoom (edge : Edge) (input : Env × Command) : Prop :=
  let P := edge.projection
  match input.2 with
  | .seatTable .. | .addLine .. | .addLineToOrder .. => True
  | .fireLine .. | .fireOrder .. | .fireCourse .. => True
  | .voidBill .. => True
  | .discountBill _ _ amount _ _ => 0 < amount.minor
  | .mergeBills _ _ absorbed => absorbed.Nodup
  | .openBill _ tableId => ∀ orderId, P.orderForTable tableId = some orderId →
      0 ≤ P.partTotal orderId (P.soldLineIds orderId)
  | .openBillForOrder _ orderId => 0 ≤ P.partTotal orderId (P.soldLineIds orderId)
  | .voidLine _ lineId _ _ => ∀ record, P.line lineId = some record → record.isSold = true →
      P.HasRoom lineId record.lineTotal.minor
  | .setLineQuantity _ lineId quantity => ∀ record lineTotal, P.line lineId = some record →
      record.isSold = true → record.unitPrice.mulQuantity quantity .halfUp = .ok lineTotal →
      P.HasRoom lineId (record.lineTotal.minor - lineTotal.minor)
  | _ => False

section Steps

variable {P P' : Projection} {bound : Nat}

/-- A line that is sold gives up something of what it came to, a voided one nothing. -/
theorem room_sell (hP : P.WellFormed bound) (hroom : P.Room) (hbills : P'.bills = P.bills)
    {lineId : OrderLineId} {record : LineRecord} (hline : P.line lineId = some record) {sale : Sale}
    (hledger : P'.ledger = P.ledger.sell lineId sale)
    (hloss : ∀ billId bill, P.bill billId = some bill → bill.state = .open →
      lineId ∈ P.coveredLines bill → record.sale.amount - sale.amount ≤
        P.soldTotal bill - (bill.discountMinor + bill.compMinor)) : P'.Room := by
  rw [Room, hledger, reducedOf_of_bills_eq hbills]
  refine Within.sell hP.sound hroom fun billId charge hcharge hopen hmem => ?_
  obtain ⟨bill, hbill, rfl⟩ := Option.map_eq_some_iff.1 hcharge
  have hamount : P.ledger.amount lineId = record.sale.amount := by
    rw [amount, sale_of_line hline]
    rfl
  have hcovered : lineId ∈ P.coveredLines bill := by
    rw [coveredLines_of_active hP hbill (.inl hopen)]
    exact hmem
  have hbound := hloss billId bill hbill hopen hcovered
  rw [soldTotal_eq_total hP hbill (.inl hopen),
    ← reducedOf_of_bill hbill] at hbound
  rw [hamount]
  exact hbound

/-- An order's bill opens with nothing taken off. -/
theorem room_openBillForOrder {actor : Actor} {orderId : OrderId}
    (hP : P.WellFormed bound) (hroom : P.Room)
    (hlines : 0 ≤ P.partTotal orderId (P.soldLineIds orderId))
    (hplan : env.openBillForOrder ids P actor orderId = .ok plan)
    (happly : plan.apply P = .ok P') : P'.Room := by
  obtain ⟨ctx, _, _, _, rfl⟩ := openBillForOrder_ok hplan
  obtain rfl : recordOpenedBill P (env.billOpening ids P orderId) _ _ = P' := Except.ok.inj happly
  have hframe : ∀ moved, (recordOpenedBill P (env.billOpening ids P orderId)
      (P.tableForOrder orderId) moved).lines = P.lines ∧
      ∀ other, (recordOpenedBill P (env.billOpening ids P orderId) (P.tableForOrder orderId)
        moved).bill other =
          if ⟨ids 0⟩ = other then
            some (.opened (env.billOpening ids P orderId) (P.tableForOrder orderId))
          else P.bill other := by
    intro moved
    cases moved <;> exact ⟨rfl, fun other => bill_openBillRecord⟩
  obtain ⟨hsame, hbills⟩ := hframe
    ((P.tableForOrder orderId).map fun tableId => (tableId, .awaitingPayment))
  refine hroom.of_bills hsame fun billId bill hbill _ => ?_
  rw [hbills] at hbill
  split at hbill
  · obtain rfl := Option.some.inj hbill
    refine .inr ?_
    have htotal := partTotal_eq_total hP.indexed
      (nodup_soldLineIds hP.indexed orderId) fun line hline => by
        obtain ⟨sale, hsale, horder, _⟩ := (mem_soldLineIds hP.indexed).1 hline
        exact ⟨sale, hsale, horder⟩
    rw [htotal] at hlines
    exact hlines
  · exact .inl hbill

end Steps

namespace Edge

variable {ids : IdSource} {edge edge' : Edge} {input : Env × Command}

/-- Every command that keeps the room leaves it. -/
theorem room_step (hedge : edge.WellFormed ids) (hroom : edge.projection.Room)
    (hkeeps : edge.KeepsRoom input) (hstep : edge.step ids input = .ok edge') :
    edge'.projection.Room := by
  have haccounted := step_accounted hedge hstep
  obtain ⟨env, command⟩ := input
  obtain ⟨plan, P', hplan, happly, _, rfl⟩ := (step_eq_ok ids).1 hstep
  have hledger := haccounted.step
  -- what a command that leaves the bills alone does to a ledger it leaves alone
  have hquiet : command.leavesLedger = true → P'.bills = edge.projection.bills → P'.Room := by
    intro hcommand hbills
    rw [Room, hledger.eq_of_leavesLedger hcommand,
      reducedOf_of_bills_eq hbills]
    exact hroom
  have hadds : command.addsLine = true → P'.bills = edge.projection.bills → P'.Room := by
    intro hcommand hbills
    obtain ⟨line, sale, hnew, heq⟩ := hledger.of_addsLine hcommand
    rw [Room, heq, reducedOf_of_bills_eq hbills]
    exact hroom.sell_new hedge.sound hnew
  cases command with
  | seatTable =>
    obtain ⟨_, _, rfl⟩ := seatTable_ok hplan
    cases happly
    exact hquiet rfl rfl
  | addLine =>
    obtain ⟨_, _, _, _, _, rfl⟩ := addLine_ok hplan
    cases happly
    exact hadds rfl bills_addLine
  | addLineToOrder =>
    obtain ⟨_, _, _, _, _, _, _, rfl⟩ := addLineToOrder_ok hplan
    cases happly
    exact hadds rfl bills_addLine
  | fireLine =>
    obtain ⟨_, _, _, _, _, _, rfl⟩ := fireLine_ok hplan
    cases happly
    exact hquiet rfl bills_applyFired
  | fireOrder =>
    obtain ⟨_, _, _, _, rfl⟩ := fireUnsent_ok (fireOrder_ok hplan)
    cases happly
    exact hquiet rfl bills_foldl_applyFired
  | fireCourse =>
    obtain ⟨_, _, _, _, rfl⟩ := fireUnsent_ok (fireCourse_ok hplan)
    cases happly
    exact hquiet rfl bills_foldl_applyFired
  | voidLine =>
    obtain ⟨_, record, _, _, hline, _, rfl⟩ := voidLine_ok hplan
    cases happly
    obtain ⟨sale, hsale, heq⟩ := hledger.of_voidLine
    refine room_sell hedge hroom bills_updateLine hline heq
      fun billId bill hbill hopen hcovered => ?_
    by_cases hsold : record.isSold = true
    · have hloss := hkeeps record hline hsold billId bill hbill hopen hcovered
      simpa [Sale.amount, LineRecord.sale, hsold] using hloss
    · have hwithin := (room_iff hedge).1 hroom billId bill hbill hopen
      simpa [Sale.amount, LineRecord.sale, hsold] using hwithin
  | setLineQuantity =>
    obtain ⟨_, record, lineTotal, hline, htotal, rfl⟩ := setLineQuantity_ok hplan
    cases happly
    obtain ⟨sale, lineTotal', hsale, htotal', heq⟩ := hledger.of_setLineQuantity
    obtain rfl := Option.some.inj ((sale_of_line hline).symm.trans hsale)
    obtain rfl : lineTotal = lineTotal' := Except.ok.inj (htotal.symm.trans htotal')
    refine room_sell hedge hroom rfl hline heq fun billId bill hbill hopen hcovered => ?_
    by_cases hsold : record.isSold = true
    · have hloss := hkeeps record lineTotal hline hsold htotal billId bill hbill hopen hcovered
      simpa [Sale.amount, LineRecord.sale, hsold] using hloss
    · have hwithin := (room_iff hedge).1 hroom billId bill hbill hopen
      simpa [Sale.amount, LineRecord.sale, hsold] using hwithin
  | openBill =>
    obtain ⟨orderId, htable, hopen⟩ := openBill_ok hplan
    exact room_openBillForOrder hedge hroom (hkeeps orderId htable) hopen happly
  | openBillForOrder =>
    exact room_openBillForOrder hedge hroom hkeeps hplan happly
  | discountBill actor billId amount reasonCodeId approval =>
    obtain ⟨bill, bill', hbill, hopen, hreduced, rfl, hwithin⟩ := discountBill_within hplan happly
    refine hroom.of_bills rfl fun other record hrecord _ => ?_
    rw [bill_insert] at hrecord
    split at hrecord
    · obtain rfl := Option.some.inj hrecord
      refine .inr ?_
      rw [show bill'.orderLineIds = bill.orderLineIds by rw [hreduced.same],
        ← soldTotal_eq_total hedge hbill (.inl hopen)]
      exact hwithin
    · exact .inl hrecord
  | mergeBills actor billId absorbed =>
    obtain ⟨target, merged, hbill, _, hmerged, _, _, hdiscount, hcomp, _, hothers⟩ :=
      mergeBills_changes hplan happly
    obtain ⟨charge, lines, hmerges, heq⟩ := hledger.of_mergeBills
    rw [Room, heq]
    refine Within.merge hedge.sound hroom hmerges hkeeps (fun other hne => ?_) ?_
    · obtain ⟨hd, hc⟩ := hothers other hne.symm
      rw [reducedOf, reducedOf, hd, hc]
    · rw [reducedOf_of_bill hmerged, reducedOf_of_bill hbill, hdiscount,
        hcomp]
      have hsum : (absorbed.map edge.projection.reducedOf).sum =
          (absorbed.map edge.projection.discountOf).sum +
            (absorbed.map edge.projection.compOf).sum := sum_map_add
      omega
  | voidBill actor billId reasonCodeId approval =>
    obtain ⟨_, bill, _, _, hbill, _, _, rfl⟩ := voidBill_ok hplan
    cases happly
    obtain ⟨tables, heq⟩ := voidBillRecord_eq edge.projection billId
    rw [heq]
    obtain ⟨_, _, hframe⟩ : edge.projection.BillsOnly
        (edge.projection.setBillState billId .voided) := billsOnly_setBillState
    refine hroom.of_bills (by rw [hframe]) fun other record hrecord hopen => ?_
    have hset := @bill_setBillState edge.projection billId other .voided
    rw [show ({ edge.projection.setBillState billId .voided with tables := tables } :
      Projection).bill other = _ from hset] at hrecord
    split at hrecord
    · rw [hbill] at hrecord
      obtain rfl := Option.some.inj hrecord
      contradiction
    · exact .inl hrecord
  | _ => exact absurd hkeeps id

theorem room_of_run {inputs : List (Env × Command)} (hrun : Run ids KeepsRoom initial inputs edge) :
    edge.projection.Room := by
  have hinv : edge.WellFormed ids ∧ edge.projection.Room := by
    refine Run.invariant (I := fun edge : Edge =>
      edge.WellFormed ids ∧ edge.projection.Room) ?_ hrun ⟨wellFormed_initial, ?_⟩
    · rintro edge input edge' ⟨hedge, hroom⟩ hkeeps hstep
      exact ⟨(step_accounted hedge hstep).wellFormed hedge, room_step hedge hroom hkeeps hstep⟩
    · intro bill charge hcharge
      simp [initial, Projection.empty, charge_ledger, Projection.bill] at hcharge
  exact hinv.2

end Edge

/-- As long as no line of an open bill gives up more than the bill's room, what was taken off an
    open bill stays within what its lines come to. -/
theorem reductions_within_lines {ids : IdSource} {inputs : List (Env × Command)} {edge : Edge}
    (hrun : Run ids KeepsRoom .initial inputs edge) (billId : BillId) (bill : BillRecord)
    (hbill : edge.projection.bill billId = some bill) (hopen : bill.state = .open) :
    bill.discountMinor + bill.compMinor ≤ edge.projection.soldTotal bill :=
  (room_iff (wellFormed_of_run hrun)).1 (room_of_run hrun) billId bill hbill
    hopen

namespace Trial

/-- A party orders, asks for the bill and is given a discount of three. -/
def discountedBill : List Command :=
  [.seatTable actor table,
    .addLine actor table (line (.few 5)) false,
    .openBill actor table,
    .discountBill actor ⟨5⟩ (.few 3) reason none]

/-- A party orders for three and for two, is given a discount of three, and sends the second dish
    back. -/
def reducedToNothing : List Command :=
  [.seatTable actor table,
    .addLine actor table (line (.few 3)) false,
    .addLine actor table (line (.few 2)) false,
    .openBill actor table,
    .discountBill actor ⟨7⟩ (.few 3) reason none,
    .voidLine actor ⟨5⟩ reason none]

/-- Whether a command of `reducedToNothing` keeps the room. -/
def keepsRoom (edge : Edge) (input : Env × Command) : Bool :=
  match input.2 with
  | .seatTable .. | .addLine .. => true
  | .discountBill _ _ amount _ _ => decide (0 < amount.minor)
  | .openBill _ tableId => (edge.projection.orderForTable tableId).all fun orderId =>
    decide (0 ≤ edge.projection.partTotal orderId (edge.projection.soldLineIds orderId))
  | .voidLine _ lineId _ _ => (edge.projection.line lineId).all fun record =>
    edge.projection.bills.toList.all fun (_, bill) => decide (record.lineTotal.minor ≤
      edge.projection.soldTotal bill - (bill.discountMinor + bill.compMinor))
  | _ => false

theorem keepsRoom_sound (edge : Edge) (input : Env × Command) (h : keepsRoom edge input = true) :
    edge.KeepsRoom input := by
  obtain ⟨env, command⟩ := input
  cases command with
  | seatTable | addLine => exact trivial
  | discountBill actor billId amount reasonCodeId approval =>
    exact (of_decide_eq_true h : 0 < amount.minor)
  | openBill =>
    intro orderId horder
    simp only [keepsRoom, horder, Option.all_some, decide_eq_true_eq] at h
    exact h
  | voidLine =>
    intro record hline _ billId bill hbill _ _
    simp only [keepsRoom, hline, Option.all_some, all_eq_true, decide_eq_true_eq] at h
    exact h (billId, bill) (Std.ExtTreeMap.mem_toList_iff_getElem?_eq_some.2 hbill)
  | _ => exact absurd h Bool.false_ne_true

end Trial

/-- The only line of a discounted bill is voided: three stay taken off nothing. -/
theorem reductions_past_lines_after_void :
    ∃ edge bill, Run Trial.ids (fun _ _ => True) .initial
        (Trial.inputs (discountedBill ++ [.voidLine actor ⟨3⟩ reason none])) edge ∧
      edge.projection.bill ⟨5⟩ = some bill ∧ bill.state = .open ∧
      edge.projection.soldTotal bill < bill.discountMinor + bill.compMinor := by
  obtain ⟨edge, hrun, hedge⟩ : ∃ edge, Run Trial.ids (fun _ _ => True) .initial
      (Trial.inputs (discountedBill ++ [.voidLine actor ⟨3⟩ reason none])) edge ∧
      ((edge.projection.bill ⟨5⟩).any fun bill => decide (bill.state = .open ∧
        edge.projection.soldTotal bill < bill.discountMinor + bill.compMinor)) = true :=
    run_of_after (by decide +kernel)
  obtain ⟨bill, hbill, hproperty⟩ := (Option.any_eq_true _ _).1 hedge
  exact ⟨edge, bill, hrun, hbill, of_decide_eq_true hproperty⟩

theorem reductions_within_lines_reducedToNothing :
    ∃ edge bill, Run Trial.ids KeepsRoom .initial (Trial.inputs Trial.reducedToNothing)
        edge ∧
      edge.projection.bill ⟨7⟩ = some bill ∧ bill.state = .open ∧ bill.discountMinor = 3 ∧
      bill.discountMinor + bill.compMinor ≤ edge.projection.soldTotal bill := by
  have hexecute : (execute (step Trial.ids) keepsRoom
      (Trial.inputs Trial.reducedToNothing) .initial).any (fun edge =>
        (edge.projection.bill ⟨7⟩).any fun bill =>
          decide (bill.state = .open ∧ bill.discountMinor = 3)) = true := by
    decide +kernel
  obtain ⟨edge, hafter, hedge⟩ := (Option.any_eq_true _ _).1 hexecute
  have hrun := (run_of_execute hafter).mono keepsRoom_sound
  obtain ⟨bill, hbill, hproperty⟩ := (Option.any_eq_true _ _).1 hedge
  obtain ⟨hopen, hdiscount⟩ := of_decide_eq_true hproperty
  exact ⟨edge, bill, hrun, hbill, hopen, hdiscount,
    reductions_within_lines hrun ⟨7⟩ bill hbill hopen⟩

end PosFramework
