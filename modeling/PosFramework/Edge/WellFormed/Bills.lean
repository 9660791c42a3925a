import PosFramework.Core.Billing.Regroup.Proofs
import PosFramework.Edge.WellFormed

set_option autoImplicit false

/-! # Bill commands keep the ledger

Opening, splitting, merging, paying and voiding, each as its row in `Ledger.Step` says. -/

namespace PosFramework

open Fallible Projection Env List Ledger

variable {P P' : Projection} {bound bound' : Nat} {ids : Nat → Nat} {command : Command}

/-! ## Opening -/

variable {orderId : OrderId} {env : Env} {actor : Actor} {plan : Plan} {billId : BillId}
  {approval : Option Approval} {parts : List (List OrderLineId)} {absorbed : List BillId}
  {folded : List (BillId × BillRecord × BillState)} {openings : List BillingBillOpened}
  {reasonCodeId : ReasonCodeId} {lines : List OrderLineId} {target bill : BillRecord}
  {scope : TillScope}

/-- A bill of what the edge finds sold on an order without a bill. -/
theorem opens_of_unbilled {id : Nat} (hP : P.WellFormed bound) (hid : bound ≤ id)
    (hbill : P.billForOrder orderId = none) (hsold : P.soldLineIds orderId ≠ []) :
    P.ledger.Opens ⟨id⟩ ⟨orderId, .open, P.soldLineIds orderId⟩ where
  new := by
    rw [charge_ledger, bill_eq_none_of_le hP hid]
    rfl
  unbilled := unbilled_of_billForOrder hP.indexed hbill
  isOpen := rfl
  nonempty := hsold
  nodup := nodup_soldLineIds hP.indexed orderId
  mem_lines := fun _ => mem_soldLineIds hP.indexed

theorem order_lt_of_sold (hP : P.WellFormed bound) (hsold : P.soldLineIds orderId ≠ []) :
    orderId.ulid < bound := by
  obtain ⟨line, hline⟩ := exists_mem_of_ne_nil _ hsold
  obtain ⟨sale, hsale, rfl, _⟩ := (mem_soldLineIds hP.indexed).1 hline
  obtain ⟨record, hrecord, rfl⟩ := Option.map_eq_some_iff.1 hsale
  exact (hP.books.lines line record hrecord).2

theorem recordOpenedBill_frame {opened : BillingBillOpened} {table : Option TableId}
    {moved : Option (TableId × TableState)} :
    (recordOpenedBill P opened table moved).books =
        P.books.openBill opened.billId ⟨opened.orderId, .open, opened.orderLineIds⟩ ∧
      (recordOpenedBill P opened table moved).floor = P.floor := by
  have hbooks : (P.openBillRecord opened.billId (.opened opened table)).books =
      P.books.openBill opened.billId ⟨opened.orderId, .open, opened.orderLineIds⟩ :=
    books_openBillRecord
  cases moved <;> exact ⟨hbooks, rfl⟩

theorem accounted_openBillForOrder (hP : P.WellFormed bound)
    (hids : TakesIds ids bound plan.minted bound') (hcommand : command.opensBill = true)
    (hplan : env.openBillForOrder ids P actor orderId = .ok plan) (happly : plan.apply P = .ok P') :
    Accounted command bound' P P' := by
  obtain ⟨ctx, hbill, hsold, _, rfl⟩ := openBillForOrder_ok hplan
  obtain ⟨hbooks, hfloor⟩ : P'.books =
      P.books.openBill ⟨ids 0⟩ ⟨orderId, .open, P.soldLineIds orderId⟩ ∧ P'.floor = P.floor := by
    cases happly
    exact recordOpenedBill_frame
  have horder : orderId.ulid < bound' := (order_lt_of_sold hP hsold).trans_le hids.le
  refine ⟨hfloor ▸ hP.floor.mono hids.le, ?_, hbooks ▸ hP.indexed.openBill, ?_⟩
  · rw [hbooks]
    exact (hP.books.mono hids.le).openBill (hids.gone 0 (by dsimp only; decide)) horder
  · rw [show P'.ledger = P.ledger.issue ⟨ids 0⟩ _ from congrArg Books.ledger hbooks]
    exact .openBill hcommand (opens_of_unbilled hP (hids.new 0) hbill hsold)

/-! ## Moving a bill to another state -/

/-- A bill is written over with its lines as they are. -/
theorem accounted_setCharge {record : BillRecord} {charge : Charge} (hP : P.WellFormed bound)
    (hle : bound ≤ bound') (hbill : P.bill billId = some record)
    (hbooks : P'.books = P.books.setCharge billId charge) (horder : charge.orderId = record.orderId)
    (hfloor : P'.floor = P.floor) (hstep : P.ledger.Step command (P.ledger.issue billId charge)) :
    Accounted command bound' P P' where
  floor := hfloor ▸ hP.floor.mono hle
  books := hbooks ▸ (hP.books.mono hle).setCharge (charge_of_bill hbill) horder
  indexed := hbooks ▸ hP.indexed.setCharge (charge_of_bill hbill) horder
  step := by
    have hledger : P'.ledger = P.ledger.issue billId charge := congrArg Books.ledger hbooks
    rwa [hledger]

theorem accounted_of_sameFaces (hP : P.WellFormed bound) (hle : bound ≤ bound')
    (hquiet : command.leavesLedger = true) (h : P.SameFaces P') : Accounted command bound' P P' :=
  accounted_of_books_eq hP hle hquiet h.books_eq (h.floor_eq ▸ hP.floor.mono hle)

theorem accounted_settleBill {payments : List Payment} {hasBuyer : Bool}
    (hP : P.WellFormed bound) (hle : bound ≤ bound')
    (hplan : env.settleBill ids P actor scope billId payments hasBuyer approval = .ok plan)
    (happly : plan.apply P = .ok P') :
    Accounted (.settleBill actor scope billId payments hasBuyer approval) bound' P P' := by
  obtain ⟨_, ctx, drawer, proved, receiptNumber, reductionTotal, _, _, settled, _, _, hproved, _,
    rfl, _, _, rfl⟩ := settleBill_ok hplan
  obtain ⟨record, hbill, hopen, _⟩ := proveSettle_ok hproved
  obtain ⟨hbooks, hfloor⟩ := foldSettled_frame hbill happly
  exact accounted_setCharge hP hle hbill hbooks rfl hfloor
    (.settleBill (charge_of_bill hbill) hopen)

theorem accounted_voidBill (hP : P.WellFormed bound) (hle : bound ≤ bound')
    (hplan : env.voidBill ids P actor billId reasonCodeId approval = .ok plan)
    (happly : plan.apply P = .ok P') :
    Accounted (.voidBill actor billId reasonCodeId approval) bound' P P' := by
  obtain ⟨ctx, record, approver, payloads, hbill, hopen, _, rfl⟩ := voidBill_ok hplan
  cases happly
  obtain ⟨hbooks, hfloor⟩ := voidBillRecord_frame hbill
  exact accounted_setCharge hP hle hbill hbooks rfl hfloor
    (.voidBill (charge_of_bill hbill) hopen)

theorem accounted_voidSettledBill
    (hP : P.WellFormed bound) (hle : bound ≤ bound')
    (hplan : env.voidSettledBill ids P actor scope billId reasonCodeId approval = .ok plan)
    (happly : plan.apply P = .ok P') :
    Accounted (.voidSettledBill actor scope billId reasonCodeId approval) bound' P P' := by
  obtain ⟨_, ctx, record, approver, drawer, payloads, hbill, hsettled, _, _, rfl⟩ :=
    voidSettledBill_ok hplan
  obtain ⟨hbooks, hfloor⟩ := voidSettledRecord_frame hbill happly
  exact accounted_setCharge hP hle hbill hbooks rfl hfloor
    (.voidSettledBill (charge_of_bill hbill) hsettled)

/-! ## Splitting -/

section Split

variable {orderId : OrderId} {parts : List (List OrderLineId)} {rules : List (List FrozenFee)}

theorem length_partOpenings (hlen : rules.length = parts.length) :
    (partOpenings ids orderId parts rules).length = parts.length := by
  simp [partOpenings, hlen]

theorem partOpenings_lines (hlen : rules.length = parts.length) :
    (partOpenings ids orderId parts rules).map (·.orderLineIds) = parts := by
  refine ext_getElem (by simp [length_partOpenings hlen]) fun i hi hi' => ?_
  simp [partOpenings]

theorem partOpenings_ids (hlen : rules.length = parts.length) :
    (partOpenings ids orderId parts rules).map (·.billId) =
      (range parts.length).map fun i => ⟨ids i⟩ := by
  refine ext_getElem (by simp [length_partOpenings hlen]) fun i hi hi' => ?_
  simp [partOpenings]

theorem mem_partOpenings {opening : BillingBillOpened}
    (h : opening ∈ partOpenings ids orderId parts rules) :
    opening.orderId = orderId ∧ ∃ i < parts.length, opening.billId = ⟨ids i⟩ := by
  obtain ⟨i, hi, rfl⟩ := mem_mapIdx.1 h
  refine ⟨rfl, i, ?_, rfl⟩
  simp only [length_zip] at hi
  omega

/-- An opening as its bill's charge. -/
def BillingBillOpened.charge (opening : BillingBillOpened) : Charge :=
  ⟨opening.orderId, .open, opening.orderLineIds⟩

/-- Bills are opened one after another. -/
theorem openings_accounted {tableId : Option TableId}
    (hbooks : P.books.Below bound) (hindexed : P.books.Indexed)
    (hlt : ∀ opening ∈ openings, opening.billId.ulid < bound ∧ opening.orderId.ulid < bound) :
    let Q := openings.foldl
      (fun P opening => P.openBillRecord opening.billId (.opened opening tableId)) P
    Q.floor = P.floor ∧ Q.books.Below bound ∧ Q.books.Indexed ∧
      Q.ledger =
        P.ledger.issueAll (openings.map fun opening => (opening.billId, opening.charge)) := by
  induction openings generalizing P with
  | nil => exact ⟨rfl, hbooks, hindexed, rfl⟩
  | cons first rest ih =>
    have hone : (P.openBillRecord first.billId (.opened first tableId)).books =
        P.books.openBill first.billId first.charge := books_openBillRecord
    obtain ⟨hid, horder⟩ := hlt first mem_cons_self
    obtain ⟨hfloor, hbelow, hidx, hledger⟩ :=
      ih (P := P.openBillRecord first.billId (.opened first tableId))
        (hone ▸ hbooks.openBill hid horder) (hone ▸ hindexed.openBill)
        fun opening hopening => hlt opening (mem_cons_of_mem _ hopening)
    refine ⟨hfloor, hbelow, hidx, hledger.trans ?_⟩
    rw [show (P.openBillRecord first.billId (.opened first tableId)).ledger =
      P.ledger.issue first.billId first.charge from congrArg Books.ledger hone]
    rfl

end Split

/-- A bill moves to a state, where it is there. -/
theorem setBillState_accounted {state : BillState} (hbooks : P.books.Below bound)
    (hindexed : P.books.Indexed) :
    let Q := P.setBillState billId state
    Q.floor = P.floor ∧ Q.books.Below bound ∧ Q.books.Indexed ∧
      Q.ledger = P.ledger.restate billId state := by
  cases hbill : P.bill billId with
  | none =>
    have hsame : P.setBillState billId state = P := by
      simp only [setBillState, hbill]
    have hledger : P.ledger.restate billId state = P.ledger := by
      have hcharge : P.ledger.charge billId = none := by
        rw [charge_ledger, hbill]
        rfl
      rw [restate, hcharge, Option.map_none, ← hcharge, Function.update_eq_self]
    rw [hsame, hledger]
    exact ⟨rfl, hbooks, hindexed, rfl⟩
  | some =>
    have heq : (P.setBillState billId state).books = _ := books_setBillState hbill
    have hcharge := charge_of_bill hbill
    refine ⟨floor_setBillState, heq ▸ hbooks.setCharge hcharge rfl,
      heq ▸ hindexed.setCharge hcharge rfl, (congrArg Books.ledger heq).trans ?_⟩
    rw [restate, hcharge]
    rfl

/-- The parts of an open bill whose lines they share out. -/
theorem splits_of_openings
    (hbill : P.bill billId = some bill) (hopen : bill.state = .open)
    (hnew : ∀ opening ∈ openings, P.bill opening.billId = none)
    (hnodup : (openings.map (·.billId)).Nodup)
    (horder : ∀ opening ∈ openings, opening.orderId = bill.orderId)
    (hne : ∀ opening ∈ openings, opening.orderLineIds ≠ [])
    (hdealt : (openings.map (·.orderLineIds)).flatten.Perm bill.orderLineIds) :
    P.ledger.Splits billId bill.charge
      (openings.map fun opening => (opening.billId, opening.charge)) where
  source := charge_of_bill hbill
  isOpen := hopen
  new := by
    intro entry hentry
    obtain ⟨opening, hopening, rfl⟩ := mem_map.1 hentry
    rw [charge_ledger, hnew opening hopening]
    rfl
  nodup := by rwa [map_map]
  partsOpen := by
    intro entry hentry
    obtain ⟨opening, _, rfl⟩ := mem_map.1 hentry
    rfl
  order := by
    intro entry hentry
    obtain ⟨opening, hopening, rfl⟩ := mem_map.1 hentry
    exact horder opening hopening
  nonempty := by
    intro entry hentry
    obtain ⟨opening, hopening, rfl⟩ := mem_map.1 hentry
    exact hne opening hopening
  dealt := by
    rw [map_map]
    exact hdealt

/-- What an accepted split opens: under new ids of their own, bills of the source's order that share
    out its lines, none of them empty. -/
structure SplitPlan (ids : Nat → Nat) (P : Projection) (billId : BillId)
    (parts : List (List OrderLineId)) (bill : BillRecord) (openings : List BillingBillOpened) :
    Prop where
  source : P.bill billId = some bill
  isOpen : bill.state = .open
  lines : openings.map (·.orderLineIds) = parts
  ids : openings.map (·.billId) = (range parts.length).map fun i => ⟨ids i⟩
  nodup : (openings.map (·.billId)).Nodup
  order : ∀ opening ∈ openings, opening.orderId = bill.orderId
  new : ∀ opening ∈ openings, P.bill opening.billId = none
  nonempty : ∀ part ∈ parts, part ≠ []
  dealt : parts.flatten.Perm bill.orderLineIds

theorem splitPlan_of_splitBill (hP : P.WellFormed bound)
    (hids : TakesIds ids bound plan.minted bound')
    (hplan : env.splitBill ids P actor billId parts = .ok plan) :
    ∃ ctx bill openings payloads, SplitPlan ids P billId parts bill openings ∧
      payloads = openings.map Payload.billingBillOpened ++
        [.billingBillSplit billId (openings.map (·.billId))] ∧
      plan =
        { events := prepareAll ctx (idsFrom ids parts.length) P.currentShiftId payloads
          minted := parts.length + payloads.length
          apply := fun P => applySplit P billId bill.tableId openings .split } := by
  obtain ⟨ctx, bill, rules, openings, payloads, hbill, hopen, hparts, hrules, hopenings, hpayloads,
    hplan⟩ := splitBill_ok hplan
  obtain ⟨_, hne, hdealt⟩ := checkPartition_ok hparts
  rw [coveredLines_of_active hP hbill (.inl hopen)] at hdealt
  have hlen : rules.length = parts.length := by
    rw [length_splitFeeRules hrules, partLines, length_map]
  have hopening : ∀ opening ∈ openings, opening.orderId = bill.orderId ∧
      ∃ i < parts.length, opening.billId = ⟨ids i⟩ :=
    fun opening h => mem_partOpenings (hopenings ▸ h)
  have hpartIds : openings.map (·.billId) = (range parts.length).map fun i => ⟨ids i⟩ := by
    rw [hopenings, partOpenings_ids hlen]
  refine ⟨ctx, bill, openings, payloads, ⟨hbill, hopen, ?_, hpartIds, ?_, ?_, ?_, hne, hdealt⟩,
    hpayloads, hplan⟩
  · rw [hopenings, partOpenings_lines hlen]
  · rw [hpartIds]
    refine nodup_range.map fun i j hij => ?_
    exact hids.increasing.injective (congrArg ResourceId.ulid hij)
  · exact fun opening h => (hopening opening h).1
  · intro opening h
    obtain ⟨_, i, _, hid⟩ := hopening opening h
    rw [hid]
    exact bill_eq_none_of_le hP (hids.new i)

theorem SplitPlan.splits
    (h : SplitPlan ids P billId parts bill openings) :
    P.ledger.Splits billId bill.charge
      (openings.map fun opening => (opening.billId, opening.charge)) := by
  refine splits_of_openings h.source h.isOpen h.new h.nodup h.order (fun opening hopening => ?_) ?_
  · exact h.nonempty _ (h.lines ▸ mem_map_of_mem hopening)
  · rw [h.lines]
    exact h.dealt

theorem accounted_splitBill (hP : P.WellFormed bound) (hids : TakesIds ids bound plan.minted bound')
    (hplan : env.splitBill ids P actor billId parts = .ok plan) (happly : plan.apply P = .ok P') :
    Accounted (.splitBill actor billId parts) bound' P P' := by
  obtain ⟨ctx, bill, openings, payloads, hsplit, _, rfl⟩ := splitPlan_of_splitBill hP hids hplan
  have hsplits := hsplit.splits
  -- the parts open
  simp only [applySplit, bind_eq_ok, pure_eq_ok] at happly
  obtain ⟨reduced, hreduced, rfl⟩ := happly
  let Q := openings.foldl
    (fun P opening => P.openBillRecord opening.billId (.opened opening bill.tableId)) P
  obtain ⟨hQfloor, hQbooks, hQindexed, hQledger⟩ : Q.floor = P.floor ∧ Q.books.Below bound' ∧
      Q.books.Indexed ∧ Q.ledger = P.ledger.issueAll
        (openings.map fun opening => (opening.billId, opening.charge)) := by
    refine openings_accounted (hP.books.mono hids.le) hP.indexed fun opening h => ?_
    have hmem : opening.billId ∈ (range parts.length).map fun i => (⟨ids i⟩ : BillId) :=
      hsplit.ids ▸ mem_map_of_mem h
    obtain ⟨i, hi, hid⟩ := mem_map.1 hmem
    rw [hsplit.order opening h, ← hid]
    exact ⟨hids.gone i (by have := mem_range.1 hi; dsimp only; omega),
      (hP.books.charges billId _ hsplits.source).2.trans_le hids.le⟩
  -- they take their shares, which the books do not see, and their source is split
  have hsame : Q.SameFaces reduced :=
    sameFaces_inheritFees.trans (sameFaces_inheritReductions hreduced)
  obtain ⟨hfloor, hbooks, hindexed, hledger⟩ := setBillState_accounted (P := reduced)
    (hsame.books_eq ▸ hQbooks) (hsame.books_eq ▸ hQindexed)
  refine ⟨?_, hbooks, hindexed, ?_⟩
  · rw [hfloor, hsame.floor_eq, hQfloor]
    exact hP.floor.mono hids.le
  · rw [hledger, show reduced.ledger = Q.ledger from congrArg Books.ledger hsame.books_eq, hQledger,
      restate_issueAll]
    · exact .splitBill hsplits
    · intro entry hentry heq
      have hnone := hsplits.new entry hentry
      rw [← heq, hsplits.source] at hnone
      contradiction

/-! ## Merging -/

theorem mem_sortedLines {line : OrderLineId} : line ∈ sortedLines lines ↔ line ∈ lines := by
  rw [sortedLines, mem_dedup, mem_insertionSort]

theorem nodup_sortedLines (lines : List OrderLineId) : (sortedLines lines).Nodup :=
  nodup_dedup _

/-- What a merge finds of the bills it absorbs. -/
structure Absorbable (P : Projection) (billId : BillId) (target : BillRecord)
    (entry : BillId × BillRecord × BillState) : Prop where
  other : entry.1 ≠ billId
  bill : P.bill entry.1 = some entry.2.1
  order : entry.2.1.orderId = target.orderId
  isOpen : entry.2.1.state = .open
  next : entry.2.2 = .merged

theorem absorbable_of_mapM {ctx : DecisionCtx}
    (h : absorbed.mapM (decideAbsorbed P ctx billId target) = .ok folded) :
    folded.map (·.1) = absorbed ∧ ∀ entry ∈ folded, Absorbable P billId target entry := by
  constructor
  · have hkeys := map_eq_of_mapM (fun a => a) (·.1) h fun a _ entry hentry => by
      obtain ⟨_, _, _, _, _, _, rfl⟩ := decideAbsorbed_ok hentry
      rfl
    rwa [map_id'] at hkeys
  · intro entry hentry
    obtain ⟨a, _, hdecide⟩ := exists_of_mem_mapM h hentry
    obtain ⟨hne, record, hbill, _, horder, hopen, rfl⟩ := decideAbsorbed_ok hdecide
    exact ⟨hne, hbill, horder, hopen, rfl⟩

/-- The absorbed bills move to their state and give up their lines. -/
theorem absorb_accounted (hbooks : P.books.Below bound)
    (hindexed : P.books.Indexed) (hnext : ∀ entry ∈ folded, entry.2.2 = .merged)
    (hlines : ∀ entry ∈ folded, entry.2.1.orderLineIds ≠ []) :
    let Q := folded.foldl absorb (P, lines)
    Q.1.floor = P.floor ∧ Q.1.books.Below bound ∧ Q.1.books.Indexed ∧
      Q.1.ledger = P.ledger.restateAll (folded.map (·.1)) .merged ∧
      Q.2 = lines ++ folded.flatMap (·.2.1.orderLineIds) := by
  induction folded generalizing P lines with
  | nil => exact ⟨rfl, hbooks, hindexed, rfl, (append_nil lines).symm⟩
  | cons first rest ih =>
    have hfirst := hnext first mem_cons_self
    have hcovered : P.coveredLines first.2.1 = first.2.1.orderLineIds := by
      rw [coveredLines, if_neg (hlines first mem_cons_self)]
    obtain ⟨hfloor, hbelow, hidx, hledger⟩ :
        let Q := P.setBillState first.1 first.2.2
        Q.floor = P.floor ∧ Q.books.Below bound ∧ Q.books.Indexed ∧
          Q.ledger = P.ledger.restate first.1 first.2.2 :=
      setBillState_accounted hbooks hindexed
    obtain ⟨hfloor', hbelow', hidx', hledger', hlines'⟩ :=
      ih (P := P.setBillState first.1 first.2.2) hbelow hidx
        (fun entry h => hnext entry (mem_cons_of_mem _ h))
        fun entry h => hlines entry (mem_cons_of_mem _ h)
    refine ⟨hfloor'.trans hfloor, hbelow', hidx', ?_, ?_⟩
    · refine hledger'.trans ?_
      rw [hledger, hfirst]
      rfl
    · refine hlines'.trans ?_
      rw [hcovered, flatMap_cons, append_assoc]

/-- Open bills of one order, as a merge finds them. -/
theorem merges_of_absorbable (hbill : P.bill billId = some target)
    (hopen : target.state = .open) (hkeys : folded.map (·.1) = absorbed)
    (habsorbable : ∀ entry ∈ folded, Absorbable P billId target entry) :
    P.ledger.Merges billId absorbed target.charge (sortedLines
      (target.orderLineIds ++ folded.flatMap (·.2.1.orderLineIds))) where
  target := charge_of_bill hbill
  isOpen := hopen
  other := by
    rw [← hkeys]
    intro hmem
    obtain ⟨entry, hentry, heq⟩ := mem_map.1 hmem
    exact (habsorbable entry hentry).other heq
  absorbedOpen := by
    rw [← hkeys]
    intro a ha
    obtain ⟨entry, hentry, rfl⟩ := mem_map.1 ha
    obtain ⟨_, hentryBill, horder, hentryOpen, _⟩ := habsorbable entry hentry
    exact ⟨_, charge_of_bill hentryBill, hentryOpen, horder⟩
  nodup := nodup_sortedLines _
  mem_lines := by
    intro line
    rw [mem_sortedLines, mem_append, mem_flatMap, ← hkeys]
    refine or_congr_right ⟨?_, ?_⟩
    · rintro ⟨entry, hentry, hline⟩
      obtain ⟨_, hentryBill, _, hentryOpen, _⟩ := habsorbable entry hentry
      exact ⟨entry.1, mem_map_of_mem hentry,
        (mem_held_of_bill hentryBill (.inl hentryOpen)).2 hline⟩
    · rintro ⟨a, ha, hline⟩
      obtain ⟨entry, hentry, rfl⟩ := mem_map.1 ha
      obtain ⟨_, hentryBill, _, hentryOpen, _⟩ := habsorbable entry hentry
      exact ⟨entry, hentry, (mem_held_of_bill hentryBill (.inl hentryOpen)).1 hline⟩

theorem accounted_mergeBills (hP : P.WellFormed bound) (hle : bound ≤ bound')
    (hplan : env.mergeBills ids P actor billId absorbed = .ok plan)
    (happly : plan.apply P = .ok P') :
    Accounted (.mergeBills actor billId absorbed) bound' P P' := by
  obtain ⟨ctx, target, folded, fees, hbill, hopen, hfolded, _, rfl⟩ := mergeBills_ok hplan
  obtain ⟨hkeys, habsorbable⟩ := absorbable_of_mapM hfolded
  have hmerges := merges_of_absorbable hbill hopen hkeys habsorbable
  have hcovered := coveredLines_of_active hP hbill (.inl hopen)
  -- the absorbed bills give up their lines
  let Q := folded.foldl absorb (P, P.coveredLines target)
  obtain ⟨hQfloor, hQbooks, hQindexed, hQledger, hQlines⟩ :
      Q.1.floor = P.floor ∧ Q.1.books.Below bound' ∧ Q.1.books.Indexed ∧
        Q.1.ledger = P.ledger.restateAll (folded.map (·.1)) .merged ∧
        Q.2 = P.coveredLines target ++ folded.flatMap (·.2.1.orderLineIds) := by
    refine absorb_accounted (hP.books.mono hle) hP.indexed
      (fun entry hentry => (habsorbable entry hentry).next) fun entry hentry => ?_
    obtain ⟨_, hentryBill, _, hentryOpen, _⟩ := habsorbable entry hentry
    exact (hP.sound.holds _ _ (charge_of_bill hentryBill) (.inl hentryOpen)).nonempty
  rw [hkeys] at hQledger
  rw [hcovered] at hQlines
  -- the target, which is none of them, takes them
  obtain ⟨record, hrecord, hrecordCharge⟩ : ∃ record, Q.1.bill billId = some record ∧
      record.charge = target.charge := by
    refine Option.map_eq_some_iff.1 (show Q.1.ledger.charge billId = some target.charge from ?_)
    rw [hQledger, charge_restateAll hmerges.other, hmerges.target]
  let taken := Q.1.setBillLines billId (sortedLines Q.2)
  have htaken : taken.books = Q.1.books.setCharge billId
      { target.charge with
        lines := sortedLines
          (target.orderLineIds ++ folded.flatMap (·.2.1.orderLineIds)) } := by
    rw [← hQlines, ← hrecordCharge]
    exact books_updateBill hrecord _
  have hsame : taken.SameFaces P' :=
    sameFaces_setMergedFees.trans (sameFaces_absorbReductions happly)
  have hcharge : Q.1.books.charge billId = some record.charge := charge_of_bill hrecord
  have horder : target.charge.orderId = record.charge.orderId := by rw [hrecordCharge]
  refine ⟨?_, ?_, ?_, ?_⟩
  · rw [hsame.floor_eq, show taken.floor = Q.1.floor from rfl, hQfloor]
    exact hP.floor.mono hle
  · rw [hsame.books_eq, htaken]
    exact hQbooks.setCharge hcharge horder
  · rw [hsame.books_eq, htaken]
    exact hQindexed.setCharge hcharge horder
  · rw [show P'.ledger = Q.1.ledger.issue billId _ from
      congrArg Books.ledger (hsame.books_eq.trans htaken), hQledger]
    exact .mergeBills hmerges

end PosFramework
