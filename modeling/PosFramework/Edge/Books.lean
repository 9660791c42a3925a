import PosFramework.Edge.Ledger
import PosFramework.Edge.Projection.Bills

set_option autoImplicit false

/-! # The projection's books

The part of the projection that the ledger is read from, with the indexes it is searched by: the
lines and each order's lines, the bills and each order's bills. Most of what a command changes lies
outside it. Beside it stands the floor, the tables and the orders they point at.

The books are kept in order: every id in them was taken before, an order's index lists its lines,
and every bill is listed by its order. -/

namespace PosFramework

open Fallible Keyed Option Function LineRecord

/-- What the ledger keeps of a line. -/
def LineRecord.sale (line : LineRecord) : Sale where
  orderId := line.orderId
  quantity := line.quantity
  unitPrice := line.unitPrice
  lineTotal := line.lineTotal
  sold := line.isSold

/-- What the ledger keeps of a bill. -/
def BillRecord.charge (bill : BillRecord) : Charge where
  orderId := bill.orderId
  state := bill.state
  lines := bill.orderLineIds

/-- A bill apart from what was taken off it and from its fees. -/
def BillRecord.face (bill : BillRecord) : BillRecord :=
  { bill with discount := none, comp := none, feeRules := [], feeWholes := [], waivedFeeIds := [] }

/-! ## The floor -/

/-- The orders and the tables that point at them. -/
structure Floor where
  orders : Std.ExtTreeMap OrderId OrderOrigin
  tableOrders : Std.ExtTreeMap TableId OrderId

namespace Floor

/-- Every order of the floor was taken before. -/
structure Below (F : Floor) (bound : Nat) : Prop where
  orders : ∀ (orderId : OrderId) (origin : OrderOrigin),
    F.orders[orderId]? = some origin → orderId.ulid < bound
  tables : ∀ (tableId : TableId) (orderId : OrderId),
    F.tableOrders[tableId]? = some orderId → orderId.ulid < bound

theorem Below.mono {F : Floor} {bound bound' : Nat} (h : F.Below bound) (hle : bound ≤ bound') :
    F.Below bound' where
  orders := fun orderId origin horigin => (h.orders orderId origin horigin).trans_le hle
  tables := fun tableId orderId htable => (h.tables tableId orderId htable).trans_le hle

end Floor

/-! ## The books -/

/-- The lines and the bills, with their indexes. -/
structure Books where
  lines : Std.ExtTreeMap OrderLineId LineRecord
  orderLines : Std.ExtTreeMap OrderId (List OrderLineId)
  orderBillIds : Std.ExtTreeMap OrderId (List BillId)
  charge : BillId → Option Charge

namespace Books

def lineIndex (B : Books) (orderId : OrderId) : List OrderLineId := B.orderLines[orderId]?.getD []

def billIndex (B : Books) (orderId : OrderId) : List BillId := B.orderBillIds[orderId]?.getD []

/-- The ledger of the books. -/
def ledger (B : Books) : Ledger where
  sale := fun line => B.lines[line]?.map sale
  charge := B.charge

def addLine (B : Books) (lineId : OrderLineId) (record : LineRecord) : Books :=
  { B with
    lines := B.lines.insert lineId record
    orderLines := B.orderLines.insert record.orderId
      (insertSorted lineId (B.lineIndex record.orderId)) }

/-- Write a line that is there already. -/
def setLine (B : Books) (lineId : OrderLineId) (record : LineRecord) : Books :=
  { B with lines := B.lines.insert lineId record }

def mergeOrder (B : Books) (target merged : OrderId) : Books :=
  { B with
    lines := (B.lineIndex merged).foldl
      (fun lines id => lines.modify id fun record => { record with orderId := target }) B.lines
    orderLines := (B.orderLines.erase merged).insert target
      (unionSorted ((B.orderLines.erase merged)[target]?.getD []) (B.lineIndex merged)) }

def openBill (B : Books) (billId : BillId) (charge : Charge) : Books :=
  let ids := B.billIndex charge.orderId
  { B with
    orderBillIds := B.orderBillIds.insert charge.orderId
      (if billId ∈ ids then ids else ids ++ [billId])
    charge := update B.charge billId (some charge) }

/-- Write a bill that is there already. -/
def setCharge (B : Books) (billId : BillId) (charge : Charge) : Books :=
  { B with charge := update B.charge billId (some charge) }

/-! ## Books in order -/

/-- Every line, bill and order of the books was taken before. -/
structure Below (B : Books) (bound : Nat) : Prop where
  lines : ∀ (lineId : OrderLineId) (record : LineRecord), B.lines[lineId]? = some record →
    lineId.ulid < bound ∧ record.orderId.ulid < bound
  charges : ∀ (billId : BillId) (charge : Charge), B.charge billId = some charge →
    billId.ulid < bound ∧ charge.orderId.ulid < bound

/-- The indexes list what they should. -/
structure Indexed (B : Books) : Prop where
  mem_lineIndex : ∀ (orderId : OrderId) (lineId : OrderLineId),
    lineId ∈ B.lineIndex orderId ↔
      ∃ record, B.lines[lineId]? = some record ∧ record.orderId = orderId
  nodup_lineIndex : ∀ orderId : OrderId, (B.lineIndex orderId).Nodup
  mem_billIndex : ∀ (billId : BillId) (charge : Charge), B.charge billId = some charge →
    billId ∈ B.billIndex charge.orderId

theorem Below.mono {B : Books} {bound bound' : Nat} (h : B.Below bound) (hle : bound ≤ bound') :
    B.Below bound' where
  lines := fun lineId record hline =>
    ⟨(h.lines lineId record hline).1.trans_le hle, (h.lines lineId record hline).2.trans_le hle⟩
  charges := fun billId charge hcharge =>
    ⟨(h.charges billId charge hcharge).1.trans_le hle,
      (h.charges billId charge hcharge).2.trans_le hle⟩

variable {B : Books} {bound : Nat}

/-! ## Writing a line -/

section Lines

variable {lineId : OrderLineId} {record old : LineRecord}

theorem lineIndex_addLine (orderId : OrderId) :
    (B.addLine lineId record).lineIndex orderId =
      if record.orderId = orderId then insertSorted lineId (B.lineIndex orderId)
      else B.lineIndex orderId := by
  simp only [lineIndex, addLine, get_insert]
  split
  · next horder =>
    rw [horder]
    rfl
  · rfl

theorem ledger_addLine : (B.addLine lineId record).ledger = B.ledger.sell lineId record.sale := by
  simp only [ledger, addLine, Ledger.sell, Ledger.mk.injEq, and_true]
  exact read_eq_update B.lines (Option.map sale) (get_insert _ lineId · record)

theorem ledger_setLine : (B.setLine lineId record).ledger = B.ledger.sell lineId record.sale :=
  ledger_addLine (B := B)

theorem Below.addLine (hB : B.Below bound) (hline : lineId.ulid < bound)
    (horder : record.orderId.ulid < bound) : (B.addLine lineId record).Below bound where
  lines := by
    intro other record' hother
    simp only [Books.addLine, get_insert] at hother
    by_cases heq : lineId = other
    · subst heq
      rw [if_pos rfl] at hother
      obtain rfl := some.inj hother
      exact ⟨hline, horder⟩
    · rw [if_neg heq] at hother
      exact hB.lines other record' hother
  charges := hB.charges

theorem Below.setLine (hB : B.Below bound) (hold : B.lines[lineId]? = some old)
    (horder : record.orderId = old.orderId) : (B.setLine lineId record).Below bound := by
  obtain ⟨hline, hlt⟩ := hB.lines lineId old hold
  exact ⟨(hB.addLine hline (horder ▸ hlt)).lines, hB.charges⟩

theorem Indexed.addLine (hB : B.Indexed) (hnew : B.lines[lineId]? = none) :
    (B.addLine lineId record).Indexed where
  mem_lineIndex := by
    intro orderId other
    rw [lineIndex_addLine]
    simp only [Books.addLine, get_insert]
    by_cases heq : lineId = other
    · -- the new line is on its own order and on no other
      subst heq
      have hnot : lineId ∉ B.lineIndex orderId := by
        rw [hB.mem_lineIndex]
        rintro ⟨old, hold, _⟩
        rw [hnew] at hold
        contradiction
      by_cases horder : record.orderId = orderId
      · simp [horder]
      · simp [horder, hnot]
    · have hmem : other ∈ insertSorted lineId (B.lineIndex orderId) ↔
          other ∈ B.lineIndex orderId := by simp [Ne.symm heq]
      simp only [if_neg heq, apply_ite (other ∈ ·), hmem, ite_self]
      exact hB.mem_lineIndex orderId other
  nodup_lineIndex := by
    intro orderId
    rw [lineIndex_addLine]
    split
    · exact nodup_insertSorted (hB.nodup_lineIndex orderId)
    · exact hB.nodup_lineIndex orderId
  mem_billIndex := hB.mem_billIndex

theorem Indexed.setLine (hB : B.Indexed) (hold : B.lines[lineId]? = some old)
    (horder : record.orderId = old.orderId) : (B.setLine lineId record).Indexed where
  mem_lineIndex := by
    intro orderId other
    show other ∈ B.lineIndex orderId ↔ _
    rw [hB.mem_lineIndex]
    simp only [Books.setLine, get_insert]
    by_cases heq : lineId = other
    · subst heq
      simp [hold, horder]
    · rw [if_neg heq]
  nodup_lineIndex := hB.nodup_lineIndex
  mem_billIndex := hB.mem_billIndex

end Lines

/-! ## Joining two orders -/

section Merge

variable {target merged : OrderId}

theorem lines_mergeOrder (hB : B.Indexed) (lineId : OrderLineId) :
    (B.mergeOrder target merged).lines[lineId]? = B.lines[lineId]?.map fun record =>
      if record.orderId = merged then { record with orderId := target } else record := by
  simp only [mergeOrder, get_foldl_modify (hB.nodup_lineIndex merged), hB.mem_lineIndex]
  cases hline : B.lines[lineId]? with
  | none => simp
  | some record =>
    by_cases horder : record.orderId = merged
    · simp [horder]
    · simp [horder]

theorem lineIndex_mergeOrder (hne : target ≠ merged) (orderId : OrderId) :
    (B.mergeOrder target merged).lineIndex orderId =
      if orderId = target then unionSorted (B.lineIndex target) (B.lineIndex merged)
      else if orderId = merged then [] else B.lineIndex orderId := by
  simp only [lineIndex, mergeOrder, get_insert, get_erase, if_neg hne.symm]
  split
  · next htarget =>
    rw [if_pos htarget.symm]
    rfl
  · next htarget =>
    rw [if_neg (Ne.symm htarget)]
    split
    · next hmerged =>
      rw [if_pos hmerged.symm]
      rfl
    · next hmerged =>
      rw [if_neg (Ne.symm hmerged)]

theorem ledger_mergeOrder (hB : B.Indexed) :
    (B.mergeOrder target merged).ledger = B.ledger.move merged target := by
  simp only [ledger, Ledger.move, Ledger.mk.injEq]
  refine ⟨funext fun lineId => ?_, rfl⟩
  rw [lines_mergeOrder hB, map_map, map_map]
  congr 1
  funext record
  by_cases horder : record.orderId = merged
  · simp [sale, horder, isSold]
  · simp [sale, horder]

theorem Below.mergeOrder (hB : B.Below bound) (hindexed : B.Indexed)
    (htarget : target.ulid < bound) :
    (B.mergeOrder target merged).Below bound where
  lines := by
    intro lineId record hline
    rw [lines_mergeOrder hindexed] at hline
    obtain ⟨old, hold, rfl⟩ := map_eq_some_iff.1 hline
    obtain ⟨hlt, horder⟩ := hB.lines lineId old hold
    refine ⟨hlt, ?_⟩
    split
    · exact htarget
    · exact horder
  charges := hB.charges

theorem Indexed.mergeOrder (hB : B.Indexed) (hne : target ≠ merged) :
    (B.mergeOrder target merged).Indexed where
  mem_lineIndex := by
    intro orderId lineId
    rw [lineIndex_mergeOrder hne, lines_mergeOrder hB]
    simp only [map_eq_some_iff, exists_exists_and_eq_and]
    by_cases htarget : orderId = target
    · -- the target's index takes the merged order's lines
      subst htarget
      rw [if_pos rfl, mem_unionSorted, hB.mem_lineIndex, hB.mem_lineIndex]
      constructor
      · rintro (⟨record, hline, horder⟩ | ⟨record, hline, horder⟩)
        · exact ⟨record, hline, by rw [if_neg (by rwa [horder]), horder]⟩
        · exact ⟨record, hline, by rw [if_pos horder]⟩
      · rintro ⟨record, hline, horder⟩
        by_cases hmerged : record.orderId = merged
        · exact .inr ⟨record, hline, hmerged⟩
        · rw [if_neg hmerged] at horder
          exact .inl ⟨record, hline, horder⟩
    · rw [if_neg htarget]
      by_cases hmerged : orderId = merged
      · subst hmerged
        rw [if_pos rfl]
        constructor
        · intro hmem
          contradiction
        · rintro ⟨record, _, horder⟩
          split at horder
          · exact absurd horder hne
          · next heq =>
            exact absurd horder heq
      · rw [if_neg hmerged, hB.mem_lineIndex]
        refine exists_congr fun record => and_congr_right fun _ => ?_
        split
        · next heq =>
          rw [heq]
          exact ⟨fun h => absurd h.symm hmerged, fun h => absurd h.symm htarget⟩
        · rfl
  nodup_lineIndex := by
    intro orderId
    rw [lineIndex_mergeOrder hne]
    split
    · exact nodup_unionSorted (hB.nodup_lineIndex target)
    · split
      · exact List.nodup_nil
      · exact hB.nodup_lineIndex orderId
  mem_billIndex := hB.mem_billIndex

end Merge

/-! ## Writing a bill -/

section Bills

variable {billId : BillId} {charge old : Charge}

theorem Below.openBill (hB : B.Below bound) (hbill : billId.ulid < bound)
    (horder : charge.orderId.ulid < bound) : (B.openBill billId charge).Below bound where
  lines := hB.lines
  charges := by
    intro other charge' hother
    simp only [Books.openBill, update_apply] at hother
    by_cases heq : other = billId
    · subst heq
      rw [if_pos rfl] at hother
      obtain rfl := some.inj hother
      exact ⟨hbill, horder⟩
    · rw [if_neg heq] at hother
      exact hB.charges other charge' hother

theorem Below.setCharge (hB : B.Below bound) (hold : B.charge billId = some old)
    (horder : charge.orderId = old.orderId) : (B.setCharge billId charge).Below bound := by
  obtain ⟨hbill, hlt⟩ := hB.charges billId old hold
  exact ⟨hB.lines, (hB.openBill hbill (horder ▸ hlt)).charges⟩

theorem mem_billIndex_openBill {other : BillId} {orderId : OrderId} :
    other ∈ (B.openBill billId charge).billIndex orderId ↔
      (charge.orderId = orderId ∧ other = billId) ∨ other ∈ B.billIndex orderId := by
  have honce : ∀ ids : List BillId,
      other ∈ (if billId ∈ ids then ids else ids ++ [billId]) ↔ other = billId ∨ other ∈ ids := by
    intro ids
    split
    · next hmem =>
      exact ⟨.inr, fun h => h.elim (fun he => he ▸ hmem) id⟩
    · rw [List.mem_append, List.mem_singleton, or_comm]
  rw [billIndex, Books.openBill, get_insert]
  by_cases horder : charge.orderId = orderId
  · subst horder
    rw [if_pos rfl, getD_some, honce]
    simp only [true_and]
  · rw [if_neg horder]
    exact ⟨.inr, fun h => h.elim (fun he => absurd he.1 horder) id⟩

theorem Indexed.openBill (hB : B.Indexed) : (B.openBill billId charge).Indexed where
  mem_lineIndex := hB.mem_lineIndex
  nodup_lineIndex := hB.nodup_lineIndex
  mem_billIndex := by
    intro other charge' hother
    rw [mem_billIndex_openBill]
    simp only [Books.openBill, update_apply] at hother
    split at hother
    · next heq =>
      obtain rfl := some.inj hother
      exact .inl ⟨rfl, heq⟩
    · exact .inr (hB.mem_billIndex other charge' hother)

theorem Indexed.setCharge (hB : B.Indexed) (hold : B.charge billId = some old)
    (horder : charge.orderId = old.orderId) : (B.setCharge billId charge).Indexed where
  mem_lineIndex := hB.mem_lineIndex
  nodup_lineIndex := hB.nodup_lineIndex
  mem_billIndex := by
    intro other charge' hother
    simp only [Books.setCharge, update_apply] at hother
    by_cases heq : other = billId
    · subst heq
      rw [if_pos rfl] at hother
      obtain rfl := some.inj hother
      rw [horder]
      exact hB.mem_billIndex other old hold
    · rw [if_neg heq] at hother
      exact hB.mem_billIndex other charge' hother

end Bills

end Books

end PosFramework
