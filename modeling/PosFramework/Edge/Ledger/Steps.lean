import PosFramework.Edge.Ledger
import PosFramework.Edge.Run

set_option autoImplicit false

/-! # What each command does to the ledger

The ledger's transition relation, by command, and that every step of it keeps the ledger sound. Most
commands leave the ledger as it is: they move tables, stations, shifts or cash, or change what is
taken off a bill. -/

namespace PosFramework

open Command Option List

/-- The commands that leave the ledger as it is. -/
def Command.leavesLedger : Command → Bool
  | seatTable .. | cleanTable .. | releaseTable .. | transferTable .. => true
  | fireLine .. | fireOrder .. | fireCourse .. => true
  | openCounterOrder .. | rejectInboundOrder .. | setItemSoldOut .. => true
  | discountBill .. | waiveFee .. | reprintReceipt .. => true
  | openShift .. | countShift .. | closeShift .. | closeShifts .. => true
  | recordCashMovement .. | recordSafeDrop .. | openDrawerNoSale .. => true
  | addLine .. | addLineToOrder .. | voidLine .. | setLineQuantity .. => false
  | openInboundOrder .. | confirmInboundOrder .. => false
  | openBill .. | openBillForOrder .. | splitBill .. | mergeBills .. => false
  | settleBill .. | voidBill .. | voidSettledBill .. => false

/-- The commands that add a line to an order. -/
def Command.addsLine : Command → Bool
  | addLine .. | addLineToOrder .. => true
  | _ => false

/-- The commands that open an order's bill. -/
def Command.opensBill : Command → Bool
  | openBill .. | openBillForOrder .. => true
  | _ => false

namespace Ledger

/-- Write the lines of an order one after another. -/
def sellAll (L : Ledger) (sales : List (OrderLineId × Sale)) : Ledger :=
  sales.foldl (fun L entry => L.sell entry.1 entry.2) L

/-- An order that comes in: its lines are new, and nothing was on it before. -/
structure Arrives (L : Ledger) (orderId : OrderId) (sales : List (OrderLineId × Sale)) : Prop where
  empty : ∀ line, ¬ L.On orderId line
  unbilled : L.Unbilled orderId
  new : ∀ entry ∈ sales, L.sale entry.1 = none
  nodup : (sales.map (·.1)).Nodup

/-- A bill of everything sold on an order that has none. -/
structure Opens (L : Ledger) (billId : BillId) (charge : Charge) : Prop where
  new : L.charge billId = none
  unbilled : L.Unbilled charge.orderId
  isOpen : charge.state = .open
  nonempty : charge.lines ≠ []
  nodup : charge.lines.Nodup
  mem_lines : ∀ line, line ∈ charge.lines ↔
    ∃ sale, L.sale line = some sale ∧ sale.orderId = charge.orderId ∧ sale.sold = true

/-- The parts of an open bill: new bills of its order that share out its lines. -/
structure Splits (L : Ledger) (billId : BillId) (charge : Charge) (parts : List (BillId × Charge)) :
    Prop where
  source : L.charge billId = some charge
  isOpen : charge.state = .open
  new : ∀ entry ∈ parts, L.charge entry.1 = none
  nodup : (parts.map (·.1)).Nodup
  partsOpen : ∀ entry ∈ parts, entry.2.state = .open
  order : ∀ entry ∈ parts, entry.2.orderId = charge.orderId
  nonempty : ∀ entry ∈ parts, entry.2.lines ≠ []
  dealt : (parts.map (·.2.lines)).flatten.Perm charge.lines

/-- Open bills of one order, and the lines of all of them. -/
structure Merges (L : Ledger) (billId : BillId) (absorbed : List BillId) (charge : Charge)
    (lines : List OrderLineId) : Prop where
  target : L.charge billId = some charge
  isOpen : charge.state = .open
  other : billId ∉ absorbed
  absorbedOpen : ∀ a ∈ absorbed, ∃ c, L.charge a = some c ∧ c.state = .open ∧
    c.orderId = charge.orderId
  nodup : lines.Nodup
  mem_lines : ∀ line, line ∈ lines ↔ line ∈ charge.lines ∨ ∃ a ∈ absorbed, line ∈ L.held a

/-- What each command does to the ledger. -/
inductive Step (L : Ledger) : Command → Ledger → Prop
  | quiet {command : Command} (hquiet : command.leavesLedger = true) : L.Step command L
  | addLine {command : Command} {line : OrderLineId} {sale : Sale}
      (hcommand : command.addsLine = true) (hnew : L.sale line = none) :
      L.Step command (L.sell line sale)
  | voidLine {actor : Actor} {line : OrderLineId} {reasonCodeId : ReasonCodeId}
      {approval : Option Approval} {sale : Sale} (hline : L.sale line = some sale) :
      L.Step (.voidLine actor line reasonCodeId approval) (L.sell line { sale with sold := false })
  | setLineQuantity {actor : Actor} {line : OrderLineId} {quantity : Quantity} {sale : Sale}
      {lineTotal : Money} (hline : L.sale line = some sale)
      (htotal : sale.unitPrice.mulQuantity quantity .halfUp = .ok lineTotal) :
      L.Step (.setLineQuantity actor line quantity) (L.sell line { sale with quantity, lineTotal })
  | arrive {deviceId : DeviceId} {channel : Open SalesChannel} {tableId : Option TableId}
      {lines : List (PricedLine × Bool)} {orderId : OrderId} {sales : List (OrderLineId × Sale)}
      (harrives : L.Arrives orderId sales) :
      L.Step (.openInboundOrder deviceId channel tableId lines) (L.sellAll sales)
  | arriveAndJoin {deviceId : DeviceId} {channel : Open SalesChannel} {tableId : Option TableId}
      {lines : List (PricedLine × Bool)} {orderId target : OrderId}
      {sales : List (OrderLineId × Sale)} (harrives : L.Arrives orderId sales) :
      L.Step (.openInboundOrder deviceId channel tableId lines)
        ((L.sellAll sales).move orderId target)
  | confirm {actor : Actor} {orderId : OrderId} : L.Step (.confirmInboundOrder actor orderId) L
  | confirmAndJoin {actor : Actor} {orderId target : OrderId} (hfree : L.Unbilled orderId) :
      L.Step (.confirmInboundOrder actor orderId) (L.move orderId target)
  | openBill {command : Command} {billId : BillId} {charge : Charge}
      (hcommand : command.opensBill = true) (hopens : L.Opens billId charge) :
      L.Step command (L.issue billId charge)
  | splitBill {actor : Actor} {billId : BillId} {lines : List (List OrderLineId)} {charge : Charge}
      {parts : List (BillId × Charge)} (hsplits : L.Splits billId charge parts) :
      L.Step (.splitBill actor billId lines) ((L.restate billId .split).issueAll parts)
  | mergeBills {actor : Actor} {billId : BillId} {absorbed : List BillId} {charge : Charge}
      {lines : List OrderLineId} (hmerges : L.Merges billId absorbed charge lines) :
      L.Step (.mergeBills actor billId absorbed)
        ((L.restateAll absorbed .merged).issue billId { charge with lines })
  | settleBill {actor : Actor} {scope : TillScope} {billId : BillId} {payments : List Payment}
      {hasBuyer : Bool} {approval : Option Approval} {charge : Charge}
      (hcharge : L.charge billId = some charge) (hopen : charge.state = .open) :
      L.Step (.settleBill actor scope billId payments hasBuyer approval)
        (L.issue billId { charge with state := .settled })
  | voidBill {actor : Actor} {billId : BillId} {reasonCodeId : ReasonCodeId}
      {approval : Option Approval} {charge : Charge} (hcharge : L.charge billId = some charge)
      (hopen : charge.state = .open) :
      L.Step (.voidBill actor billId reasonCodeId approval)
        (L.issue billId { charge with state := .voided })
  | voidSettledBill {actor : Actor} {scope : TillScope} {billId : BillId}
      {reasonCodeId : ReasonCodeId} {approval : Option Approval} {charge : Charge}
      (hcharge : L.charge billId = some charge) (hsettled : charge.state = .settled) :
      L.Step (.voidSettledBill actor scope billId reasonCodeId approval)
        (L.issue billId { charge with state := .voided })

variable {L L' : Ledger} {command : Command}

/-! ## Reading a step -/

theorem Step.eq_of_leavesLedger (hstep : L.Step command L') (hquiet : command.leavesLedger = true) :
    L' = L := by
  cases hstep with
  | quiet _ => rfl
  | addLine =>
    cases command <;> simp_all [leavesLedger, addsLine]
  | openBill =>
    cases command <;> simp_all [leavesLedger, opensBill]
  | _ => simp [leavesLedger] at hquiet

theorem Step.of_addsLine (hstep : L.Step command L') (hadds : command.addsLine = true) :
    ∃ line sale, L.sale line = none ∧ L' = L.sell line sale := by
  cases hstep with
  | addLine _ hnew => exact ⟨_, _, hnew, rfl⟩
  | quiet => cases command <;> simp_all [leavesLedger, addsLine]
  | openBill => cases command <;> simp_all [opensBill, addsLine]
  | _ => simp [addsLine] at hadds

variable {actor : Actor} {billId : BillId} {sales : List (OrderLineId × Sale)}
  {approval : Option Approval} {line : OrderLineId}

theorem Step.of_voidLine {reasonCodeId : ReasonCodeId}
    (hstep : L.Step (.voidLine actor line reasonCodeId approval) L') :
    ∃ sale, L.sale line = some sale ∧ L' = L.sell line { sale with sold := false } := by
  cases hstep with
  | voidLine hline => exact ⟨_, hline, rfl⟩
  | quiet h | addLine h | openBill h => exact absurd h Bool.false_ne_true

theorem Step.of_setLineQuantity {quantity : Quantity}
    (hstep : L.Step (.setLineQuantity actor line quantity) L') :
    ∃ sale lineTotal, L.sale line = some sale ∧
      sale.unitPrice.mulQuantity quantity .halfUp = .ok lineTotal ∧
      L' = L.sell line { sale with quantity, lineTotal } := by
  cases hstep with
  | setLineQuantity hline htotal => exact ⟨_, _, hline, htotal, rfl⟩
  | quiet h | addLine h | openBill h => exact absurd h Bool.false_ne_true

theorem Step.of_mergeBills {absorbed : List BillId}
    (hstep : L.Step (.mergeBills actor billId absorbed) L') :
    ∃ charge lines, L.Merges billId absorbed charge lines ∧
      L' = (L.restateAll absorbed .merged).issue billId { charge with lines } := by
  cases hstep with
  | mergeBills hmerges => exact ⟨_, _, hmerges, rfl⟩
  | quiet h | addLine h | openBill h => exact absurd h Bool.false_ne_true

theorem Step.of_settleBill {scope : TillScope} {payments : List Payment} {hasBuyer : Bool}
    (hstep : L.Step (.settleBill actor scope billId payments hasBuyer approval) L') :
    ∃ charge, L.charge billId = some charge ∧ charge.state = .open ∧
      L' = L.issue billId { charge with state := .settled } := by
  cases hstep with
  | settleBill hcharge hopen => exact ⟨_, hcharge, hopen, rfl⟩
  | quiet h | addLine h | openBill h => exact absurd h Bool.false_ne_true

/-! ## Soundness of a step -/

theorem Sound.sellAll (hL : L.Sound)
    (hnew : ∀ entry ∈ sales, L.sale entry.1 = none) (hnodup : (sales.map (·.1)).Nodup) :
    (L.sellAll sales).Sound := by
  induction sales generalizing L with
  | nil => exact hL
  | cons first rest ih =>
    obtain ⟨hfirst, hrest⟩ := nodup_cons.1 hnodup
    have hone : (L.sell first.1 first.2).Sound := hL.sell fun old hold => by
      rw [hnew first mem_cons_self] at hold
      contradiction
    refine ih hone (fun entry hentry => ?_) hrest
    have hne : entry.1 ≠ first.1 := fun heq => hfirst (mem_map.2 ⟨entry, hentry, heq⟩)
    exact (Function.update_of_ne hne ..).trans (hnew entry (mem_cons_of_mem _ hentry))

theorem charge_sellAll : (L.sellAll sales).charge = L.charge := by
  induction sales generalizing L with
  | nil => rfl
  | cons first rest ih => exact ih

theorem Sound.openBill (hL : L.Sound) {charge : Charge} (hopens : L.Opens billId charge) :
    (L.issue billId charge).Sound := by
  have hon : ∀ line ∈ charge.lines, L.On charge.orderId line := by
    intro line hline
    obtain ⟨sale, hsale, horder, _⟩ := (hopens.mem_lines line).1 hline
    exact ⟨sale, hsale, horder⟩
  exact hL.issue (fun _ => ⟨hopens.nonempty, hopens.nodup, hon⟩) fun _ line hline =>
    .inr (hL.not_held_of_unbilled hopens.unbilled (hon line hline))

/-- A bill that keeps its lines may move between the states in which it holds them. -/
theorem Sound.reissue (hL : L.Sound) {charge charge' : Charge}
    (hcharge : L.charge billId = some charge) (hactive : charge.Active)
    (horder : charge'.orderId = charge.orderId) (hlines : charge'.lines = charge.lines) :
    (L.issue billId charge').Sound := by
  obtain ⟨hne, hnodup, hon⟩ := hL.holds billId charge hcharge hactive
  refine hL.issue (fun _ => ⟨hlines ▸ hne, hlines ▸ hnodup, ?_⟩) fun _ line hline =>
    .inl ⟨charge, hcharge, hactive, hlines ▸ hline⟩
  rw [hlines, horder]
  exact hon

/-- Every command keeps the ledger sound. -/
theorem Step.sound (hstep : L.Step command L') (hL : L.Sound) : L'.Sound := by
  cases hstep with
  | quiet _ => exact hL
  | addLine _ hnew =>
    refine hL.sell fun old hold => ?_
    rw [hnew] at hold
    contradiction
  | voidLine hline =>
    refine hL.sell fun old hold => ?_
    rw [hline] at hold
    rw [some.inj hold]
  | setLineQuantity hline _ =>
    refine hL.sell fun old hold => ?_
    rw [hline] at hold
    rw [some.inj hold]
  | arrive harrives => exact hL.sellAll harrives.new harrives.nodup
  | arriveAndJoin harrives =>
    refine (hL.sellAll harrives.new harrives.nodup).move fun bill charge hcharge => ?_
    rw [charge_sellAll] at hcharge
    exact harrives.unbilled bill charge hcharge
  | confirm => exact hL
  | confirmAndJoin hfree => exact hL.move hfree
  | openBill _ hopens => exact hL.openBill hopens
  | splitBill hsplits =>
    exact hL.split hsplits.source (.inl hsplits.isOpen) hsplits.dealt hsplits.nonempty
      hsplits.order
  | mergeBills hmerges =>
    refine hL.merge hmerges.target (.inl hmerges.isOpen) hmerges.other (fun a ha c hc => ?_) rfl
      hmerges.nodup hmerges.mem_lines
    obtain ⟨c', hc', _, horder⟩ := hmerges.absorbedOpen a ha
    rw [hc] at hc'
    exact some.inj hc' ▸ horder
  | settleBill hcharge hopen => exact hL.reissue hcharge (.inl hopen) rfl rfl
  | voidBill hcharge hopen => exact hL.reissue hcharge (.inl hopen) rfl rfl
  | voidSettledBill hcharge hsettled => exact hL.reissue hcharge (.inr hsettled) rfl rfl

end Ledger

end PosFramework
