import PosFramework.Edge.Records
import PosFramework.Lib.Families

set_option autoImplicit false

/-! # The ledger

What the edge is for, without its maps and indexes: which lines were sold on which order, and which
bill charges which of them. A bill that is open or paid holds its lines; a line is held by one bill
at most, and by a bill of its own order. The operations below are what commands do to the ledger,
and each of them keeps it sound. -/

namespace PosFramework

open Families List Function Option

/-- A line as a bill sees it. -/
structure Sale where
  orderId : OrderId
  quantity : Quantity
  unitPrice : Money
  lineTotal : Money
  sold : Bool

/-- What a line adds to the bill that charges it. -/
def Sale.amount (sale : Sale) : Int := if sale.sold then sale.lineTotal.minor else 0

/-- A bill as its lines see it. -/
structure Charge where
  orderId : OrderId
  state : BillState
  lines : List OrderLineId
deriving DecidableEq

/-- Whether a bill holds its lines: it is open or paid. -/
def Charge.Active (charge : Charge) : Prop := charge.state = .open ∨ charge.state = .settled

/-- What was sold, and which bill charges it. -/
structure Ledger where
  sale : OrderLineId → Option Sale
  charge : BillId → Option Charge

namespace Ledger

/-! ## Operations -/

/-- Write a line. -/
def sell (L : Ledger) (line : OrderLineId) (sale : Sale) : Ledger :=
  { L with sale := update L.sale line (some sale) }

/-- The lines of an order go to another. -/
def move (L : Ledger) (merged target : OrderId) : Ledger :=
  { L with
    sale := fun line => (L.sale line).map fun sale =>
      if sale.orderId = merged then { sale with orderId := target } else sale }

/-- Write a bill. -/
def issue (L : Ledger) (bill : BillId) (charge : Charge) : Ledger :=
  { L with charge := update L.charge bill (some charge) }

/-- Write bills one after another. -/
def issueAll (L : Ledger) (charges : List (BillId × Charge)) : Ledger :=
  charges.foldl (fun L entry => L.issue entry.1 entry.2) L

/-- A bill moves to a state, where it is there. -/
def restate (L : Ledger) (bill : BillId) (state : BillState) : Ledger :=
  { L with
    charge := update L.charge bill ((L.charge bill).map fun charge => { charge with state }) }

def restateAll (L : Ledger) (bills : List BillId) (state : BillState) : Ledger :=
  bills.foldl (fun L bill => L.restate bill state) L

/-! ## Reads -/

/-- What a line adds to the bill that charges it; a line that is not there adds nothing. -/
def amount (L : Ledger) (line : OrderLineId) : Int := ((L.sale line).map Sale.amount).getD 0

/-- What lines come to. -/
def total (L : Ledger) (lines : List OrderLineId) : Int := (lines.map L.amount).sum

/-- The lines a bill holds. -/
def held (L : Ledger) (bill : BillId) : Set OrderLineId :=
  { line | ∃ charge, L.charge bill = some charge ∧ charge.Active ∧ line ∈ charge.lines }

/-- Whether a line is on an order. -/
def On (L : Ledger) (orderId : OrderId) (line : OrderLineId) : Prop :=
  ∃ sale, L.sale line = some sale ∧ sale.orderId = orderId

/-- An order none of whose lines is held. -/
def Unbilled (L : Ledger) (orderId : OrderId) : Prop :=
  ∀ bill charge, L.charge bill = some charge → charge.Active → charge.orderId ≠ orderId

/-! ## Soundness -/

/-- What a bill that holds lines has: some, each once, all of its own order. -/
structure Holds (L : Ledger) (charge : Charge) : Prop where
  nonempty : charge.lines ≠ []
  nodup : charge.lines.Nodup
  on_order : ∀ line ∈ charge.lines, L.On charge.orderId line

/-- A bill that counts holds its lines, and no line is held twice. -/
structure Sound (L : Ledger) : Prop where
  holds : ∀ bill charge, L.charge bill = some charge → charge.Active → L.Holds charge
  apart : Apart L.held

variable {L : Ledger}

theorem sound_empty : (Ledger.mk (fun _ => none) fun _ => none).Sound where
  holds := by
    intro bill charge h
    contradiction
  apart := by
    intro a b _
    refine Set.disjoint_left.2 ?_
    rintro line ⟨charge, h, _⟩
    contradiction

variable {bill other : BillId} {line : OrderLineId} {charge : Charge} {state : BillState}
  {bills : List BillId} {charges : List (BillId × Charge)} {orderId : OrderId}

theorem Sound.on_order (hL : L.Sound) (h : line ∈ L.held bill) :
    ∃ charge, L.charge bill = some charge ∧ L.On charge.orderId line := by
  obtain ⟨charge, hcharge, hactive, hline⟩ := h
  exact ⟨charge, hcharge, (hL.holds bill charge hcharge hactive).on_order line hline⟩

theorem Sound.not_held_of_unbilled (hL : L.Sound) (hfree : L.Unbilled orderId)
    (hline : L.On orderId line) (bill : BillId) : line ∉ L.held bill := by
  rintro ⟨charge, hcharge, hactive, hmem⟩
  obtain ⟨sale, hsale, horder⟩ := hline
  obtain ⟨sale', hsale', horder'⟩ := (hL.holds bill charge hcharge hactive).on_order line hmem
  obtain rfl : sale = sale' := some.inj (hsale.symm.trans hsale')
  exact hfree bill charge hcharge hactive (horder'.symm.trans horder)

/-- A line that is written anew stays on its order. -/
theorem Sound.sell (hL : L.Sound) {sale : Sale}
    (hsame : ∀ old, L.sale line = some old → old.orderId = sale.orderId) :
    (L.sell line sale).Sound where
  holds := by
    intro bill charge hcharge hactive
    obtain ⟨hne, hnodup, hon⟩ := hL.holds bill charge hcharge hactive
    refine ⟨hne, hnodup, fun other hother => ?_⟩
    obtain ⟨old, hold, horder⟩ := hon other hother
    by_cases heq : other = line
    · subst heq
      exact ⟨sale, update_self .., (hsame old hold).symm.trans horder⟩
    · exact ⟨old, (update_of_ne heq ..).trans hold, horder⟩
  apart := hL.apart

/-- The lines of an order no bill holds may go to another. -/
theorem Sound.move (hL : L.Sound) {merged target : OrderId} (hfree : L.Unbilled merged) :
    (L.move merged target).Sound where
  holds := by
    intro bill charge hcharge hactive
    obtain ⟨hne, hnodup, hon⟩ := hL.holds bill charge hcharge hactive
    refine ⟨hne, hnodup, fun line hline => ?_⟩
    obtain ⟨sale, hsale, horder⟩ := hon line hline
    have hstay : sale.orderId ≠ merged := by
      rw [horder]
      exact hfree bill charge hcharge hactive
    refine ⟨sale, ?_, horder⟩
    simp only [Ledger.move, hsale, map_some, if_neg hstay]
  apart := hL.apart

theorem mem_held_issue_self :
    line ∈ (L.issue bill charge).held bill ↔ charge.Active ∧ line ∈ charge.lines := by
  simp only [held, issue, update_self, some.injEq, Set.mem_ofPred_eq,
    exists_eq_left']

theorem held_issue_of_ne (hne : other ≠ bill) :
    (L.issue bill charge).held other = L.held other := by
  simp only [held, issue, update_of_ne hne]

/-- A bill may be written with lines of its order that it holds already or that none holds. -/
theorem Sound.issue (hL : L.Sound) (hholds : charge.Active → L.Holds charge)
    (hnew : charge.Active → ∀ line ∈ charge.lines, line ∈ L.held bill ∨ ∀ b, line ∉ L.held b) :
    (L.issue bill charge).Sound where
  holds := by
    intro other charge' hcharge' hactive
    by_cases heq : other = bill
    · subst heq
      obtain rfl : charge = charge' :=
        some.inj ((update_self (f := L.charge) ..).symm.trans hcharge')
      obtain ⟨hne, hnodup, hon⟩ := hholds hactive
      exact ⟨hne, hnodup, hon⟩
    · obtain ⟨hne, hnodup, hon⟩ := hL.holds other charge'
        ((update_of_ne heq ..).symm.trans hcharge') hactive
      exact ⟨hne, hnodup, hon⟩
  apart := by
    refine hL.apart.reassign (a := bill) (fun other hne => ?_) fun line hline => ?_
    · rw [held_issue_of_ne hne]
    · obtain ⟨hactive, hmem⟩ := mem_held_issue_self.1 hline
      exact hnew hactive line hmem

/-- A bill that moves to a state in which it holds nothing frees its lines. -/
theorem Sound.restate (hL : L.Sound) (hopen : state ≠ .open) (hsettled : state ≠ .settled) :
    (L.restate bill state).Sound := by
  cases hcharge : L.charge bill with
  | none =>
    have hsame : L.restate bill state = L := by
      simp only [Ledger.restate, hcharge, map_none]
      rw [← hcharge, update_eq_self]
    rwa [hsame]
  | some charge =>
    have hissue : L.restate bill state = L.issue bill { charge with state } := by
      simp only [Ledger.restate, Ledger.issue, hcharge, map_some]
    have hinactive : ¬ ({ charge with state } : Charge).Active :=
      fun h => h.elim hopen hsettled
    rw [hissue]
    exact hL.issue (fun h => absurd h hinactive) fun h => absurd h hinactive

theorem Sound.restateAll (hL : L.Sound) (hopen : state ≠ .open) (hsettled : state ≠ .settled) :
    (L.restateAll bills state).Sound := by
  induction bills generalizing L with
  | nil => exact hL
  | cons bill rest ih => exact ih (hL.restate hopen hsettled)

theorem held_restate_of_ne (hne : other ≠ bill) :
    (L.restate bill state).held other = L.held other := by
  simp only [held, Ledger.restate, update_of_ne hne]

theorem held_restate_self (hopen : state ≠ .open) (hsettled : state ≠ .settled) :
    (L.restate bill state).held bill = ∅ := by
  refine Set.eq_empty_iff_forall_notMem.2 ?_
  rintro line ⟨charge, hcharge, hactive, _⟩
  obtain ⟨old, _, rfl⟩ := map_eq_some_iff.1
    ((update_self (f := L.charge) ..).symm.trans hcharge)
  exact hactive.elim hopen hsettled

/-- Bills that moved to a state in which they hold nothing hold nothing; the others hold what they
    held. -/
theorem held_restateAll (hopen : state ≠ .open) (hsettled : state ≠ .settled) (bill : BillId) :
    (L.restateAll bills state).held bill = if bill ∈ bills then ∅ else L.held bill := by
  induction bills generalizing L with
  | nil => rfl
  | cons first rest ih =>
    show ((L.restate first state).restateAll rest state).held bill = _
    rw [ih]
    split
    · next hrest =>
      rw [if_pos (mem_cons_of_mem _ hrest)]
    · next hrest =>
      by_cases hfirst : bill = first
      · subst hfirst
        rw [held_restate_self hopen hsettled, if_pos mem_cons_self]
      · rw [held_restate_of_ne hfirst, if_neg (by simp [hfirst, hrest])]

theorem charge_restateAll (hnot : bill ∉ bills) :
    (L.restateAll bills state).charge bill = L.charge bill := by
  induction bills generalizing L with
  | nil => rfl
  | cons first rest ih =>
    have hfirst : bill ≠ first := ne_of_not_mem_cons hnot
    exact (ih (not_mem_of_not_mem_cons hnot)).trans (update_of_ne hfirst ..)

theorem sale_restateAll : (L.restateAll bills state).sale = L.sale := by
  induction bills generalizing L with
  | nil => rfl
  | cons bill rest ih => exact ih

theorem on_restateAll : (L.restateAll bills state).On orderId line ↔ L.On orderId line := by
  unfold On
  rw [sale_restateAll]

theorem restate_issue (hne : bill ≠ other) :
    (L.issue other charge).restate bill state = (L.restate bill state).issue other charge := by
  simp only [Ledger.restate, Ledger.issue, update_of_ne hne]
  rw [update_comm hne]

theorem restate_issueAll
    (hne : ∀ entry ∈ charges, bill ≠ entry.1) :
    (L.issueAll charges).restate bill state = (L.restate bill state).issueAll charges := by
  induction charges generalizing L with
  | nil => rfl
  | cons first rest ih =>
    show ((L.issue first.1 first.2).issueAll rest).restate bill state = _
    rw [ih fun entry hentry => hne entry (mem_cons_of_mem _ hentry),
      restate_issue (hne first mem_cons_self)]
    rfl

/-- Bills that are written one after another, none of whose lines anybody holds and no two of which
    share one. -/
theorem Sound.issueAll (hL : L.Sound) (hholds : ∀ entry ∈ charges, L.Holds entry.2)
    (hfree : ∀ entry ∈ charges, ∀ line ∈ entry.2.lines, ∀ bill, line ∉ L.held bill)
    (hapart : charges.Pairwise fun a b => List.Disjoint a.2.lines b.2.lines) :
    (L.issueAll charges).Sound := by
  induction charges generalizing L with
  | nil => exact hL
  | cons first rest ih =>
    obtain ⟨hfirst, hrest⟩ := pairwise_cons.1 hapart
    have hone : (L.issue first.1 first.2).Sound :=
      hL.issue (fun _ => hholds first mem_cons_self) fun _ line hline =>
        .inr (hfree first mem_cons_self line hline)
    refine ih hone (fun entry hentry => ?_) (fun entry hentry line hline bill hheld => ?_) hrest
    · obtain ⟨hne, hnodup, hon⟩ := hholds entry (mem_cons_of_mem _ hentry)
      exact ⟨hne, hnodup, hon⟩
    · by_cases hbill : bill = first.1
      · subst hbill
        exact hfirst entry hentry (mem_held_issue_self.1 hheld).2 hline
      · rw [held_issue_of_ne hbill] at hheld
        exact hfree entry (mem_cons_of_mem _ hentry) line hline bill hheld

/-- A bill is split: its lines are dealt out to bills of the same order. -/
theorem Sound.split (hL : L.Sound) {parts : List (BillId × Charge)}
    (hcharge : L.charge bill = some charge) (hactive : charge.Active)
    (hdealt : (parts.map (·.2.lines)).flatten.Perm charge.lines)
    (hne : ∀ entry ∈ parts, entry.2.lines ≠ [])
    (horder : ∀ entry ∈ parts, entry.2.orderId = charge.orderId) :
    ((L.restate bill .split).issueAll parts).Sound := by
  have hholds := hL.holds bill charge hcharge hactive
  obtain ⟨hnodups, hapart⟩ := nodup_flatten.1 (hdealt.nodup_iff.2 hholds.nodup)
  have hwhole : ∀ entry ∈ parts, ∀ line ∈ entry.2.lines, line ∈ charge.lines :=
    fun entry hentry line hline => hdealt.mem_iff.1
      (mem_flatten_of_mem (mem_map_of_mem hentry) hline)
  refine (hL.restate (by decide) (by decide)).issueAll (fun entry hentry => ?_)
    (fun entry hentry line hline other hheld => ?_) (pairwise_map.1 hapart)
  · refine ⟨hne entry hentry, hnodups _ (mem_map_of_mem hentry), fun line hline => ?_⟩
    rw [horder entry hentry]
    exact hholds.on_order line (hwhole entry hentry line hline)
  · -- the lines were the split bill's, and it holds none any more
    have hmine : line ∈ L.held bill := ⟨charge, hcharge, hactive, hwhole entry hentry line hline⟩
    by_cases heq : other = bill
    · subst heq
      rw [held_restate_self (by decide) (by decide)] at hheld
      exact hheld
    · rw [held_restate_of_ne heq] at hheld
      exact Set.disjoint_left.1 (hL.apart heq) hheld hmine

/-- Bills are merged into another of the same order, which takes their lines. -/
theorem Sound.merge (hL : L.Sound) {merged : Charge} {absorbed : List BillId}
    (hcharge : L.charge bill = some charge) (hactive : charge.Active) (hself : bill ∉ absorbed)
    (hsame : ∀ a ∈ absorbed, ∀ c, L.charge a = some c → c.orderId = charge.orderId)
    (horder : merged.orderId = charge.orderId) (hnodup : merged.lines.Nodup)
    (hlines : ∀ line, line ∈ merged.lines ↔ line ∈ charge.lines ∨ ∃ a ∈ absorbed, line ∈ L.held a) :
    ((L.restateAll absorbed .merged).issue bill merged).Sound := by
  have hholds := hL.holds bill charge hcharge hactive
  have hmine : ∀ line ∈ charge.lines, line ∈ L.held bill :=
    fun line hline => ⟨charge, hcharge, hactive, hline⟩
  refine (hL.restateAll (by decide) (by decide)).issue (fun _ => ⟨?_, hnodup, fun line hline => ?_⟩)
    fun _ line hline => ?_
  · -- the bill had lines before
    obtain ⟨line, hline⟩ := exists_mem_of_ne_nil _ hholds.nonempty
    exact ne_nil_of_mem ((hlines line).2 (.inl hline))
  · rw [horder, on_restateAll]
    rcases (hlines line).1 hline with hline | ⟨a, ha, hheld⟩
    · exact hholds.on_order line hline
    · obtain ⟨c, hc, hon⟩ := hL.on_order hheld
      exact hsame a ha c hc ▸ hon
  · have hheld : ∀ other, (L.restateAll absorbed .merged).held other =
        if other ∈ absorbed then ∅ else L.held other :=
      held_restateAll (by decide) (by decide)
    simp only [hheld]
    rcases (hlines line).1 hline with hline | ⟨a, ha, hheld⟩
    · refine .inl ?_
      rw [if_neg hself]
      exact hmine line hline
    · refine .inr fun other => ?_
      split
      · exact Set.notMem_empty line
      · next hother =>
        have hne : a ≠ other := fun he => hother (he ▸ ha)
        exact Set.disjoint_left.1 (hL.apart hne) hheld

end Ledger

end PosFramework
