import PosFramework.Lib.Keyed
import PosFramework.Proto.Ids
import PosFramework.Store.Writer

set_option autoImplicit false

/-! # Receipt numbers

The store server numbers its receipts from one counter row, and remembers in a table which number
each bill was given. A replacement box raises the counter above what the cloud has seen. Both
operations run on the writer's one thread, each in a transaction of its own, so a history is a
sequence of calls. -/

namespace PosFramework

open List Option

/-- One store's rows of `receipt_counter` and `receipt_allocations`. -/
structure ReceiptRows where
  nextNumber : Option Nat
  allocations : Std.ExtTreeMap BillId Nat

namespace ReceiptRows

def empty : ReceiptRows := ⟨none, ∅⟩

/-- Read a number back. A counter that was moved past the largest integer has become a real one,
    which does not read as an integer. -/
def readNumber (n : Nat) : Except StoreError Nat := if n ≤ i64Max then .ok n else .error .db

variable (rows : ReceiptRows)

/-- Raise the counter so that the next number is above the floor, and answer that number. -/
def raiseReceiptFloor (floor : Nat) : Except StoreError Nat × ReceiptRows :=
  let next := toI64 (u64SaturatingAdd floor 1)
  let raised := (rows.nextNumber.map fun current => max current next).getD next
  (readNumber raised, { rows with nextNumber := some raised })

/-- The number a bill has, or the next one. A transaction that fails writes nothing. -/
def allocateReceipt (billId : BillId) : Except StoreError Nat × ReceiptRows :=
  match rows.allocations[billId]? with
  | some number => (.ok number, rows)
  | none =>
    let next := rows.nextNumber.getD 1
    match readNumber next with
    | .error e => (.error e, rows)
    | .ok allocated =>
      (.ok allocated,
        { nextNumber := some (next + 1)
          allocations := rows.allocations.insert billId allocated })

end ReceiptRows

/-- An allocation, or a floor. -/
inductive ReceiptCall
  | allocate (billId : BillId)
  | raiseFloor (floor : Nat)

namespace ReceiptRows

variable (rows : ReceiptRows)

def serve : ReceiptCall → Except StoreError Nat × ReceiptRows
  | .allocate billId => rows.allocateReceipt billId
  | .raiseFloor floor => rows.raiseReceiptFloor floor

/-- The rows after calls, on a store that has numbered nothing. -/
def after (calls : List ReceiptCall) : ReceiptRows :=
  calls.foldl (fun rows call => (rows.serve call).2) empty

/-- What a call is answered after others. -/
def answer (before : List ReceiptCall) (call : ReceiptCall) : Except StoreError Nat :=
  ((after before).serve call).1

/-- A history that gives a bill a number, after some of its calls. -/
def Gives (calls before : List ReceiptCall) (billId : BillId) (number : Nat) : Prop :=
  before ++ [.allocate billId] <+: calls ∧ answer before (.allocate billId) = .ok number

/-- A bill that has been given no number. -/
def Unnumbered (calls : List ReceiptCall) (billId : BillId) : Prop :=
  ∀ before number, ¬ Gives calls before billId number

theorem after_concat (calls : List ReceiptCall) (call : ReceiptCall) :
    after (calls ++ [call]) = ((after calls).serve call).2 := by
  rw [after, foldl_append]
  rfl

/-! ## One call -/

/-- What an allocation does: it answers the number the bill has, or the next one, or it is refused
    with the counter past the largest integer. -/
theorem allocateReceipt_cases (billId : BillId) :
    (∃ number, rows.allocations[billId]? = some number ∧
      rows.allocateReceipt billId = (.ok number, rows)) ∨
    (rows.allocations[billId]? = none ∧ rows.nextNumber.getD 1 ≤ i64Max ∧
      rows.allocateReceipt billId =
        (.ok (rows.nextNumber.getD 1),
          { nextNumber := some (rows.nextNumber.getD 1 + 1)
            allocations := rows.allocations.insert billId (rows.nextNumber.getD 1) })) ∨
    (rows.allocations[billId]? = none ∧ i64Max < rows.nextNumber.getD 1 ∧
      rows.allocateReceipt billId = (.error .db, rows)) := by
  unfold allocateReceipt
  cases hbill : rows.allocations[billId]? with
  | some number => exact .inl ⟨number, rfl, rfl⟩
  | none =>
    refine .inr ?_
    by_cases hfits : rows.nextNumber.getD 1 ≤ i64Max
    · refine .inl ⟨rfl, hfits, ?_⟩
      simp only [readNumber, if_pos hfits]
    · refine .inr ⟨rfl, Nat.not_le.1 hfits, ?_⟩
      simp only [readNumber, if_neg hfits]

/-- A floor below the limit moves the counter above it, never back. -/
theorem raiseReceiptFloor_counter {floor : Nat} (hfloor : floor < i64Max) :
    floor < (rows.raiseReceiptFloor floor).2.nextNumber.getD 1 ∧
      (∀ current, rows.nextNumber = some current →
        current ≤ (rows.raiseReceiptFloor floor).2.nextNumber.getD 1) ∧
      1 ≤ (rows.raiseReceiptFloor floor).2.nextNumber.getD 1 := by
  have hnext : toI64 (u64SaturatingAdd floor 1) = floor + 1 := by
    unfold toI64 u64SaturatingAdd u64Max
    unfold i64Max at hfloor ⊢
    omega
  unfold raiseReceiptFloor
  rw [hnext]
  cases rows.nextNumber with
  | none =>
    refine ⟨Nat.lt_succ_self floor, ?_, Nat.succ_pos floor⟩
    intro current hcurrent
    contradiction
  | some =>
    simp only [map_some, getD_some, some.injEq]
    refine ⟨by omega, fun other hother => by omega, by omega⟩

/-! ## Histories -/

/-- What the rows say of the calls that led to them. -/
structure Numbered (calls : List ReceiptCall) (rows : ReceiptRows) : Prop where
  given : ∀ (billId : BillId) (number : Nat),
    rows.allocations[billId]? = some number ↔ ∃ before, Gives calls before billId number
  below : ∀ (billId : BillId) (number : Nat), rows.allocations[billId]? = some number →
    number < rows.nextNumber.getD 1
  distinct : ∀ (billId other : BillId) (number : Nat), rows.allocations[billId]? = some number →
    rows.allocations[other]? = some number → billId = other
  above : ∀ floor, .raiseFloor floor ∈ calls → floor < rows.nextNumber.getD 1

variable {calls before : List ReceiptCall} {billId : BillId} {number : Nat}

/-- A history gives what a shorter one gave, and what its last call is answered. -/
theorem gives_concat {call : ReceiptCall} :
    Gives (calls ++ [call]) before billId number ↔ Gives calls before billId number ∨
      (before = calls ∧ call = .allocate billId ∧ answer calls call = .ok number) := by
  constructor
  · rintro ⟨hbefore, hanswer⟩
    rcases prefix_concat_iff.1 hbefore with heq | hshorter
    · obtain ⟨rfl, hcall⟩ := append_inj' heq rfl
      obtain rfl := singleton_inj.1 hcall
      exact .inr ⟨rfl, rfl, hanswer⟩
    · exact .inl ⟨hshorter, hanswer⟩
  · rintro (⟨hbefore, hanswer⟩ | ⟨rfl, rfl, hanswer⟩)
    · exact ⟨hbefore.trans (prefix_append _ _), hanswer⟩
    · exact ⟨prefix_rfl, hanswer⟩

theorem numbered_empty : Numbered [] empty := by
  refine ⟨fun billId number => ?_, fun billId number h => ?_, fun billId other number h => ?_,
    fun floor h => nomatch h⟩
  · constructor
    · intro h
      simp [empty] at h
    · rintro ⟨before, hbefore, _⟩
      simp at hbefore
  · simp [empty] at h
  · simp [empty] at h

/-- An allocation keeps the rows' account of the history. -/
theorem Numbered.allocate (h : Numbered calls (after calls)) (billId : BillId) :
    Numbered (calls ++ [.allocate billId]) (after (calls ++ [.allocate billId])) := by
  have hfloors : ∀ floor, ReceiptCall.raiseFloor floor ∈ calls ++ [.allocate billId] →
      .raiseFloor floor ∈ calls := by
    intro floor hfloor
    rcases mem_append.1 hfloor with hmem | hmem
    · exact hmem
    · simp at hmem
  have hanswer : answer calls (.allocate billId) = ((after calls).allocateReceipt billId).1 := rfl
  rw [after_concat]
  show Numbered _ ((after calls).allocateReceipt billId).2
  rcases allocateReceipt_cases (after calls) billId with
    ⟨number, hnumber, heq⟩ | ⟨hnew, hfits, heq⟩ | ⟨hnew, _, heq⟩
  · -- the bill has a number, which is answered again
    rw [heq] at hanswer
    rw [heq]
    refine ⟨fun other given => ?_, h.below, h.distinct, fun floor hfloor =>
      h.above floor (hfloors floor hfloor)⟩
    rw [h.given]
    constructor
    · rintro ⟨before, hgives⟩
      exact ⟨before, gives_concat.2 (.inl hgives)⟩
    · rintro ⟨before, hgives⟩
      rcases gives_concat.1 hgives with hbefore | ⟨rfl, hcall, hgiven⟩
      · exact ⟨before, hbefore⟩
      · obtain rfl := ReceiptCall.allocate.inj hcall
        rw [hanswer] at hgiven
        cases hgiven
        exact (h.given billId number).1 hnumber
  · -- the bill takes the counter's number, which is above every other
    rw [heq] at hanswer
    rw [heq]
    have hlookup : ∀ other, ((after calls).allocations.insert billId
        ((after calls).nextNumber.getD 1))[other]? =
          if billId = other then some ((after calls).nextNumber.getD 1)
          else (after calls).allocations[other]? := fun other => Keyed.get_insert ..
    refine ⟨fun other given => ?_, fun other given hgiven => ?_,
      fun first other given hfirst hother =>
      ?_, fun floor hfloor => Nat.lt_succ_of_lt (h.above floor (hfloors floor hfloor))⟩
    · rw [hlookup]
      by_cases hsame : billId = other
      · subst hsame
        rw [if_pos rfl]
        constructor
        · intro hgiven
          exact ⟨calls, gives_concat.2 (.inr ⟨rfl, rfl, by rw [hanswer, some.inj hgiven]⟩)⟩
        · rintro ⟨before, hgives⟩
          rcases gives_concat.1 hgives with hbefore | ⟨_, _, hgiven⟩
          · have := (h.given billId given).2 ⟨before, hbefore⟩
            rw [hnew] at this
            contradiction
          · rw [hanswer] at hgiven
            exact congrArg some (Except.ok.inj hgiven)
      · rw [if_neg hsame, h.given]
        constructor
        · rintro ⟨before, hgives⟩
          exact ⟨before, gives_concat.2 (.inl hgives)⟩
        · rintro ⟨before, hgives⟩
          rcases gives_concat.1 hgives with hbefore | ⟨_, hcall, _⟩
          · exact ⟨before, hbefore⟩
          · exact absurd (ReceiptCall.allocate.inj hcall) hsame
    · rw [hlookup] at hgiven
      show given < (after calls).nextNumber.getD 1 + 1
      split at hgiven
      · rw [← some.inj hgiven]
        exact Nat.lt_succ_self _
      · exact Nat.lt_succ_of_lt (h.below other given hgiven)
    · rw [hlookup] at hfirst hother
      by_cases hsame : billId = first
      · by_cases hsame' : billId = other
        · exact hsame.symm.trans hsame'
        · rw [if_pos hsame] at hfirst
          rw [if_neg hsame'] at hother
          have hlt := h.below other given hother
          rw [← some.inj hfirst] at hlt
          exact absurd hlt (Nat.lt_irrefl _)
      · rw [if_neg hsame] at hfirst
        split at hother
        · have hlt := h.below first given hfirst
          rw [← some.inj hother] at hlt
          exact absurd hlt (Nat.lt_irrefl _)
        · exact h.distinct first other given hfirst hother
  · -- the counter is past the limit, and nothing is written
    rw [heq] at hanswer
    rw [heq]
    refine ⟨fun other given => ?_, h.below, h.distinct, fun floor hfloor =>
      h.above floor (hfloors floor hfloor)⟩
    rw [h.given]
    constructor
    · rintro ⟨before, hgives⟩
      exact ⟨before, gives_concat.2 (.inl hgives)⟩
    · rintro ⟨before, hgives⟩
      rcases gives_concat.1 hgives with hbefore | ⟨_, hcall, hgiven⟩
      · exact ⟨before, hbefore⟩
      · rw [hcall, ← hcall, hanswer] at hgiven
        contradiction

/-- So does a floor below the limit. -/
theorem Numbered.raiseFloor (h : Numbered calls (after calls)) {floor : Nat}
    (hfloor : floor < i64Max) :
    Numbered (calls ++ [.raiseFloor floor]) (after (calls ++ [.raiseFloor floor])) := by
  obtain ⟨habove, hraised, hpos⟩ := raiseReceiptFloor_counter (after calls) hfloor
  have hle : (after calls).nextNumber.getD 1 ≤
      ((after calls).raiseReceiptFloor floor).2.nextNumber.getD 1 := by
    cases hcurrent : (after calls).nextNumber with
    | none => exact hpos
    | some current => exact hraised current hcurrent
  rw [after_concat]
  refine ⟨fun billId number => ?_, fun billId number hnumber => ?_, h.distinct,
    fun other hother => ?_⟩
  · refine (h.given billId number).trans ?_
    constructor
    · rintro ⟨before, hgives⟩
      exact ⟨before, gives_concat.2 (.inl hgives)⟩
    · rintro ⟨before, hgives⟩
      rcases gives_concat.1 hgives with hbefore | ⟨_, hcall, _⟩
      · exact ⟨before, hbefore⟩
      · contradiction
  · exact (h.below billId number hnumber).trans_le hle
  · rcases mem_append.1 hother with hmem | hmem
    · exact (h.above other hmem).trans_le hle
    · obtain rfl := ReceiptCall.raiseFloor.inj (mem_singleton.1 hmem)
      exact habove

theorem numbered_after (hfloors : ∀ floor, .raiseFloor floor ∈ calls → floor < i64Max) :
    Numbered calls (after calls) := by
  induction calls using List.reverseRecOn with
  | nil => exact numbered_empty
  | append_singleton calls call ih =>
    have h := ih fun floor hfloor => hfloors floor (mem_append_left _ hfloor)
    cases call with
    | allocate billId => exact h.allocate billId
    | raiseFloor floor => exact h.raiseFloor (hfloors floor (by simp))

/-- Where a history gives a number, the rows at its end hold it. -/
theorem allocation_of_gives (hfloors : ∀ floor, .raiseFloor floor ∈ calls → floor < i64Max)
    (h : Gives calls before billId number) :
    (after calls).allocations[billId]? = some number :=
  ((numbered_after hfloors).given billId number).2 ⟨before, h⟩

/-- The number a bill is given where it has none is the counter's, which then moves one on. -/
theorem counter_of_gives (hfloors : ∀ floor, .raiseFloor floor ∈ before → floor < i64Max)
    (hanswer : answer before (.allocate billId) = .ok number) (hnew : Unnumbered before billId) :
    number = (after before).nextNumber.getD 1 ∧
      (after (before ++ [.allocate billId])).nextNumber = some (number + 1) := by
  have hnone : (after before).allocations[billId]? = none := by
    by_contra hsome
    obtain ⟨given, hgiven⟩ := ne_none_iff_exists'.1 hsome
    obtain ⟨earlier, hearlier⟩ := ((numbered_after hfloors).given billId given).1 hgiven
    exact hnew earlier given hearlier
  have hserved : answer before (.allocate billId) = ((after before).allocateReceipt billId).1 := rfl
  rw [hserved] at hanswer
  rw [after_concat]
  show _ ∧ ((after before).allocateReceipt billId).2.nextNumber = _
  rcases allocateReceipt_cases (after before) billId with
    ⟨_, hsome, _⟩ | ⟨_, _, heq⟩ | ⟨_, _, heq⟩
  · rw [hnone] at hsome
    contradiction
  · rw [heq] at hanswer ⊢
    cases hanswer
    exact ⟨rfl, rfl⟩
  · rw [heq] at hanswer
    contradiction

/-- Calls that raise no floor and number no bill leave the counter. -/
theorem counter_of_quiet {between : List ReceiptCall}
    (hfloors : ∀ floor, .raiseFloor floor ∈ before → floor < i64Max)
    (hquiet : ∀ floor, .raiseFloor floor ∉ between)
    (hold : ∀ middle billId number, middle ++ [.allocate billId] <+: between →
      answer (before ++ middle) (.allocate billId) = .ok number →
      ¬ Unnumbered (before ++ middle) billId) :
    (after (before ++ between)).nextNumber = (after before).nextNumber := by
  induction between using List.reverseRecOn with
  | nil => rw [append_nil]
  | append_singleton between call ih =>
    have hbetween := ih (fun floor hfloor => hquiet floor (mem_append_left _ hfloor))
      fun middle billId number hbefore =>
        hold middle billId number (hbefore.trans (prefix_append _ _))
    rw [← append_assoc, after_concat]
    cases call with
    | raiseFloor floor => exact absurd (by simp) (hquiet floor)
    | allocate billId =>
      show ((after (before ++ between)).allocateReceipt billId).2.nextNumber = _
      rcases allocateReceipt_cases (after (before ++ between)) billId with
        ⟨_, _, heq⟩ | ⟨hnone, _, heq⟩ | ⟨_, _, heq⟩
      · rw [heq]
        exact hbetween
      · -- a bill that is numbered here had no number
        refine absurd (fun earlier given hearlier => ?_)
          (hold between billId _ prefix_rfl (congrArg Prod.fst heq))
        have hbelow : ∀ floor, .raiseFloor floor ∈ before ++ between → floor < i64Max := by
          intro floor hfloor
          rcases mem_append.1 hfloor with hmem | hmem
          · exact hfloors floor hmem
          · exact absurd (mem_append_left _ hmem) (hquiet floor)
        have hsome := allocation_of_gives hbelow hearlier
        rw [hnone] at hsome
        contradiction
      · rw [heq]
        exact hbetween

end ReceiptRows

open ReceiptRows

/-- Along every history of allocations and floors, with the floors below the limit of an SQLite
    integer: a call is refused only with the counter past that limit; a bill is always given the
    same number; two bills never share one; a bill that has none is given one above every number
    given and every floor applied before it; and with no floor and no other newly numbered bill
    between them, two newly numbered bills have numbers one apart. -/
theorem receipt_numbering {calls : List ReceiptCall}
    (hfloors : ∀ floor, .raiseFloor floor ∈ calls → floor < i64Max) :
    (∀ before billId, before ++ [.allocate billId] <+: calls →
      answer before (.allocate billId) = .error .db → i64Max < (after before).nextNumber.getD 1) ∧
    (∀ before before' billId number number', Gives calls before billId number →
      Gives calls before' billId number' → number = number') ∧
    (∀ before before' billId billId' number, Gives calls before billId number →
      Gives calls before' billId' number → billId = billId') ∧
    (∀ before billId number, Gives calls before billId number → Unnumbered before billId →
      (∀ before' billId' number', Gives before before' billId' number' → number' < number) ∧
        ∀ floor, .raiseFloor floor ∈ before → floor < number) ∧
    (∀ before billId number between billId' number',
      Gives calls before billId number → Unnumbered before billId →
      Gives calls (before ++ .allocate billId :: between) billId' number' →
      Unnumbered (before ++ .allocate billId :: between) billId' →
      (∀ floor, .raiseFloor floor ∉ between) →
      (∀ middle other given, middle ++ [.allocate other] <+: between →
        answer (before ++ .allocate billId :: middle) (.allocate other) = .ok given →
          ¬ Unnumbered (before ++ .allocate billId :: middle) other) →
      number' = number + 1) := by
  have hbefore : ∀ {before : List ReceiptCall} {billId : BillId} {number : Nat},
      Gives calls before billId number →
        ∀ floor, .raiseFloor floor ∈ before → floor < i64Max := by
    intro before billId number hgives floor hfloor
    exact hfloors floor (hgives.1.subset (mem_append_left _ hfloor))
  refine ⟨?_, ?_, ?_, ?_, ?_⟩
  · intro before billId _ hrefused
    have hserved : answer before (.allocate billId) =
        ((after before).allocateReceipt billId).1 := rfl
    rw [hserved] at hrefused
    rcases allocateReceipt_cases (after before) billId with ⟨_, _, heq⟩ | ⟨_, _, heq⟩ |
      ⟨_, hpast, _⟩
    · rw [heq] at hrefused
      contradiction
    · rw [heq] at hrefused
      contradiction
    · exact hpast
  · intro before before' billId number number' hgives hgives'
    have hnumber := allocation_of_gives hfloors hgives
    rw [allocation_of_gives hfloors hgives'] at hnumber
    exact (some.inj hnumber).symm
  · intro before before' billId billId' number hgives hgives'
    exact (numbered_after hfloors).distinct billId billId' number
      (allocation_of_gives hfloors hgives) (allocation_of_gives hfloors hgives')
  · intro before billId number hgives hnew
    have h := numbered_after (hbefore hgives)
    obtain ⟨rfl, _⟩ := counter_of_gives (hbefore hgives) hgives.2 hnew
    refine ⟨fun before' billId' number' hearlier => ?_, h.above⟩
    exact h.below billId' number' (allocation_of_gives (hbefore hgives) hearlier)
  · intro before billId number between billId' number' hgives hnew hgives' hnew' hquiet hold
    have hsplit : before ++ .allocate billId :: between =
        (before ++ [.allocate billId]) ++ between := append_cons ..
    have hcounter := (counter_of_gives (hbefore hgives) hgives.2 hnew).2
    have hsame : (after (before ++ .allocate billId :: between)).nextNumber =
        some (number + 1) := by
      rw [hsplit, ← hcounter]
      refine counter_of_quiet (fun floor hfloor => ?_) hquiet fun middle other given hbefore => ?_
      · exact hfloors floor (hgives.1.subset hfloor)
      · rw [append_assoc]
        exact hold middle other given hbefore
    obtain ⟨rfl, _⟩ := counter_of_gives (hbefore hgives') hgives'.2 hnew'
    rw [hsame]
    rfl

/-- A bill, a floor and two more bills, the first asked for again. -/
theorem receipt_numbering_floor :
    Gives [.allocate ⟨1⟩, .raiseFloor 7, .allocate ⟨2⟩, .allocate ⟨1⟩, .allocate ⟨3⟩] [] ⟨1⟩ 1 ∧
      Gives [.allocate ⟨1⟩, .raiseFloor 7, .allocate ⟨2⟩, .allocate ⟨1⟩, .allocate ⟨3⟩]
        [.allocate ⟨1⟩, .raiseFloor 7] ⟨2⟩ 8 ∧
      (1 : Nat) < 8 := by
  have hfirst : Gives [.allocate ⟨1⟩, .raiseFloor 7, .allocate ⟨2⟩, .allocate ⟨1⟩, .allocate ⟨3⟩]
      [] ⟨1⟩ 1 := ⟨by simp, by decide +kernel⟩
  have hsecond : Gives [.allocate ⟨1⟩, .raiseFloor 7, .allocate ⟨2⟩, .allocate ⟨1⟩, .allocate ⟨3⟩]
      [.allocate ⟨1⟩, .raiseFloor 7] ⟨2⟩ 8 := ⟨by simp, by decide +kernel⟩
  refine ⟨hfirst, hsecond, ?_⟩
  have hnew : Unnumbered [.allocate ⟨1⟩, .raiseFloor 7] ⟨2⟩ := by
    rintro before number ⟨hbefore, _⟩
    have hmem : ReceiptCall.allocate ⟨2⟩ ∈ [ReceiptCall.allocate ⟨1⟩, .raiseFloor 7] :=
      hbefore.subset (by simp)
    simp at hmem
  have hfloors : ∀ floor, ReceiptCall.raiseFloor floor ∈
      [.allocate ⟨1⟩, .raiseFloor 7, .allocate ⟨2⟩, .allocate ⟨1⟩, .allocate ⟨3⟩] →
        floor < i64Max := by
    intro floor hfloor
    simp only [mem_cons, ReceiptCall.raiseFloor.injEq, reduceCtorEq, false_or, or_false,
      not_mem_nil] at hfloor
    rw [hfloor]
    decide
  exact ((receipt_numbering hfloors).2.2.2.1 _ ⟨2⟩ 8 hsecond hnew).1 [] ⟨1⟩ 1
    ⟨by simp, hfirst.2⟩

end PosFramework
