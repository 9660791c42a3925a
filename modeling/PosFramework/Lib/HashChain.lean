import Mathlib

set_option autoImplicit false

/-! # Hash chains

Rows that follow one another: each has the next number, names the hash of the one before it and has
a hash of its own. What rows follow is a number and a hash, so a chain can be cut anywhere and each
part is a chain. Where a row's hash determines the row and what it follows, the hash at the end
determines the whole chain, read backwards from it. -/

namespace HashChain

open List

variable {ρ η : Type}

/-- What makes rows a chain. -/
structure Links (ρ η : Type) where
  seq : ρ → Nat
  prev : ρ → η
  hash : ρ → η
  /-- The row's hash is that of its content. -/
  Sound : ρ → Prop

variable (L : Links ρ η)

/-- Rows that follow a number and a hash, one after another. -/
inductive Linked : Nat → η → List ρ → Prop
  | nil (n : Nat) (h : η) : Linked n h []
  | cons {n : Nat} {h : η} {row : ρ} {rows : List ρ} (hseq : L.seq row = n + 1)
      (hprev : L.prev row = h) (hsound : L.Sound row) (hrows : Linked (n + 1) (L.hash row) rows) :
      Linked n h (row :: rows)

/-- The hash rows end on, where they follow one. -/
def endHash (h : η) (rows : List ρ) : η := (rows.getLast?.map L.hash).getD h

variable {L} {n m : Nat} {h : η} {rows more : List ρ} {row : ρ}

@[simp] theorem endHash_nil : endHash L h [] = h := rfl

@[simp] theorem endHash_cons : endHash L h (row :: rows) = endHash L (L.hash row) rows := by
  cases rows with
  | nil => rfl
  | cons next rest =>
    cases hlast : (next :: rest).getLast? with
    | none => simp at hlast
    | some last => rfl

@[simp] theorem endHash_append :
    endHash L h (rows ++ more) = endHash L (endHash L h rows) more := by
  induction rows generalizing h with
  | nil => rfl
  | cons first rest ih => rw [cons_append, endHash_cons, endHash_cons, ih]

/-- A chain is cut into the rows up to a place and those that follow its hash there. -/
theorem linked_append : Linked L n h (rows ++ more) ↔
    Linked L n h rows ∧ Linked L (n + rows.length) (endHash L h rows) more := by
  induction rows generalizing n h with
  | nil => exact ⟨fun hmore => ⟨.nil n h, hmore⟩, fun hboth => hboth.2⟩
  | cons first rest ih =>
    have hlength : n + (first :: rest).length = n + 1 + rest.length := by
      rw [length_cons]
      omega
    rw [hlength, endHash_cons]
    constructor
    · intro hall
      cases hall with
      | cons hseq hprev hsound hrows =>
        obtain ⟨hrest, hmore⟩ := ih.1 hrows
        exact ⟨.cons hseq hprev hsound hrest, hmore⟩
    · rintro ⟨hown, hmore⟩
      cases hown with
      | cons hseq hprev hsound hrows => exact .cons hseq hprev hsound (ih.2 ⟨hrows, hmore⟩)

/-- One more row at the end. -/
theorem Linked.concat (hrows : Linked L n h rows) (hseq : L.seq row = n + rows.length + 1)
    (hprev : L.prev row = endHash L h rows) (hsound : L.Sound row) :
    Linked L n h (rows ++ [row]) :=
  linked_append.2 ⟨hrows, .cons hseq hprev hsound (.nil _ _)⟩

theorem Linked.drop (hrows : Linked L n h rows) (k : Nat) (hk : k ≤ rows.length) :
    Linked L (n + k) (endHash L h (rows.take k)) (rows.drop k) := by
  rw [← take_append_drop k rows] at hrows
  have hafter := (linked_append.1 hrows).2
  rwa [length_take, Nat.min_eq_left hk] at hafter

/-- A chain's last row has the number of rows after the one it follows, and its hash is the chain's
    end. -/
theorem Linked.getLast? (hrows : Linked L n h rows) (hlast : rows.getLast? = some row) :
    L.seq row = n + rows.length ∧ L.hash row = endHash L h rows := by
  obtain ⟨front, rfl⟩ := getLast?_eq_some_iff.1 hlast
  cases (linked_append.1 hrows).2 with
  | cons hseq _ _ _ =>
    rw [length_append, length_singleton, endHash_append, endHash_cons, endHash_nil]
    exact ⟨hseq, rfl⟩

/-- The numbers of a chain, from the one it follows. -/
theorem Linked.map_seq (hrows : Linked L n h rows) :
    rows.map L.seq = range' (n + 1) rows.length := by
  induction hrows with
  | nil n h => rfl
  | cons hseq _ _ _ ih => rw [map_cons, hseq, ih, length_cons, range'_succ]

theorem Linked.seq_mem (hrows : Linked L n h rows) (hrow : row ∈ rows) :
    n < L.seq row ∧ L.seq row ≤ n + rows.length := by
  have hmem : L.seq row ∈ rows.map L.seq := mem_map_of_mem hrow
  rw [hrows.map_seq, mem_range'_1] at hmem
  omega

theorem Linked.pairwise (hrows : Linked L n h rows) :
    rows.Pairwise fun a b => L.seq a < L.seq b := by
  have hrange : (rows.map L.seq).Pairwise (· < ·) := by
    rw [hrows.map_seq]
    exact pairwise_lt_range'
  exact pairwise_map.1 hrange

/-- No two rows of a chain have the same number. -/
theorem Linked.eq_of_seq (hrows : Linked L n h rows) {a b : ρ} (ha : a ∈ rows) (hb : b ∈ rows)
    (hseq : L.seq a = L.seq b) : a = b := by
  induction hrows with
  | nil => contradiction
  | cons hfirst _ _ hrest ih =>
    rcases mem_cons.1 ha with rfl | hlater
    · rcases mem_cons.1 hb with rfl | hlater'
      · rfl
      · have hpast := (hrest.seq_mem hlater').1
        omega
    · rcases mem_cons.1 hb with rfl | hlater'
      · have hpast := (hrest.seq_mem hlater).1
        omega
      · exact ih hlater hlater'

/-- A row names the hash of the row with the number before its own. -/
theorem Linked.prev_eq (hrows : Linked L n h rows) {a b : ρ} (ha : a ∈ rows) (hb : b ∈ rows)
    (hseq : L.seq b = L.seq a + 1) : L.prev b = L.hash a := by
  induction hrows with
  | nil => contradiction
  | @cons n h row rows hfirst _ _ hrest ih =>
    rcases mem_cons.1 ha with rfl | hlater
    · rcases mem_cons.1 hb with rfl | hlater'
      · omega
      · cases hrest with
        | nil => contradiction
        | cons hsecond hprev _ hthird =>
          rcases mem_cons.1 hlater' with rfl | hfar
          · exact hprev
          · have hpast := (hthird.seq_mem hfar).1
            omega
    · rcases mem_cons.1 hb with rfl | hlater'
      · have hpast := (hrest.seq_mem hlater).1
        omega
      · exact ih hlater hlater'

/-- A chain has a row for each of its numbers. -/
theorem Linked.exists_seq (hrows : Linked L n h rows) {k : Nat} (hpast : n < k)
    (hk : k ≤ n + rows.length) : ∃ row ∈ rows, L.seq row = k := by
  have hmem : k ∈ rows.map L.seq := by
    rw [hrows.map_seq, mem_range'_1]
    omega
  obtain ⟨row, hrow, hseq⟩ := mem_map.1 hmem
  exact ⟨row, hrow, hseq⟩

theorem Linked.sound_of_mem (hrows : Linked L n h rows) (hrow : row ∈ rows) : L.Sound row := by
  induction hrows with
  | nil => contradiction
  | cons _ _ hsound _ ih =>
    rcases mem_cons.1 hrow with rfl | hlater
    · exact hsound
    · exact ih hlater

/-- The rows past a number that a chain reaches. -/
theorem Linked.filter_gt (hrows : Linked L n h rows) {k : Nat} (hk : k ≤ rows.length) :
    (rows.filter fun row => decide (n + k < L.seq row)) = rows.drop k := by
  have hsplit := hrows
  rw [← take_append_drop k rows] at hsplit
  obtain ⟨htake, hdrop⟩ := linked_append.1 hsplit
  rw [length_take, Nat.min_eq_left hk] at hdrop
  rw [← take_append_drop k rows, filter_append, take_append_drop,
    filter_eq_nil_iff.2, filter_eq_self.2, nil_append]
  · intro row hrow
    exact decide_eq_true (hdrop.seq_mem hrow).1
  · intro row hrow
    have hle := (htake.seq_mem hrow).2
    rw [length_take, Nat.min_eq_left hk] at hle
    simpa using hle

/-! ## The end determines the chain -/

/-- Where a row's hash determines what the row says and what it follows, two chains of one length
    and with one hash at the end say the same, row by row. -/
theorem Linked.unique {Same : ρ → ρ → Prop} {other : List ρ} {h' : η}
    (hdigest : ∀ a b, L.Sound a → L.Sound b → L.hash a = L.hash b → L.prev a = L.prev b ∧ Same a b)
    (hrows : Linked L n h rows) (hother : Linked L m h' other)
    (hlength : rows.length = other.length)
    (hend : rows = [] ∨ endHash L h rows = endHash L h' other) : List.Forall₂ Same rows other := by
  -- from the last row backwards: its hash is the end's, and it names the hash before it
  induction rows using reverseRecOn generalizing other with
  | nil =>
    obtain rfl := length_eq_zero_iff.1 hlength.symm
    exact .nil
  | append_singleton rows row ih =>
    rcases eq_nil_or_concat other with rfl | ⟨others, last, rfl⟩
    · simp at hlength
    rw [concat_eq_append] at hother hlength hend ⊢
    obtain ⟨hfront, hlast⟩ := linked_append.1 hrows
    obtain ⟨hfront', hlast'⟩ := linked_append.1 hother
    cases hlast with
    | cons _ hprev hsound _ =>
      cases hlast' with
      | cons _ hprev' hsound' _ =>
        have hhash : L.hash row = L.hash last := by simpa using hend
        obtain ⟨hprevs, hsame⟩ := hdigest row last hsound hsound' hhash
        have hlengths : rows.length = others.length := by simpa using hlength
        have hends : endHash L h rows = endHash L h' others := by
          rw [← hprev, ← hprev', hprevs]
        exact rel_append (ih hfront hfront' hlengths (.inr hends)) (.cons hsame .nil)

end HashChain
