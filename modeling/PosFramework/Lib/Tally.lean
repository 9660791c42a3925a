import PosFramework.Lib.Fallible

set_option autoImplicit false

/-! # Running sums per key

A tally is a list of entries with a key each, in the order the keys first appeared. `bump` adds to
the entry of a key, or opens one at the end. A bump changes the sum at its own key by exactly what
was added and at no other key, and never makes two entries of one key; `Adds` states this for any
step function, and the loop lemmas carry it over a whole list. -/

namespace Tally

open Fallible

variable {α β κ ε : Type} [DecidableEq κ]

/-- Add to the first entry that is the `same`, or open `fresh` at the end. -/
def bump (same : α → Bool) (merge : α → Except ε α) (fresh : α) : List α → Except ε (List α)
  | [] => .ok [fresh]
  | x :: rest =>
    if same x then do
      let x' ← merge x
      pure (x' :: rest)
    else do
      let rest' ← bump same merge fresh rest
      pure (x :: rest')

/-- What the entries of key `k` come to. -/
def sumAt (key : α → κ) (val : α → Int) (k : κ) (xs : List α) : Int :=
  ((xs.filter fun x => decide (key x = k)).map val).sum

/-- What all the entries come to. -/
def total (val : α → Int) (xs : List α) : Int := (xs.map val).sum

@[simp] theorem total_nil (val : α → Int) : total val [] = 0 := rfl

@[simp] theorem total_cons (val : α → Int) (x : α) (xs : List α) :
    total val (x :: xs) = val x + total val xs := rfl

section SumAt

variable (key : α → κ) (val : α → Int) (k : κ)

@[simp] theorem sumAt_nil : sumAt key val k [] = 0 := rfl

@[simp] theorem sumAt_cons (x : α) (xs : List α) :
    sumAt key val k (x :: xs) = (if key x = k then val x else 0) + sumAt key val k xs := by
  unfold sumAt
  by_cases h : key x = k
  · simp [h]
  · simp [h]

@[simp] theorem sumAt_append (xs ys : List α) :
    sumAt key val k (xs ++ ys) = sumAt key val k xs + sumAt key val k ys := by
  simp [sumAt]

variable {xs : List α}

/-- A key no entry has sums to nothing. -/
theorem sumAt_of_not_mem (h : k ∉ xs.map key) : sumAt key val k xs = 0 := by
  induction xs with
  | nil => rfl
  | cons x xs ih =>
    simp only [List.map_cons, List.mem_cons, not_or] at h
    rw [sumAt_cons, if_neg (fun he => h.1 he.symm), ih h.2, zero_add]

/-- With one entry per key, an entry is what its key sums to. -/
theorem sumAt_of_mem (hnd : (xs.map key).Nodup) {x : α} (hx : x ∈ xs) :
    sumAt key val (key x) xs = val x := by
  induction xs with
  | nil => exact absurd hx (by simp)
  | cons y ys ih =>
    simp only [List.map_cons, List.nodup_cons] at hnd
    rcases List.mem_cons.1 hx with rfl | hx
    · rw [sumAt_cons, if_pos rfl, sumAt_of_not_mem key val _ hnd.1, add_zero]
    · have hne : key y ≠ key x := fun he => hnd.1 (he ▸ List.mem_map_of_mem hx)
      rw [sumAt_cons, if_neg hne, ih hnd.2 hx, zero_add]

theorem sumAt_nonneg (h : ∀ x ∈ xs, 0 ≤ val x) : 0 ≤ sumAt key val k xs := by
  refine List.sum_nonneg ?_
  intro v hv
  obtain ⟨x, hx, rfl⟩ := List.mem_map.1 hv
  exact h x (List.mem_of_mem_filter hx)

end SumAt

/-- A step that adds `valOf b` at key `keyOf b` and opens an entry only for a new key. -/
def Adds (key : α → κ) (val : α → Int) (keyOf : β → κ) (valOf : β → Int)
    (step : List α → β → Except ε (List α)) : Prop :=
  ∀ xs b ys, step xs b = .ok ys →
    (ys.map key = if keyOf b ∈ xs.map key then xs.map key else xs.map key ++ [keyOf b]) ∧
    (∀ k, sumAt key val k ys = sumAt key val k xs + if keyOf b = k then valOf b else 0) ∧
    total val ys = total val xs + valOf b

/-- A bump adds its fresh entry's value at its key, if merging adds it there. -/
theorem bump_adds {key : α → κ} {val : α → Int} {same : α → Bool} {merge : α → Except ε α}
    (fresh : α) (hsame : ∀ x, same x = true ↔ key x = key fresh)
    (hmerge : ∀ x x', merge x = .ok x' → key x' = key x ∧ val x' = val x + val fresh)
    {xs ys : List α} (h : bump same merge fresh xs = .ok ys) :
    (ys.map key = if key fresh ∈ xs.map key then xs.map key else xs.map key ++ [key fresh]) ∧
    (∀ k, sumAt key val k ys = sumAt key val k xs + if key fresh = k then val fresh else 0) ∧
    total val ys = total val xs + val fresh := by
  induction xs generalizing ys with
  | nil =>
    simp only [bump, Except.ok.injEq] at h
    subst h
    simp [total]
  | cons x xs ih =>
    simp only [bump] at h
    split at h
    · next hx =>
        simp only [bind_eq_ok, pure_eq_ok] at h
        obtain ⟨x', hx', rfl⟩ := h
        obtain ⟨hkey, hval⟩ := hmerge x x' hx'
        have hfresh : key x = key fresh := (hsame x).1 hx
        refine ⟨?_, ?_, ?_⟩
        · simp [hkey, hfresh]
        · intro k
          rw [sumAt_cons, sumAt_cons, hkey, hval, hfresh]
          by_cases hk : key fresh = k
          · simp only [hk, if_true]
            ring
          · simp only [hk, if_false]
            ring
        · rw [total_cons, total_cons, hval]
          ring
    · next hx =>
        simp only [bind_eq_ok, pure_eq_ok] at h
        obtain ⟨rest', hrest, rfl⟩ := h
        obtain ⟨hkeys, hsum, htotal⟩ := ih hrest
        have hne : key fresh ≠ key x := fun he => hx ((hsame x).2 he.symm)
        refine ⟨?_, ?_, ?_⟩
        · simp only [List.map_cons, hkeys, List.mem_cons, hne, false_or]
          split <;> rfl
        · intro k
          rw [sumAt_cons, sumAt_cons, hsum k]
          ring
        · rw [total_cons, total_cons, htotal]
          ring

section Loop

variable {key : α → κ} {val : α → Int} {keyOf : β → κ} {valOf : β → Int}
  {step : List α → β → Except ε (List α)} {xs ys : List α} {bs : List β}

theorem Adds.mem_keys (hadds : Adds key val keyOf valOf step) {b : β} (h : step xs b = .ok ys)
    (k : κ) : k ∈ ys.map key ↔ k ∈ xs.map key ∨ k = keyOf b := by
  rw [(hadds xs b ys h).1]
  split
  · next hmem =>
      constructor
      · exact Or.inl
      · rintro (hk | rfl)
        · exact hk
        · exact hmem
  · simp

theorem Adds.nodup_keys (hadds : Adds key val keyOf valOf step) {b : β} (h : step xs b = .ok ys)
    (hnd : (xs.map key).Nodup) : (ys.map key).Nodup := by
  rw [(hadds xs b ys h).1]
  split
  · exact hnd
  · next hmem => exact hnd.append (List.nodup_singleton _) (List.disjoint_singleton.2 hmem)

/-- The loop's keys: those it started from and those it was given. -/
theorem foldlM_mem_keys (hadds : Adds key val keyOf valOf step) (h : bs.foldlM step xs = .ok ys)
    (k : κ) :
    k ∈ ys.map key ↔ k ∈ xs.map key ∨ k ∈ bs.map keyOf := by
  induction bs generalizing xs with
  | nil =>
    simp only [List.foldlM_nil, pure_eq_ok] at h
    subst h
    simp
  | cons b bs ih =>
    simp only [List.foldlM_cons, bind_eq_ok] at h
    obtain ⟨zs, hstep, hrest⟩ := h
    rw [ih hrest, hadds.mem_keys hstep k, List.map_cons, List.mem_cons, or_assoc]

theorem foldlM_nodup_keys (hadds : Adds key val keyOf valOf step) (h : bs.foldlM step xs = .ok ys)
    (hnd : (xs.map key).Nodup) : (ys.map key).Nodup :=
  foldlM_invariant (fun zs => (zs.map key).Nodup)
    (fun _ _ _ _ hzs hstep => hadds.nodup_keys hstep hzs) h hnd

/-- The loop's sum at a key: what it started from plus what it was given there. -/
theorem foldlM_sumAt (hadds : Adds key val keyOf valOf step) (h : bs.foldlM step xs = .ok ys)
    (k : κ) :
    sumAt key val k ys = sumAt key val k xs + sumAt keyOf valOf k bs := by
  induction bs generalizing xs with
  | nil =>
    simp only [List.foldlM_nil, pure_eq_ok] at h
    subst h
    simp
  | cons b bs ih =>
    simp only [List.foldlM_cons, bind_eq_ok] at h
    obtain ⟨zs, hstep, hrest⟩ := h
    rw [ih hrest, (hadds xs b zs hstep).2.1 k, sumAt_cons]
    ring

/-- The loop's total: what it started from plus everything it was given. -/
theorem foldlM_total (hadds : Adds key val keyOf valOf step) (h : bs.foldlM step xs = .ok ys) :
    total val ys = total val xs + total valOf bs := by
  induction bs generalizing xs with
  | nil =>
    simp only [List.foldlM_nil, pure_eq_ok] at h
    subst h
    simp
  | cons b bs ih =>
    simp only [List.foldlM_cons, bind_eq_ok] at h
    obtain ⟨zs, hstep, hrest⟩ := h
    rw [ih hrest, (hadds xs b zs hstep).2.2, total_cons]
    ring

end Loop

end Tally
