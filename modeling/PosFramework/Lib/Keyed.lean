import Mathlib

set_option autoImplicit false

/-! # Maps and sets over ordered keys

What a lookup sees after an update, for `Std.ExtTreeMap` and `Std.ExtTreeSet` over keys whose order
decides equality, stated with equality of keys in place of a comparison's outcome. Maps with the
same lookups are equal, so two sequences of updates are compared key by key.

`insertSorted` puts a key into an index that is kept in order, once, and `unionSorted` joins two
such indexes. -/

namespace Keyed

open Std

theorem compare_eq_iff {κ : Type} [Ord κ] [LawfulEqOrd κ] (k a : κ) : compare k a = .eq ↔ k = a :=
  ⟨LawfulEqCmp.eq_of_compare, fun h => h ▸ ReflCmp.compare_self⟩

section Map

variable {κ β : Type} [Ord κ] [TransOrd κ] [LawfulEqOrd κ]

theorem map_ext {m m' : ExtTreeMap κ β} (h : ∀ k : κ, m[k]? = m'[k]?) : m = m' :=
  ExtTreeMap.ext_getElem? h

variable [DecidableEq κ] (m : ExtTreeMap κ β) (k a : κ)

@[simp] theorem get_insert (v : β) : (m.insert k v)[a]? = if k = a then some v else m[a]? := by
  rw [ExtTreeMap.getElem?_insert]
  simp only [compare_eq_iff]

@[simp] theorem get_erase : (m.erase k)[a]? = if k = a then none else m[a]? := by
  rw [ExtTreeMap.getElem?_erase]
  simp only [compare_eq_iff]

@[simp] theorem get_modify (f : β → β) :
    (m.modify k f)[a]? = if k = a then m[k]?.map f else m[a]? := by
  rw [ExtTreeMap.getElem?_modify]
  simp only [compare_eq_iff]

omit [LawfulEqOrd κ] in
/-- What is read of each key after one was changed, as the update of a function. -/
theorem read_eq_update {γ : Type} {m : ExtTreeMap κ β} (m' : ExtTreeMap κ β) {k : κ} {x : Option β}
    (read : Option β → γ) (h : ∀ a, m[a]? = if k = a then x else m'[a]?) :
    (fun a => read m[a]?) = Function.update (fun a => read m'[a]?) k (read x) := by
  funext a
  rw [h, Function.update_apply, apply_ite read]
  exact if_congr eq_comm rfl rfl

variable {v : β}

/-- Writing what a key already holds changes nothing. -/

theorem insert_self {m : ExtTreeMap κ β} {k : κ} (h : m[k]? = some v) : m.insert k v = m := by
  refine map_ext fun a => ?_
  rw [get_insert]
  split
  · next hk =>
    rw [← hk, h]
  · rfl

/-- Changing what a key holds is writing the changed value. -/
theorem modify_eq_insert {m : ExtTreeMap κ β} {k : κ} (h : m[k]? = some v) (f : β → β) :
    m.modify k f = m.insert k (f v) := by
  refine map_ext fun a => ?_
  rw [get_modify, get_insert, h]
  rfl

/-- The later of two writes to a key stays. -/
theorem insert_insert_self (v w : β) : (m.insert k v).insert k w = m.insert k w := by
  refine map_ext fun a => ?_
  simp only [get_insert]
  split <;> rfl

/-- Values under distinct keys are changed once each, whatever the order of the keys. -/
theorem get_foldl_modify {ks : List κ} (hnodup : ks.Nodup) (m : ExtTreeMap κ β) (f : β → β)
    (a : κ) :
    (ks.foldl (fun m k => m.modify k f) m)[a]? = if a ∈ ks then m[a]?.map f else m[a]? := by
  induction ks generalizing m with
  | nil => rfl
  | cons k ks ih =>
    obtain ⟨hk, hks⟩ := List.nodup_cons.1 hnodup
    rw [List.foldl_cons, ih hks, get_modify]
    by_cases hak : k = a
    · subst hak
      rw [if_neg hk, if_pos rfl, if_pos List.mem_cons_self]
    · have hmem : a ∈ k :: ks ↔ a ∈ ks := by simp [Ne.symm hak]
      simp only [if_neg hak, hmem]

omit [DecidableEq κ]

/-- The first key whose value `p` holds of. -/
def findKey (p : β → Bool) (m : ExtTreeMap κ β) : Option κ :=
  (m.toList.find? fun entry => p entry.2).map (·.1)

variable {p : β → Bool} {m : ExtTreeMap κ β} {k : κ}

theorem exists_of_findKey_eq_some (h : findKey p m = some k) :
    ∃ v, m[k]? = some v ∧ p v = true := by
  obtain ⟨⟨k', v⟩, hfind, hk⟩ := Option.map_eq_some_iff.1 h
  obtain rfl : k' = k := hk
  have hp : p (k', v).2 = true := List.find?_some (p := fun entry : κ × β => p entry.2) hfind
  exact ⟨v, ExtTreeMap.mem_toList_iff_getElem?_eq_some.1 (List.mem_of_find?_eq_some hfind), hp⟩

/-- The only key with such a value is the one found, whatever order the keys are searched in. -/
theorem findKey_of_unique (hv : m[k]? = some v) (hp : p v = true)
    (huniq : ∀ (a : κ) (w : β), m[a]? = some w → p w = true → a = k) : findKey p m = some k := by
  cases hfind : findKey p m with
  | none =>
    have hnone := List.find?_eq_none.1 (Option.map_eq_none_iff.1 hfind) (k, v)
      (ExtTreeMap.mem_toList_iff_getElem?_eq_some.2 hv)
    exact absurd hp hnone
  | some a =>
    obtain ⟨w, hw, hpw⟩ := exists_of_findKey_eq_some hfind
    rw [huniq a w hw hpw]

end Map

section Set

variable {κ : Type} [Ord κ] [TransOrd κ] [LawfulEqOrd κ]

variable (s : ExtTreeSet κ) (k a : κ)

@[simp] theorem mem_insert : a ∈ s.insert k ↔ k = a ∨ a ∈ s := by
  rw [ExtTreeSet.mem_insert, compare_eq_iff]

@[simp] theorem mem_erase : a ∈ s.erase k ↔ k ≠ a ∧ a ∈ s := by
  rw [ExtTreeSet.mem_erase, ne_eq, compare_eq_iff]

end Set

section Sorted

variable {κ : Type} [LinearOrder κ]

/-- Put a key into a sorted index at its place, unless it is there. -/
def insertSorted (k : κ) (ks : List κ) : List κ :=
  if k ∈ ks then ks else ks.orderedInsert (· ≤ ·) k

/-- Put every key of a list into a sorted index. -/
def unionSorted (ks new : List κ) : List κ := new.foldl (fun ids k => insertSorted k ids) ks

variable {k : κ} {ks new : List κ}

@[simp] theorem mem_insertSorted {a : κ} : a ∈ insertSorted k ks ↔ a = k ∨ a ∈ ks := by
  unfold insertSorted
  split
  · next hk =>
    exact ⟨.inr, fun h => h.elim (fun he => he ▸ hk) id⟩
  · rw [List.mem_orderedInsert]

theorem nodup_insertSorted (h : ks.Nodup) : (insertSorted k ks).Nodup := by
  unfold insertSorted
  by_cases hk : k ∈ ks
  · rwa [if_pos hk]
  · rw [if_neg hk]
    exact (List.perm_orderedInsert _ k ks).nodup_iff.2 (List.nodup_cons.2 ⟨hk, h⟩)

@[simp] theorem mem_unionSorted {a : κ} : a ∈ unionSorted ks new ↔ a ∈ ks ∨ a ∈ new := by
  unfold unionSorted
  induction new generalizing ks with
  | nil => simp
  | cons k new ih =>
    rw [List.foldl_cons, ih, mem_insertSorted, List.mem_cons]
    tauto

theorem nodup_unionSorted (h : ks.Nodup) : (unionSorted ks new).Nodup := by
  induction new generalizing ks with
  | nil => exact h
  | cons k new ih => exact ih (nodup_insertSorted h)

theorem sorted_insertSorted (h : ks.Pairwise (· < ·)) : (insertSorted k ks).Pairwise (· < ·) := by
  unfold insertSorted
  by_cases hk : k ∈ ks
  · rwa [if_pos hk]
  · rw [if_neg hk]
    have hle : (ks.orderedInsert (· ≤ ·) k).Pairwise (· ≤ ·) :=
      (h.imp fun hlt => hlt.le).orderedInsert k ks
    have hne : (ks.orderedInsert (· ≤ ·) k).Nodup :=
      (List.perm_orderedInsert (· ≤ ·) k ks).nodup_iff.2
        (List.nodup_cons.2 ⟨hk, h.imp fun hlt => hlt.ne⟩)
    exact hle.imp₂ (fun _ _ hle hne => hle.lt_of_ne hne) hne

theorem sorted_unionSorted (h : ks.Pairwise (· < ·)) : (unionSorted ks new).Pairwise (· < ·) := by
  induction new generalizing ks with
  | nil => exact h
  | cons k new ih => exact ih (sorted_insertSorted h)

end Sorted

end Keyed
