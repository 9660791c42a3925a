import PosFramework.Lib.Keyed

set_option autoImplicit false

/-! # Entries of a map

A map's entry is made where it is missing and changed where it is there. What a quantity sums to
over the entries changes by what it changes at the one key that was written. -/

namespace Entries

open Std

variable {κ β : Type} [Ord κ] [TransOrd κ] [LawfulEqOrd κ] [DecidableEq κ]

/-- Change what a key holds, beginning with `fresh` where it holds nothing. -/
def upsert (m : ExtTreeMap κ β) (k : κ) (fresh : β) (change : β → β) : ExtTreeMap κ β :=
  m.insert k (change (m[k]?.getD fresh))

@[simp] theorem get_upsert (m : ExtTreeMap κ β) (k a : κ) (fresh : β) (change : β → β) :
    (upsert m k fresh change)[a]? =
      if k = a then some (change (m[k]?.getD fresh)) else m[a]? :=
  Keyed.get_insert m k a _

/-- Maps are compared by their entries. -/
instance (priority := high) decidableEq [DecidableEq β] : DecidableEq (ExtTreeMap κ β) :=
  fun m m' => decidable_of_iff (m.toList = m'.toList) ExtTreeMap.toList_inj

/-- What a key holds is worth; nothing where it holds nothing. -/
def worth (g : β → Int) (m : ExtTreeMap κ β) (k : κ) : Int := m[k]?.elim 0 g

theorem worth_insert (g : β → Int) (m : ExtTreeMap κ β) (k a : κ) (b : β) :
    worth g (m.insert k b) a = if k = a then g b else worth g m a := by
  rw [worth, Keyed.get_insert]
  split
  · rw [Option.elim_some]
  · rw [worth]

theorem worth_upsert (g : β → Int) (m : ExtTreeMap κ β) (k a : κ) (fresh : β) (change : β → β) :
    worth g (upsert m k fresh change) a =
      if k = a then g (change (m[k]?.getD fresh)) else worth g m a := worth_insert ..

theorem worth_erase (g : β → Int) (m : ExtTreeMap κ β) (k a : κ) :
    worth g (m.erase k) a = if k = a then 0 else worth g m a := by
  rw [worth, Keyed.get_erase]
  split
  · rw [Option.elim_none]
  · rw [worth]

/-- What the entries are worth together. -/
def total (g : β → Int) (m : ExtTreeMap κ β) : Int := (m.toList.map fun entry => g entry.2).sum

omit [DecidableEq κ] in
theorem nodup_keys (m : ExtTreeMap κ β) : (m.toList.map Prod.fst).Nodup := by
  refine List.pairwise_map.2 (List.Pairwise.imp ?_ ExtTreeMap.distinct_keys_toList)
  rintro a b hne heq
  exact hne ((Keyed.compare_eq_iff a.1 b.1).2 heq)

/-- A total is a sum over any finite set of keys that covers the map. -/
theorem total_eq_sum (g : β → Int) (m : ExtTreeMap κ β) {S : Finset κ}
    (hS : ∀ k, m[k]? ≠ none → k ∈ S) : total g m = ∑ k ∈ S, worth g m k := by
  have hworth : ∀ entry ∈ m.toList, g entry.2 = worth g m entry.1 := by
    rintro ⟨k, v⟩ hentry
    rw [worth, ExtTreeMap.mem_toList_iff_getElem?_eq_some.1 hentry]
    rfl
  have hkeys : total g m = ∑ k ∈ (m.toList.map Prod.fst).toFinset, worth g m k := by
    rw [List.sum_toFinset _ (nodup_keys m), List.map_map, total]
    exact congrArg List.sum (List.map_congr_left hworth)
  rw [hkeys]
  refine Finset.sum_subset (fun k hk => ?_) fun k _ hk => ?_
  · obtain ⟨⟨k', v⟩, hentry, rfl⟩ := List.mem_map.1 (List.mem_toFinset.1 hk)
    refine hS k' ?_
    rw [ExtTreeMap.mem_toList_iff_getElem?_eq_some.1 hentry]
    exact Option.some_ne_none _
  · have hnone : m[k]? = none := by
      by_contra hsome
      obtain ⟨v, hv⟩ := Option.ne_none_iff_exists'.1 hsome
      refine hk (List.mem_toFinset.2 (List.mem_map.2 ⟨(k, v), ?_, rfl⟩))
      exact ExtTreeMap.mem_toList_iff_getElem?_eq_some.2 hv
    rw [worth, hnone]
    rfl

/-- Maps that agree but at one key differ in total by what they differ there. -/
theorem total_of_agree (g : β → Int) {m m' : ExtTreeMap κ β} {k : κ}
    (hagree : ∀ a, a ≠ k → m'[a]? = m[a]?) :
    total g m' = total g m + (worth g m' k - worth g m k) := by
  let S : Finset κ := (m.toList.map Prod.fst).toFinset ∪ (m'.toList.map Prod.fst).toFinset ∪ {k}
  have hcover : ∀ n : ExtTreeMap κ β, (n.toList.map Prod.fst).toFinset ⊆ S →
      ∀ a, n[a]? ≠ none → a ∈ S := by
    intro n hsub a ha
    obtain ⟨v, hv⟩ := Option.ne_none_iff_exists'.1 ha
    exact hsub (List.mem_toFinset.2 (List.mem_map.2
      ⟨(a, v), ExtTreeMap.mem_toList_iff_getElem?_eq_some.2 hv, rfl⟩))
  have hk : k ∈ S := Finset.mem_union_right _ (Finset.mem_singleton_self k)
  have hm := total_eq_sum g m (hcover m (Finset.subset_union_left.trans Finset.subset_union_left))
  have hm' :=
    total_eq_sum g m' (hcover m' (Finset.subset_union_right.trans Finset.subset_union_left))
  have hrest : ∑ a ∈ S.erase k, worth g m' a = ∑ a ∈ S.erase k, worth g m a :=
    Finset.sum_congr rfl fun a ha => by rw [worth, worth, hagree a (Finset.ne_of_mem_erase ha)]
  rw [hm, hm', ← Finset.add_sum_erase S _ hk, ← Finset.add_sum_erase S _ hk, hrest]
  ring

theorem total_upsert (g : β → Int) (m : ExtTreeMap κ β) (k : κ) (fresh : β) (change : β → β)
    (hfresh : g fresh = 0) {d : Int} (hchange : ∀ b, g (change b) = g b + d) :
    total g (upsert m k fresh change) = total g m + d := by
  have hagree : ∀ a, a ≠ k → (upsert m k fresh change)[a]? = m[a]? := fun a ha => by
    rw [get_upsert, if_neg ha.symm]
  rw [total_of_agree g hagree, worth, worth, get_upsert, if_pos rfl, Option.elim_some, hchange]
  cases m[k]? with
  | none => rw [Option.getD_none, hfresh, Option.elim_none]; ring
  | some b => rw [Option.getD_some, Option.elim_some]; ring

end Entries
