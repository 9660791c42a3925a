import Mathlib

set_option autoImplicit false

/-! # At-least-once delivery

A receiver hears the elements of a history, some of them more than once, and drops what it has heard
by a key. Where each element it hears is one it has heard before or the next one, what it keeps is
the beginning of the history. -/

namespace Redelivery

variable {α κ : Type} [DecidableEq κ] (key : α → κ)

/-- Keep an element unless one with its key is kept. -/
def hear (kept : List α) (a : α) : List α :=
  if kept.any fun b => decide (key b = key a) then kept else kept ++ [a]

/-- What is left of what was heard when repeats are dropped. -/
def firsts (heard : List α) : List α := heard.foldl (hear key) []

variable {key}

theorem firsts_concat (heard : List α) (a : α) :
    firsts key (heard ++ [a]) = hear key (firsts key heard) a :=
  List.foldl_append

theorem hear_of_mem {kept : List α} {a : α} (h : a ∈ kept) : hear key kept a = kept :=
  if_pos (List.any_eq_true.2 ⟨a, h, decide_eq_true rfl⟩)

theorem hear_of_new {kept : List α} {a : α} (h : key a ∉ kept.map key) :
    hear key kept a = kept ++ [a] := by
  refine if_neg fun hany => h ?_
  obtain ⟨b, hb, hkey⟩ := List.any_eq_true.1 hany
  rw [← of_decide_eq_true hkey]
  exact List.mem_map_of_mem hb

theorem mem_of_mem_firsts {heard : List α} {a : α} (h : a ∈ firsts key heard) : a ∈ heard := by
  induction heard using List.reverseRecOn with
  | nil => exact h
  | append_singleton heard b ih =>
    rw [firsts_concat, hear] at h
    split at h
    · exact List.mem_append_left _ (ih h)
    · rcases List.mem_append.1 h with hold | hnew
      · exact List.mem_append_left _ (ih hold)
      · exact List.mem_append_right _ hnew

/-- Hearing the next element of a history, or one heard before. -/
theorem firsts_hear {history heard : List α} {n i : Nat} {a : α}
    (hdistinct : (history.map key).Nodup) (hheard : firsts key heard = history.take n) (hi : i ≤ n)
    (ha : history[i]? = some a) : firsts key (heard ++ [a]) = history.take (max n (i + 1)) := by
  rw [firsts_concat, hheard]
  obtain ⟨hlt, rfl⟩ := List.getElem?_eq_some_iff.1 ha
  rcases Nat.lt_or_eq_of_le hi with hbefore | rfl
  · rw [Nat.max_eq_left hbefore]
    refine hear_of_mem ?_
    rw [List.mem_take_iff_getElem]
    exact ⟨i, by omega, rfl⟩
  · rw [Nat.max_eq_right (Nat.le_succ i), List.take_succ_eq_append_getElem hlt]
    refine hear_of_new ?_
    -- the elements before it have other keys
    rw [← List.take_append_drop i history, List.map_append, List.nodup_append] at hdistinct
    intro hmem
    refine hdistinct.2.2 _ hmem _ ?_ rfl
    rw [List.drop_eq_getElem_cons hlt]
    exact List.mem_map_of_mem List.mem_cons_self

end Redelivery
