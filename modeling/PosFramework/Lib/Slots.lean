import Mathlib

set_option autoImplicit false

/-! # Parties in their slots

A system of several parties keeps each of them in a slot of a list; a step replaces one of them.
What is true of every party stays true of the others, and a party that is not the one replaced is
still there. -/

namespace Slots

variable {α : Type} {parties : List α} {i : Nat} {before after another : α}

theorem forall_mem_set {P : α → Prop} (hothers : ∀ party ∈ parties, P party) (hafter : P after) :
    ∀ party ∈ parties.set i after, P party := by
  intro party hparty
  rcases List.mem_or_eq_of_mem_set hparty with hold | rfl
  · exact hothers party hold
  · exact hafter

theorem mem_set_self (hget : parties[i]? = some before) : after ∈ parties.set i after :=
  List.mem_set (List.getElem?_eq_some_iff.1 hget).1 _

/-- Replacing one party leaves the others where they are. -/
theorem mem_set_of_ne (hget : parties[i]? = some before) (hanother : another ∈ parties)
    (hne : another ≠ before) : another ∈ parties.set i after := by
  obtain ⟨j, hj⟩ := List.mem_iff_getElem?.1 hanother
  refine List.mem_iff_getElem?.2 ⟨j, ?_⟩
  have hij : i ≠ j := by
    rintro rfl
    exact hne (Option.some.inj (hj.symm.trans hget))
  rw [List.getElem?_set_ne hij]
  exact hj

end Slots
