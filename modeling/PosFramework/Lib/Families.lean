import Mathlib

set_option autoImplicit false

/-! # Families of disjoint sets

A family of sets, no two of which share an element, and what may happen to it: one set takes
elements that no set has, and every set may lose some. -/

namespace Families

variable {κ α : Type}

/-- No two sets of the family share an element. -/
def Apart (C : κ → Set α) : Prop := Pairwise fun a b => Disjoint (C a) (C b)

/-- One set takes elements that no set has; the others gain nothing. -/
theorem Apart.reassign {C C' : κ → Set α} {a : κ} (hC : Apart C)
    (hothers : ∀ k, k ≠ a → C' k ⊆ C k) (hnew : ∀ x ∈ C' a, x ∈ C a ∨ ∀ k, x ∉ C k) :
    Apart C' := by
  -- what `a` has now, no other set has
  have hacross : ∀ k, k ≠ a → Disjoint (C' a) (C' k) := by
    intro k hk
    refine Set.disjoint_left.2 fun x hxa hxk => ?_
    rcases hnew x hxa with hx | hx
    · exact Set.disjoint_left.1 (hC hk.symm) hx (hothers k hk hxk)
    · exact hx k (hothers k hk hxk)
  intro j k hjk
  by_cases hj : j = a
  · subst hj
    exact hacross k hjk.symm
  · by_cases hk : k = a
    · subst hk
      exact (hacross j hj).symm
    · exact (hC hjk).mono (hothers j hj) (hothers k hk)

end Families
