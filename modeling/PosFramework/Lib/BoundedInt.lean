import Mathlib

set_option autoImplicit false

/-! # Bounded machine integers

`BoundedInt lo hi` is an integer together with the proof that it lies between `lo` and `hi`, so a
value that left its machine range cannot be written down. Arithmetic is checked: an operation
computes in `Int` and answers `none` when the exact result is out of range. The one fact every
proof uses is `ofInt?_eq_some`: a checked result is the exact one. -/

/-- An integer between `lo` and `hi`, both included. -/
structure BoundedInt (lo hi : Int) where
  val : Int
  lo_le : lo ≤ val
  le_hi : val ≤ hi
deriving DecidableEq

namespace BoundedInt

variable {lo hi : Int}

@[ext] theorem ext {a b : BoundedInt lo hi} (h : a.val = b.val) : a = b := by
  cases a
  cases b
  simp_all

/-- The exact integer as a machine value, where it fits. -/
def ofInt? (n : Int) : Option (BoundedInt lo hi) :=
  if h : lo ≤ n ∧ n ≤ hi then some ⟨n, h.1, h.2⟩ else none

@[simp] theorem ofInt?_eq_some {n : Int} {c : BoundedInt lo hi} :
    ofInt? n = some c ↔ c.val = n := by
  unfold ofInt?
  constructor
  · intro h
    split at h
    · exact (Option.some.inj h) ▸ rfl
    · exact absurd h (by simp)
  · intro h
    subst h
    rw [dif_pos ⟨c.lo_le, c.le_hi⟩]

/-! ## Checked arithmetic -/

def checkedAdd (a b : BoundedInt lo hi) : Option (BoundedInt lo hi) := ofInt? (a.val + b.val)

def checkedSub (a b : BoundedInt lo hi) : Option (BoundedInt lo hi) := ofInt? (a.val - b.val)

def checkedNeg (a : BoundedInt lo hi) : Option (BoundedInt lo hi) := ofInt? (-a.val)

@[simp] theorem checkedAdd_eq_some {a b c : BoundedInt lo hi} :
    a.checkedAdd b = some c ↔ c.val = a.val + b.val := ofInt?_eq_some

@[simp] theorem checkedSub_eq_some {a b c : BoundedInt lo hi} :
    a.checkedSub b = some c ↔ c.val = a.val - b.val := ofInt?_eq_some

end BoundedInt

/-- The 64-bit signed integers. -/
abbrev I64 : Type := BoundedInt (-9223372036854775808) 9223372036854775807

namespace I64

instance : Zero I64 := ⟨⟨0, by decide, by decide⟩⟩

instance : One I64 := ⟨⟨1, by decide, by decide⟩⟩

@[simp] theorem val_zero : (0 : I64).val = 0 := rfl

@[simp] theorem val_one : (1 : I64).val = 1 := rfl

end I64

/-- Whether an exact integer fits a 128-bit signed one. -/
def FitsI128 (n : Int) : Prop :=
  -170141183460469231731687303715884105728 ≤ n ∧ n ≤ 170141183460469231731687303715884105727

instance : DecidablePred FitsI128 := fun n => by
  unfold FitsI128
  infer_instance

/-- A 128-bit intermediate result, kept as the exact integer where it fits. -/
def I128.checked (n : Int) : Option Int := if FitsI128 n then some n else none

@[simp] theorem I128.checked_eq_some {n m : Int} :
    I128.checked n = some m ↔ FitsI128 n ∧ n = m := by
  unfold I128.checked
  split
  · next h => simp [h]
  · next h => simp [h]
