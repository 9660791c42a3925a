import PosFramework.Proto.Envelope

set_option autoImplicit false

/-! # The store's writer

All of a store's requests are served by one thread, each in a transaction of its own: one that fails
leaves the database as it was. -/

namespace PosFramework

/-- The largest integer SQLite stores. -/
def i64Max : Nat := 9223372036854775807

/-- An unsigned integer as SQLite stores it; one that does not fit is stored as the largest. -/
def toI64 (n : Nat) : Nat := min n i64Max

theorem toI64_le (n : Nat) : toI64 n ≤ i64Max := min_le_right n i64Max

theorem toI64_of_le {n : Nat} (h : n ≤ i64Max) : toI64 n = n := min_eq_left h

/-- A bound that does not fit bounds an integer that does as the largest one would. -/
theorem toI64_lt_iff {n k : Nat} (hk : k ≤ i64Max) : toI64 n < k ↔ n < k := by
  unfold toI64
  omega

/-- What a request to the writer fails with. -/
inductive StoreError
  | db
  | json
deriving DecidableEq

end PosFramework
