import PosFramework.Lib.Apportion
import PosFramework.Lib.BoundedInt
import PosFramework.Lib.Fallible

set_option autoImplicit false

/-! # Money and quantities

Money is an integer in the currency's minor unit. Everything that can lose a fraction of a unit
goes through `divRound`, which works on 128-bit intermediates and takes an explicit rounding mode;
every sum and difference is checked. `Money.allocate` floors every share but the last and gives the
last part the residual. -/

namespace PosFramework

open Fallible BoundedInt

/-! ## Currencies and errors -/

/-- Whether a byte is an upper-case ASCII letter. -/
def isAsciiUppercase (byte : UInt8) : Bool := 65 ≤ byte && byte ≤ 90

/-- A currency code: three upper-case ASCII letters. -/
structure CurrencyCode where
  first : UInt8
  second : UInt8
  third : UInt8
  uppercase : (isAsciiUppercase first && isAsciiUppercase second && isAsciiUppercase third) = true
deriving DecidableEq

def CurrencyCode.vnd : CurrencyCode := ⟨86, 78, 68, by decide⟩

/-- Why an operation on money fails. -/
inductive MoneyError
  | currencyMismatch (left right : CurrencyCode)
  | overflow
  | zeroDenominator
  | emptyAllocation
  | nonPositiveWeight
deriving DecidableEq

/-- How a fraction of a minor unit is resolved. -/
inductive Rounding
  | floor
  | ceil
  | towardZero
  | halfUp
  | halfEven

/-- A rate: the denominator is a non-zero 64-bit value of either sign. -/
structure Ratio where
  numerator : I64
  denominator : I64
  denominator_ne_zero : denominator.val ≠ 0
deriving DecidableEq

/-! ## The one rounding primitive -/

/-- Whether the magnitude of the quotient is raised by one, from its sign, the quotient, the
    remainder and the denominator. -/
def increaseMagnitude (mode : Rounding) (negative : Bool)
    (quotient remainder denominator : Int) : Bool :=
  match mode with
  | .floor => negative && decide (remainder ≠ 0)
  | .ceil => !negative && decide (remainder ≠ 0)
  | .towardZero => false
  | .halfUp => decide (denominator ≤ remainder * 2)
  | .halfEven =>
    decide (denominator < remainder * 2) ||
      (decide (remainder * 2 = denominator) && decide (quotient % 2 ≠ 0))

/-- A 128-bit value, negated where `flip` says so. -/
def signed (flip : Bool) (n : Int) : Except MoneyError Int :=
  if flip then okOr .overflow (I128.checked (-n)) else .ok n

/-- A 128-bit magnitude, raised by one where `up` says so. -/
def raised (up : Bool) (n : Int) : Except MoneyError Int :=
  if up then okOr .overflow (I128.checked (n + 1)) else .ok n

/-- Divide two 128-bit integers and round to a 64-bit one. -/
def divRound (numerator denominator : Int) (mode : Rounding) : Except MoneyError I64 := do
  refuseIf (denominator = 0) .zeroDenominator
  -- the sign rides on the numerator
  let num ← signed (decide (denominator < 0)) numerator
  let den ← signed (decide (denominator < 0)) denominator
  let negative := decide (num < 0)
  let magnitude ← okOr .overflow (I128.checked |num|)
  let quotient := magnitude / den
  let remainder := magnitude % den
  let _ ← okOr .overflow (I128.checked (remainder * 2))
  let rounded ← raised (increaseMagnitude mode negative quotient remainder den) quotient
  let result ← signed negative rounded
  okOr .overflow (ofInt? result)

/-! ## Money -/

/-- An amount in minor units of a currency. -/
structure Money where
  currencyCode : CurrencyCode
  amountMinor : I64
deriving DecidableEq

namespace Money

variable (m : Money)

@[ext] theorem ext {a b : Money} (hc : a.currencyCode = b.currencyCode)
    (hm : a.amountMinor.val = b.amountMinor.val) : a = b := by
  cases a
  cases b
  simp only [mk.injEq]
  exact ⟨hc, BoundedInt.ext hm⟩

/-- The amount as an exact integer. -/
def minor : Int := m.amountMinor.val

def zero (currencyCode : CurrencyCode) : Money := ⟨currencyCode, 0⟩

/-- An amount in đồng. -/
def dong (n : Int) (lo_le : -9223372036854775808 ≤ n) (le_hi : n ≤ 9223372036854775807) : Money :=
  ⟨.vnd, ⟨n, lo_le, le_hi⟩⟩

/-- A few đồng. -/
def few (n : UInt32) : Money := .dong n.toNat (by omega) (by have := n.toNat_lt; omega)

def isZero : Bool := decide (m.minor = 0)

def isNegative : Bool := decide (m.minor < 0)

/-- Amounts of two currencies do not mix. -/
def requireSameCurrency (m other : Money) : Except MoneyError Unit :=
  refuseIf (m.currencyCode ≠ other.currencyCode)
    (.currencyMismatch m.currencyCode other.currencyCode)

def checkedAdd (m other : Money) : Except MoneyError Money := do
  m.requireSameCurrency other
  let amount ← okOr .overflow (m.amountMinor.checkedAdd other.amountMinor)
  pure ⟨m.currencyCode, amount⟩

/-- The difference, if it is in range. -/
def checkedSub (m other : Money) : Except MoneyError Money := do
  m.requireSameCurrency other
  let amount ← okOr .overflow (m.amountMinor.checkedSub other.amountMinor)
  pure ⟨m.currencyCode, amount⟩

/-- An amount times a rate, rounded once. -/
def mulRatio (rate : Ratio) (mode : Rounding) : Except MoneyError Money := do
  let numerator ← okOr .overflow (I128.checked (m.minor * rate.numerator.val))
  let amount ← divRound numerator rate.denominator.val mode
  pure ⟨m.currencyCode, amount⟩

/-- The tax inside an amount that includes it: `amount · rate / (1 + rate)`. -/
def taxIncluded (rate : Ratio) (mode : Rounding) : Except MoneyError Money := do
  let numerator ← okOr .overflow (I128.checked (m.minor * rate.numerator.val))
  let denominator ← okOr .overflow (I128.checked (rate.denominator.val + rate.numerator.val))
  let amount ← divRound numerator denominator mode
  pure ⟨m.currencyCode, amount⟩

/-- An amount, rounded to a multiple. -/
def roundToIncrement (increment : I64) (mode : Rounding) : Except MoneyError Money := do
  let steps ← divRound m.minor increment.val mode
  let value ← okOr .overflow (I128.checked (steps.val * increment.val))
  let amount ← okOr .overflow (ofInt? value)
  pure ⟨m.currencyCode, amount⟩

/-- One pass of the allocation loop: the shares pushed so far and what they assign. -/
def allocateStep (totalWeight : Int) (acc : List Money × I64) (weight : I64) :
    Except MoneyError (List Money × I64) := do
  let numerator ← okOr .overflow (I128.checked (m.minor * weight.val))
  let share ← divRound numerator totalWeight .floor
  let assigned ← okOr .overflow (acc.2.checkedAdd share)
  pure (acc.1 ++ [⟨m.currencyCode, share⟩], assigned)

/-- Share an amount over weights: floor every share but the last, the residual to the last. -/
def allocate (weights : List I64) : Except MoneyError (List Money) := do
  refuseIf (weights = []) .emptyAllocation
  refuseIf (∃ weight ∈ weights, weight.val < 0) .nonPositiveWeight
  -- a slice of 64-bit weights cannot leave 128 bits
  let totalWeight := (weights.map val).sum
  refuseIf (totalWeight ≤ 0) .nonPositiveWeight
  let (parts, assigned) ← weights.dropLast.foldlM (m.allocateStep totalWeight) ([], 0)
  let remainder ← okOr .overflow (m.amountMinor.checkedSub assigned)
  pure (parts ++ [⟨m.currencyCode, remainder⟩])

end Money

/-! ## Quantities -/

/-- A quantity in thousandths of a unit. -/
structure Quantity where
  milli : I64
deriving DecidableEq

namespace Quantity

/-- Thousandths in one unit. -/
def scale : Int := 1000

def zero : Quantity := ⟨0⟩

def one : Quantity := ⟨⟨1000, by decide, by decide⟩⟩

def checkedAdd (q other : Quantity) : Except MoneyError Quantity := do
  let milli ← okOr .overflow (q.milli.checkedAdd other.milli)
  pure ⟨milli⟩

end Quantity

/-- A price times a quantity, rounded once. -/
def Money.mulQuantity (m : Money) (quantity : Quantity) (mode : Rounding) :
    Except MoneyError Money := do
  let numerator ← okOr .overflow (I128.checked (m.minor * quantity.milli.val))
  let amount ← divRound numerator Quantity.scale mode
  pure ⟨m.currencyCode, amount⟩

end PosFramework
