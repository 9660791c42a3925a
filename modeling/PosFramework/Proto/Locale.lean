import PosFramework.Proto.Ids
import PosFramework.Proto.Money

set_option autoImplicit false

/-! # Tax rates

A store's rate table has one row per tax class and sales channel: the rate in basis points and the
named components it is made of (`CGST`, `SGST`). The first row that names the class on the channel
is the one in force; a row for a channel this build does not know matches nothing. -/

namespace PosFramework

/-- A tax rate, in unsigned 32-bit basis points. -/
structure TaxRate where
  basisPoints : Nat
  lt_bound : basisPoints < 4294967296

/-- Ten percent. -/
def TaxRate.tenth : TaxRate := ⟨1000, by decide⟩

/-- The rate as a fraction of ten thousand. -/
def TaxRate.asRatio (rate : TaxRate) : Ratio where
  numerator := ⟨rate.basisPoints, by omega, by have := rate.lt_bound; omega⟩
  denominator := ⟨10000, by decide, by decide⟩
  denominator_ne_zero := by decide

/-- One named part of a rate, as the table publishes it. -/
structure TaxComponent where
  name : String
  rate : TaxRate

def isAsciiDigit (byte : UInt8) : Bool := 48 ≤ byte && byte ≤ 57

/-- Two to eight upper-case ASCII letters and digits, starting with a letter. -/
def isComponentToken (name : String) : Bool :=
  let bytes := name.toUTF8.toList
  decide (2 ≤ bytes.length) && decide (bytes.length ≤ 8) &&
    bytes.head?.any isAsciiUppercase &&
    bytes.all (fun byte => isAsciiUppercase byte || isAsciiDigit byte)

/-- The name of a component, as an invoice may print it. -/
structure TaxComponentName where
  text : String
  isToken : isComponentToken text = true
deriving DecidableEq

def TaxComponentName.new? (name : String) : Option TaxComponentName :=
  if h : isComponentToken name = true then some ⟨name, h⟩ else none

structure TaxRateRow where
  taxClassId : TaxClassId
  salesChannel : Open SalesChannel
  rate : TaxRate
  components : List TaxComponent

/-- The rates by class and channel. -/
structure TaxRateTable where
  rows : List TaxRateRow

namespace TaxRateTable

variable (table : TaxRateTable)

/-- The first row for a class on a channel. -/
def rowFor (taxClassId : TaxClassId) (salesChannel : SalesChannel) : Option TaxRateRow :=
  table.rows.find? fun row =>
    decide (row.taxClassId = taxClassId) && decide (row.salesChannel.known = salesChannel) &&
      !row.salesChannel.isUnrecognised

/-- The rate of a class on a channel. -/
def rateFor (taxClassId : TaxClassId) (salesChannel : SalesChannel) : Option TaxRate :=
  (table.rowFor taxClassId salesChannel).map (·.rate)

def componentsFor (taxClassId : TaxClassId) (salesChannel : SalesChannel) : List TaxComponent :=
  ((table.rowFor taxClassId salesChannel).map (·.components)).getD []

end TaxRateTable

end PosFramework
