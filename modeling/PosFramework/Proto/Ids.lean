import Mathlib

set_option autoImplicit false

/-! # Identifiers, times and wire enums

Every resource of the system is named by a ULID wrapped in a type of its own, so that a bill's id
cannot be passed where an order's is meant. The wrappers are one family, `ResourceId kind`. A ULID
is kept as its numeric value: ids are only compared, and the store hands them out in increasing
order.

`Open` is a wire enum value as received. A token this build does not know is kept verbatim and
reads as the enum's unspecified value. -/

namespace PosFramework

/-! ## Resource ids -/

/-- The resources that have an id type. -/
inductive IdKind
  | bill
  | brand
  | course
  | device
  | employee
  | event
  | fee
  | ingredient
  | menuItem
  | modifierGroup
  | order
  | orderLine
  | payment
  | reasonCode
  | shift
  | station
  | store
  | subject
  | table
  | taxClass
  | tenant

/-- The id of one resource: a ULID, as the number it encodes. -/
structure ResourceId (kind : IdKind) where
  ulid : Nat
deriving DecidableEq

namespace ResourceId

variable {kind : IdKind}

@[ext] theorem ext {a b : ResourceId kind} (h : a.ulid = b.ulid) : a = b := by
  cases a
  cases b
  exact congrArg ResourceId.mk h

/-- Ids order as the numbers they encode. -/
instance : LinearOrder (ResourceId kind) :=
  LinearOrder.lift' ResourceId.ulid fun _ _ h => ResourceId.ext h

instance : Std.LawfulEqOrd (ResourceId kind) := ⟨fun h => compare_eq_iff_eq.1 h⟩

-- Found at the kind, so that every definition over ids names these and not a proof of its own.
instance : Std.TransOrd (ResourceId kind) := inferInstance

instance : Std.TransOrd (Option (ResourceId kind)) := inferInstance

instance : LawfulBEq (ResourceId kind) := inferInstance

end ResourceId

abbrev BillId := ResourceId .bill
abbrev BrandId := ResourceId .brand
abbrev CourseId := ResourceId .course
abbrev DeviceId := ResourceId .device
abbrev EmployeeId := ResourceId .employee
abbrev EventId := ResourceId .event
abbrev FeeId := ResourceId .fee
abbrev IngredientId := ResourceId .ingredient
abbrev MenuItemId := ResourceId .menuItem
abbrev ModifierGroupId := ResourceId .modifierGroup
abbrev OrderId := ResourceId .order
abbrev OrderLineId := ResourceId .orderLine
abbrev PaymentId := ResourceId .payment
abbrev ReasonCodeId := ResourceId .reasonCode
abbrev ShiftId := ResourceId .shift
abbrev StationId := ResourceId .station
abbrev StoreId := ResourceId .store
abbrev SubjectId := ResourceId .subject
abbrev TableId := ResourceId .table
abbrev TaxClassId := ResourceId .taxClass
abbrev TenantId := ResourceId .tenant

/-! ## Times -/

/-- An instant, in milliseconds since the epoch. -/
structure Timestamp where
  epochMs : Int
deriving DecidableEq

/-- The day a sale belongs to, which a store may end after midnight. -/
structure BusinessDate where
  day : Int
deriving DecidableEq

/-! ## Wire enums -/

/-- A wire enum has a zero value, read for an absent or an unknown token. -/
class WireEnum (E : Type) where
  unspecified : E

/-- A wire enum value as received: one this build knows, or the token it does not. -/
inductive Open (E : Type)
  | fromKnown (value : E)
  | unrecognised (raw : String)
deriving DecidableEq

namespace Open

variable {E : Type} [WireEnum E]

/-- The value, with an unknown token read as unspecified. -/
def known : Open E → E
  | fromKnown value => value
  | unrecognised _ => WireEnum.unspecified

def isUnrecognised : Open E → Bool
  | fromKnown _ => false
  | unrecognised _ => true

/-- The domain boundary: the value, unless it is unspecified or unknown. -/
def require? [DecidableEq E] (o : Open E) : Option E :=
  if o.known = WireEnum.unspecified then none else some o.known

end Open

/-- How an order is sold. -/
inductive SalesChannel
  | unspecified
  | dineIn
  | takeaway
  | delivery
  | qr
  | api
deriving DecidableEq

instance : WireEnum SalesChannel := ⟨.unspecified⟩

/-- Where a line is. -/
inductive OrderLineState
  | unspecified
  | added
  | held
  | fired
  | voided
deriving DecidableEq

/-- Where a bill is. -/
inductive BillState
  | unspecified
  | open
  | settled
  | voided
  | split
  | merged
deriving DecidableEq

/-- Where a table is. -/
inductive TableState
  | unspecified
  | free
  | occupied
  | awaitingPayment
  | needsCleaning
deriving DecidableEq

/-- Where a shift is. -/
inductive ShiftState
  | unspecified
  | open
  | counted
  | closed
deriving DecidableEq

/-- How a bill is paid. -/
inductive PaymentMethod
  | unspecified
  | cash
  | card
  | qr
  | voucher
  | giftCard
  | other
deriving DecidableEq

instance : WireEnum PaymentMethod := ⟨.unspecified⟩

/-- Why a bill is reduced. -/
inductive ReductionKind
  | unspecified
  | discount
  | comp
  | void
deriving DecidableEq

end PosFramework
