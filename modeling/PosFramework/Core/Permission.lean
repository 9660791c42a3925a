import PosFramework.Core.Error
import PosFramework.Lib.Fallible

set_option autoImplicit false

/-! # Permissions and capabilities

A permission is granted to an employee by their roles; a capability is switched on for a store by
its configuration. Both are closed catalogues. A permission that is pin-flagged also asks for a
verified PIN, unless the employee holds it by a direct grant. -/

namespace PosFramework

open Fallible

/-! ## Permissions -/

/-- What somebody may be allowed. -/
inductive Permission
  | voidFiredLine
  | addOpenItem
  | markItemUnavailable
  | transferOrder
  | confirmQrOrder
  | manageTables
  | addLine
  | fireLines
  | bumpTicket
  | applyDiscount
  | overrideDiscountCeiling
  | applyComp
  | overridePrice
  | voidBill
  | voidSettledBill
  | issueRefund
  | reprintReceipt
  | openBill
  | splitBill
  | takePayment
  | waiveFee
  | openDrawerNoSale
  | openShift
  | closeShift
  | manageOtherTill
  | overrideDrawerAssignment
  | recordCashMovement
  | viewTakings
  | readShiftX
  | performStocktake
  | recordStockReceipt
  | recordWaste
  | editMenu
  | manageDevices
  | editStoreConfig
  | choosePackage
  | writeDataRecord
  | readPersonalData
  | manageTenant
  | manageStaff
deriving DecidableEq

/-- What the catalogue says of a permission, as far as a decision reads it. -/
structure PermissionMeta where
  id : String
  pinRequired : Bool

/-- A permission's key, and whether it asks for a PIN. -/
def Permission.meta : Permission → PermissionMeta
  | .voidFiredLine => ⟨"sales.line.void_fired", true⟩
  | .addOpenItem => ⟨"sales.item.open", false⟩
  | .markItemUnavailable => ⟨"sales.item.mark_unavailable", false⟩
  | .transferOrder => ⟨"sales.order.transfer", false⟩
  | .confirmQrOrder => ⟨"sales.order.confirm_qr", false⟩
  | .manageTables => ⟨"sales.table.manage", false⟩
  | .addLine => ⟨"sales.line.add", false⟩
  | .fireLines => ⟨"sales.line.fire", false⟩
  | .bumpTicket => ⟨"sales.ticket.bump", false⟩
  | .applyDiscount => ⟨"billing.discount.apply", false⟩
  | .overrideDiscountCeiling => ⟨"billing.discount.override_ceiling", true⟩
  | .applyComp => ⟨"billing.comp.apply", true⟩
  | .overridePrice => ⟨"billing.price.override", true⟩
  | .voidBill => ⟨"billing.bill.void", true⟩
  | .voidSettledBill => ⟨"billing.bill.void_settled", true⟩
  | .issueRefund => ⟨"billing.refund.issue", true⟩
  | .reprintReceipt => ⟨"billing.receipt.reprint", false⟩
  | .openBill => ⟨"billing.bill.open", false⟩
  | .splitBill => ⟨"billing.bill.split", false⟩
  | .takePayment => ⟨"billing.payment.take", false⟩
  | .waiveFee => ⟨"billing.fee.waive", true⟩
  | .openDrawerNoSale => ⟨"cash.drawer.open_no_sale", true⟩
  | .openShift => ⟨"cash.shift.open", false⟩
  | .closeShift => ⟨"cash.shift.close", false⟩
  | .manageOtherTill => ⟨"cash.shift.manage_other_till", true⟩
  | .overrideDrawerAssignment => ⟨"cash.drawer.override_assignment", true⟩
  | .recordCashMovement => ⟨"cash.movement.record", false⟩
  | .viewTakings => ⟨"reports.takings.view", false⟩
  | .readShiftX => ⟨"reports.shift.read_x", false⟩
  | .performStocktake => ⟨"inventory.stocktake.perform", false⟩
  | .recordStockReceipt => ⟨"inventory.receipt.record", false⟩
  | .recordWaste => ⟨"inventory.waste.record", false⟩
  | .editMenu => ⟨"menu.item.edit", false⟩
  | .manageDevices => ⟨"admin.device.manage", false⟩
  | .editStoreConfig => ⟨"admin.config.edit", false⟩
  | .choosePackage => ⟨"admin.package.choose", false⟩
  | .writeDataRecord => ⟨"data.record.write", false⟩
  | .readPersonalData => ⟨"data.personal.read", false⟩
  | .manageTenant => ⟨"cloud.tenant.manage", false⟩
  | .manageStaff => ⟨"cloud.staff.manage", false⟩

/-- A set of permissions, one bit each. -/
structure PermissionSet where
  contains : Permission → Bool

namespace PermissionSet

def empty : PermissionSet := ⟨fun _ => false⟩

/-- Every permission of the catalogue. -/
def all : PermissionSet := ⟨fun _ => true⟩

/-- One more permission. -/
def insert (set : PermissionSet) (permission : Permission) : PermissionSet :=
  ⟨fun p => decide (p = permission) || set.contains p⟩

end PermissionSet

/-- A permission held, and whether using it still asks for a PIN. -/
structure Grant where
  pinRequired : Bool

/-- The refusal of an action for want of a permission. -/
def Permission.denied (permission : Permission) : DomainError :=
  .permissionDenied permission.meta.id

/-- A permission is granted, or denied. -/
def require (permission : Permission) (granted : PermissionSet) : Except DomainError Grant := do
  refuseIf (granted.contains permission = false) permission.denied
  pure ⟨permission.meta.pinRequired⟩

/-! ## Capabilities -/

/-- What a store may have switched on. -/
inductive Capability
  | tables
  | tabs
  | seats
  | kds
  | courses
  | payFirst
  | barcode
  | queueNumber
  | tips
  | qrOrdering

/-- The configuration key a capability is switched by. -/
def Capability.key : Capability → String
  | .tables => "tables_enabled"
  | .tabs => "tabs_enabled"
  | .seats => "seats_enabled"
  | .kds => "kds_enabled"
  | .courses => "courses_enabled"
  | .payFirst => "pay_first_enabled"
  | .barcode => "barcode_enabled"
  | .queueNumber => "queue_number_enabled"
  | .tips => "tips_enabled"
  | .qrOrdering => "qr_ordering_enabled"

/-- The capabilities a store has on, one bit each. -/
structure CapabilityContext where
  enabled : Capability → Bool

/-- A capability is on, or the command is refused. -/
def CapabilityContext.require (context : CapabilityContext) (capability : Capability) :
    Except DomainError Unit :=
  refuseIf (context.enabled capability = false) (.capabilityDisabled capability.key)

end PosFramework
