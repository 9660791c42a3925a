import PosFramework.Proto.Fees
import PosFramework.Proto.Locale

set_option autoImplicit false

/-! # Published configuration

The nodes of a store's configuration the edge reads while it trades: the price books, the kitchen
routing, the reason codes, the devices and the settings of shifts and guest orders. An absent or
unknown setting reads as its default. -/

namespace PosFramework

/-! ## Price books -/

/-- An item of a menu. -/
structure MenuEntry where
  menuItemId : MenuItemId
  displayName : DisplayName
  unitPrice : Money
  taxClassId : TaxClassId
  modifierGroupIds : List ModifierGroupId
  available : Bool

/-- A group of modifiers, with how many of them a line may choose. -/
structure MenuModifierGroup where
  modifierGroupId : ModifierGroupId
  minSelect : Nat
  maxSelect : Nat
  memberMenuItemIds : List MenuItemId

/-- Whether the number of members chosen, read as sixteen bits, is within the group's bounds. -/
def MenuModifierGroup.satisfiedBy (group : MenuModifierGroup) (chosen : List MenuItemId) : Bool :=
  let count := min (chosen.countP fun id => decide (id ∈ group.memberMenuItemIds)) 65535
  decide (group.minSelect ≤ count) && decide (count ≤ group.maxSelect)

/-- The items of one menu. -/
structure MenuCatalog where
  items : List MenuEntry
  modifierGroups : List MenuModifierGroup

namespace MenuCatalog

def empty : MenuCatalog := ⟨[], []⟩

def isEmpty (catalog : MenuCatalog) : Bool := catalog.items.isEmpty

def get (catalog : MenuCatalog) (menuItemId : MenuItemId) : Option MenuEntry :=
  catalog.items.find? fun entry => decide (entry.menuItemId = menuItemId)

/-- The modifier groups an item attaches, in its own order. -/
def groupsFor (catalog : MenuCatalog) (menuItemId : MenuItemId) : List MenuModifierGroup :=
  match catalog.get menuItemId with
  | none => []
  | some entry => entry.modifierGroupIds.filterMap fun id =>
    catalog.modifierGroups.find? fun group => decide (group.modifierGroupId = id)

end MenuCatalog

structure ChannelCatalog where
  salesChannel : Open SalesChannel
  catalog : MenuCatalog

/-- Whether a row prices a channel; a row for a channel this build does not know prices none. -/
def ChannelCatalog.prices (row : ChannelCatalog) (salesChannel : SalesChannel) : Bool :=
  decide (row.salesChannel.known = salesChannel) && !row.salesChannel.isUnrecognised

/-- The menus by channel, and the one for the others. -/
structure MenuBook where
  channels : List ChannelCatalog
  fallback : MenuCatalog

def MenuBook.catalogFor (book : MenuBook) (salesChannel : SalesChannel) : MenuCatalog :=
  ((book.channels.find? (·.prices salesChannel)).map (·.catalog)).getD book.fallback

/-! ## Kitchen routing -/

/-- Where an item or a course is sent. -/
structure RoutingRule where
  stationId : StationId
  menuItemId : Option MenuItemId
  courseId : Option CourseId

/-- Where items are sent. -/
structure StationPlan where
  routing : List RoutingRule
  defaultStationId : Option StationId

/-- The station a line goes to: its item's rule, else its course's, else the default. -/
def routeStation (plan : StationPlan) (menuItemId : MenuItemId) (courseId : Option CourseId) :
    Option StationId :=
  let byItem := plan.routing.find? fun rule => decide (rule.menuItemId = some menuItemId)
  let byCourse := courseId.bind fun course =>
    plan.routing.find? fun rule => decide (rule.courseId = some course)
  ((byItem.or byCourse).map (·.stationId)).or plan.defaultStationId

/-! ## Reason codes -/

/-- What a reason is given for. -/
inductive ReasonAction
  | unspecified
  | voidLine
  | voidBill
  | discount
  | comp
  | refund
  | drawerOpen
  | rejectOrder
  | cashPaidIn
  | cashPaidOut
  | stockAdjustment
  | stockWaste
  | waiveFee
  | cashVariance
  | cashDropped
deriving DecidableEq

instance : WireEnum ReasonAction := ⟨.unspecified⟩

/-- A reason, and what it is given for. -/
structure PublishedReasonCode where
  id : ReasonCodeId
  appliesTo : List (Open ReasonAction)
  active : Bool

namespace PublishedReasonCode

def declares (entry : PublishedReasonCode) (action : ReasonAction) : Bool :=
  decide (action ≠ .unspecified) &&
    entry.appliesTo.any fun declared =>
      !declared.isUnrecognised && decide (declared.known = action)

/-- Whether a reason is in use for an action. -/
def isValidFor (entry : PublishedReasonCode) (action : ReasonAction) : Bool :=
  entry.active && entry.declares action

end PublishedReasonCode

structure PublishedReasonCodes where
  codes : List PublishedReasonCode

namespace PublishedReasonCodes

variable (codes : PublishedReasonCodes)

def find (id : ReasonCodeId) : Option PublishedReasonCode :=
  codes.codes.find? fun entry => decide (entry.id = id)

def forAction (action : ReasonAction) : List PublishedReasonCode :=
  codes.codes.filter (·.isValidFor action)

/-- Whether a reason may be given for an action. -/
def accepts (id : ReasonCodeId) (action : ReasonAction) : Bool :=
  (codes.find id).any (·.isValidFor action)

end PublishedReasonCodes

/-! ## Devices -/

inductive DeviceKind
  | unspecified
  | printer
  | kds
  | terminal
deriving DecidableEq

instance : WireEnum DeviceKind := ⟨.unspecified⟩

structure PublishedDevice where
  deviceId : DeviceId
  kind : Open DeviceKind

def PublishedDevice.isTill (device : PublishedDevice) : Bool :=
  decide (device.kind.known = .terminal)

/-! ## Shifts -/

/-- Whether the store sells without a shift. -/
inductive NoShiftSelling
  | unspecified
  | allow
  | refuse
deriving DecidableEq

instance : WireEnum NoShiftSelling := ⟨.unspecified⟩

/-- Whether the store keeps one drawer or one per till. -/
inductive DrawerModel
  | unspecified
  | perStore
  | perTerminal
deriving DecidableEq

instance : WireEnum DrawerModel := ⟨.unspecified⟩

/-- Whether a drawer is one person's. -/
inductive DrawerAccess
  | unspecified
  | shared
  | assigned
deriving DecidableEq

instance : WireEnum DrawerAccess := ⟨.unspecified⟩

/-- What an open drawer means at day end. -/
inductive DrawerDayEnd
  | unspecified
  | flag
  | requireClose
deriving DecidableEq

instance : WireEnum DrawerDayEnd := ⟨.unspecified⟩

/-- What is published of shifts and drawers. -/
structure PublishedShift where
  noShiftSelling : Open NoShiftSelling
  drawerModel : Open DrawerModel
  drawerDayEnd : Open DrawerDayEnd
  varianceReasonMinor : Option I64
  drawerAccess : Open DrawerAccess

namespace PublishedShift

/-- The node a store that has published nothing reads. -/
def absent : PublishedShift where
  noShiftSelling := .fromKnown .unspecified
  drawerModel := .fromKnown .unspecified
  drawerDayEnd := .fromKnown .unspecified
  varianceReasonMinor := none
  drawerAccess := .fromKnown .unspecified

variable (shift : PublishedShift)

def noShiftSellingInForce : NoShiftSelling :=
  match shift.noShiftSelling.known with
  | .unspecified | .allow => .allow
  | .refuse => .refuse

def drawerModelInForce : DrawerModel :=
  match shift.drawerModel.known with
  | .unspecified | .perStore => .perStore
  | .perTerminal => .perTerminal

def drawerDayEndInForce : DrawerDayEnd :=
  match shift.drawerDayEnd.known with
  | .unspecified | .flag => .flag
  | .requireClose => .requireClose

/-- How far over or short a drawer may be without a reason; zero asks for none. -/
def varianceReasonMinorInForce : Int :=
  ((shift.varianceReasonMinor.map (·.val)).filter fun minor =>
    decide (0 ≤ minor) && decide (minor ≤ 1000000000)).getD 0

def drawerAccessInForce : DrawerAccess :=
  match shift.drawerAccess.known with
  | .unspecified | .shared => .shared
  | .assigned => .assigned

end PublishedShift

/-! ## Guest orders and rounding -/

/-- Whether a guest's order at a table stays an order of its own or joins the table's. -/
inductive TableOrder
  | unspecified
  | separate
  | join
deriving DecidableEq

instance : WireEnum TableOrder := ⟨.unspecified⟩

/-- The published setting of guest orders: a separate order, unless it says join. -/
structure PublishedQr where
  tableOrder : Open TableOrder

def PublishedQr.tableOrderInForce (qr : PublishedQr) : TableOrder :=
  match qr.tableOrder.known with
  | .unspecified | .separate => .separate
  | .join => .join

/-- How tax is rounded. -/
inductive TaxRounding
  | unspecified
  | halfUp
  | down

def TaxRounding.rounding : TaxRounding → Rounding
  | .unspecified | .halfUp => .halfUp
  | .down => .towardZero

end PosFramework
