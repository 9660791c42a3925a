import PosFramework.Core.Error
import PosFramework.Lib.Fallible

set_option autoImplicit false

/-! # The state machines

Tables, order lines, bills and shifts each move by a transition table. A trigger that has no row in
the state it meets is refused, with the machine, the state's wire token and the trigger's label. -/

namespace PosFramework

open Fallible

/-- A machine: its name, how its states and triggers are written, and its transition table. -/
structure StateMachine (State Trigger : Type) where
  name : String
  asWire : State → String
  triggerName : Trigger → String
  next : State → Trigger → Option State

namespace StateMachine

variable {State Trigger : Type}

/-- One move, or the refusal that names it. -/
def step (machine : StateMachine State Trigger) (fromState : State) (trigger : Trigger) :
    Except DomainError State :=
  okOr (.transition machine.name (machine.asWire fromState) (machine.triggerName trigger))
    (machine.next fromState trigger)

@[simp] theorem step_eq_ok {machine : StateMachine State Trigger} {fromState toState : State}
    {trigger : Trigger} :
    machine.step fromState trigger = .ok toState ↔
      machine.next fromState trigger = some toState := by
  simp [step]

end StateMachine

/-! ## Tables -/

/-- What moves a table. -/
inductive TableTrigger
  | seat
  | requestBill
  | settle
  | clean
  | transfer
  | release

def TableTrigger.label : TableTrigger → String
  | .seat => "seat"
  | .requestBill => "request_bill"
  | .settle => "settle"
  | .clean => "clean"
  | .transfer => "transfer"
  | .release => "release"

/-- A table's state on the wire. -/
def TableState.asWire : TableState → String
  | .unspecified => "TABLE_STATE_UNSPECIFIED"
  | .free => "TABLE_STATE_FREE"
  | .occupied => "TABLE_STATE_OCCUPIED"
  | .awaitingPayment => "TABLE_STATE_AWAITING_PAYMENT"
  | .needsCleaning => "TABLE_STATE_NEEDS_CLEANING"

/-- The states of a table. -/
def tableMachine : StateMachine TableState TableTrigger where
  name := "table"
  asWire := TableState.asWire
  triggerName := TableTrigger.label
  next
    | .free, .seat => some .occupied
    | .occupied, .requestBill => some .awaitingPayment
    -- the guests leave either way: they paid, or they moved with their order
    | .awaitingPayment, .settle => some .needsCleaning
    | .occupied, .transfer => some .needsCleaning
    | .needsCleaning, .clean => some .free
    | .occupied, .release => some .free
    | _, _ => none

/-! ## Order lines -/

/-- What moves a line. -/
inductive LineTrigger
  | hold
  | resume
  | fire
  | void
  | amend

def LineTrigger.label : LineTrigger → String
  | .hold => "hold"
  | .resume => "resume"
  | .fire => "fire"
  | .void => "void"
  | .amend => "amend"

/-- A line's state on the wire. -/
def OrderLineState.asWire : OrderLineState → String
  | .unspecified => "ORDER_LINE_STATE_UNSPECIFIED"
  | .added => "ORDER_LINE_STATE_ADDED"
  | .held => "ORDER_LINE_STATE_HELD"
  | .fired => "ORDER_LINE_STATE_FIRED"
  | .voided => "ORDER_LINE_STATE_VOIDED"

/-- The states of a line. -/
def orderLineMachine : StateMachine OrderLineState LineTrigger where
  name := "order_line"
  asWire := OrderLineState.asWire
  triggerName := LineTrigger.label
  next
    | .added, .hold => some .held
    | .held, .resume => some .added
    | .added, .fire => some .fired
    | .held, .fire => some .fired
    | .added, .void => some .voided
    | .held, .void => some .voided
    | .fired, .void => some .voided
    -- a fired line is being made, so its quantity stands
    | .added, .amend => some .added
    | .held, .amend => some .held
    | _, _ => none

/-! ## Bills -/

/-- What moves a bill. -/
inductive BillTrigger
  | settle
  | void
  | voidSettled
  | reduce
  | split
  | merge

def BillTrigger.label : BillTrigger → String
  | .settle => "settle"
  | .void => "void"
  | .voidSettled => "void_settled"
  | .reduce => "reduce"
  | .split => "split"
  | .merge => "merge"

/-- A bill's state on the wire. -/
def BillState.asWire : BillState → String
  | .unspecified => "BILL_STATE_UNSPECIFIED"
  | .open => "BILL_STATE_OPEN"
  | .settled => "BILL_STATE_SETTLED"
  | .voided => "BILL_STATE_VOIDED"
  | .split => "BILL_STATE_SPLIT"
  | .merged => "BILL_STATE_MERGED"

/-- The states of a bill. -/
def billMachine : StateMachine BillState BillTrigger where
  name := "bill"
  asWire := BillState.asWire
  triggerName := BillTrigger.label
  next
    | .open, .settle => some .settled
    | .open, .void => some .voided
    | .settled, .voidSettled => some .voided
    | .open, .reduce => some .open
    | .open, .split => some .split
    | .open, .merge => some .merged
    | _, _ => none

/-! ## Shifts -/

/-- What moves a shift. -/
inductive ShiftTrigger
  | count
  | close

def ShiftTrigger.label : ShiftTrigger → String
  | .count => "count"
  | .close => "close"

/-- A shift's state on the wire. -/
def ShiftState.asWire : ShiftState → String
  | .unspecified => "SHIFT_STATE_UNSPECIFIED"
  | .open => "SHIFT_STATE_OPEN"
  | .counted => "SHIFT_STATE_COUNTED"
  | .closed => "SHIFT_STATE_CLOSED"

/-- The states of a shift. -/
def shiftMachine : StateMachine ShiftState ShiftTrigger where
  name := "shift"
  asWire := ShiftState.asWire
  triggerName := ShiftTrigger.label
  next
    | .open, .count => some .counted
    | .counted, .close => some .closed
    | _, _ => none

end PosFramework
