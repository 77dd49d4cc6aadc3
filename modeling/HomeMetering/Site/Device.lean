import HomeMetering.Modbus.Error
import HomeMetering.Modbus.Register

/-!
# Devices on a bus

A device answers for the registers it has; some answer at one rate only, keep registers from being
written, or cut long answers short.
-/

namespace HomeMetering.Site

open Modbus

/-- The registers of one bank by address. -/
abbrev Registers := Nat → Option UInt16

namespace Registers

def empty : Registers := fun _ => none

/-- The registers with consecutive ones set. -/
def put (r : Registers) (address : Nat) (values : List UInt16) : Registers := fun a =>
  if address ≤ a ∧ a < address + values.length then values[a - address]? else r a

/-- Consecutive registers, if all of them exist. -/
def get? (r : Registers) (address quantity : Nat) : Option (List UInt16) :=
  (List.range quantity).mapM fun i => r (address + i)

end Registers

structure Device where
  holding : Registers
  input : Registers
  /-- The only rate it answers at, if there is one. -/
  onlyBaud : Option Nat
  readOnly : List Nat
  /-- The most registers it answers with. -/
  maxRegisters : Option Nat

namespace Device

def new : Device := ⟨.empty, .empty, none, [], none⟩

def bank (d : Device) : Bank → Registers
  | .holding => d.holding
  | .input => d.input

def read (d : Device) (block : Block) : Except BusError (List UInt16) :=
  match (d.bank block.bank).get? block.address.toNat block.quantity.toNat with
  | none => .error (.frame (.exception 2))
  | some values => .ok (match d.maxRegisters with
    | some n => values.take n
    | none => values)

def write (d : Device) (address value : UInt16) : Except BusError Device :=
  if d.readOnly.contains address.toNat then .error (.frame (.exception 2))
  else .ok { d with holding := d.holding.put address.toNat [value] }

/-- Whether the device answers at a rate. -/
def answersAt (d : Device) (baud : Nat) : Bool :=
  match d.onlyBaud with
  | some only => only == baud
  | none => true

end Device

/-- A bus with its devices. -/
structure Segment where
  devices : List (UInt8 × Device)
  /-- Rates at which it cannot be opened. -/
  openFailures : List Nat
  closeFails : Bool
  /-- Whether nothing gets through at the moment. -/
  isFailing : Bool

namespace Segment

def new : Segment := ⟨[], [], false, false⟩

/-- The device of a unit, if it can be reached at a rate. -/
def reach (s : Segment) (unit : UInt8) (baud : Nat) : Except BusError Device :=
  if s.isFailing then .error .timeout
  else match s.devices.lookup unit with
    | none => .error .timeout
    | some d => if d.answersAt baud then .ok d else .error .timeout

/-- The bus with a device in the place of a unit. -/
def put (s : Segment) (unit : UInt8) (d : Device) : Segment :=
  { s with devices := (unit, d) :: s.devices.filter fun e => e.1 != unit }

def unplug (s : Segment) (unit : UInt8) : Segment :=
  { s with devices := s.devices.filter fun e => e.1 != unit }

end Segment

end HomeMetering.Site
