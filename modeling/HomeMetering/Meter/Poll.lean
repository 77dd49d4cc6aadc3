import HomeMetering.Meter.Readings
import HomeMetering.Modbus.Link

/-!
# Polling registers

What meters on a bus have in common: where their instant values stand, and when counters are read
along with them. A read that fails leaves what was read before.
-/

namespace HomeMetering.Meter

open Electricity Modbus Site

/-- Where the instant values of each phase stand. -/
structure InstantData where
  voltage : PerLine (Datum Float)
  current : PerLine (Datum Float)
  power : PerLine (Datum Float)

/-- The value of a phase, zero when there is no such phase. -/
def phaseValue {K : Type} [Quantity K] (data : PerLine (Datum K)) (encoding : Encoding)
    (registers : List UInt16) (phase : Nat) : K :=
  match data.get? phase with
  | some datum => datum.read encoding registers
  | none => Quantity.zero

namespace InstantData

/-- The state with one phase set. The current may depend on the power, for devices that leave its
sign out. -/
def addPhase (f : InstantData) (encoding : Encoding)
    (current : Float32 → Float32 → Float32) (registers : List UInt16) (s : State) (phase : Nat) :
    State :=
  let value (data : PerLine (Datum Float)) : Float32 :=
    Decimal.Binary.singleOfDouble (phaseValue data encoding registers phase)
  { voltage := s.voltage.set phase (value f.voltage)
    power := s.power.set phase (value f.power)
    current := s.current.set phase (current (value f.power) (value f.current)) }

/-- The state of some phases of a device. -/
def stateOf (f : InstantData) (encoding : Encoding) (current : Float32 → Float32 → Float32)
    (phases : List Nat) (registers : List UInt16) : State :=
  phases.foldl (f.addPhase encoding current registers) .zero

end InstantData

/-- The current as the device reports it. -/
def asReported (_power current : Float32) : Float32 := current

variable {K : Type} [Quantity K]

/-- Reads instant values, and keeps the ones before when that fails. -/
def pollState (setup : Setup) (cache : Cache K) (instant : Job (Except BusError State)) :
    Job (Bool × Cache K) :=
  if setup.has .state then do
    match ← instant with
    | .ok state => return cache.storeState state
    | .error _ => return (false, cache)
  else return (false, cache)

/-- Reads counters when the minute has changed, and keeps the ones before when that fails. -/
def pollUsage (setup : Setup) (now : Instant) (cache : Cache K)
    (totals : Job (Except BusError (Usage K))) : Job (Cache K) :=
  if setup.has .usage then
    match cache.gate.due now with
    | (true, gate) => do
      match ← totals with
      | .ok usage => return { cache with gate, usage }
      | .error _ => return { cache with gate }
    | (false, _) => return cache
  else return cache

/-- One poll: whether the instant values changed, and what is kept after it. -/
def poll (setup : Setup) (now : Instant) (cache : Cache K)
    (instant : Job (Except BusError State)) (totals : Job (Except BusError (Usage K))) :
    Job (Bool × Cache K) := do
  let (changed, cache) ← pollState setup cache instant
  let cache ← pollUsage setup now cache totals
  return (changed, cache)

end HomeMetering.Meter
