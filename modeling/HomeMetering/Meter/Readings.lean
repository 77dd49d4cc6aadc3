import HomeMetering.Battery
import HomeMetering.Electricity.State
import HomeMetering.Electricity.Usage
import HomeMetering.Naming
import HomeMetering.Time
import HomeMetering.Volume

/-!
# Readings

What the meters of a source give in one tick. Every meter writes the lines and attributes it is set
up for, and keeps what it read last for the ticks in which a read fails.
-/

namespace HomeMetering

open Electricity

/-- Everything one tick collects. -/
structure Readings (K : Type) where
  state : State
  usage : Usage K
  battery : BatteryState
  gas : Volume
  water : Volume

def Readings.zero {K : Type} [Quantity K] : Readings K := ⟨.zero, .zero, .zero, .zero, .zero⟩

/-- What every meter is told, whatever its brand. -/
structure Setup where
  role : Role
  lines : List LineIndex
  attributes : List Attribute
  /-- Milliseconds between two polls. -/
  interval : Nat
  deriving Repr, DecidableEq

/-- Whether the meter contributes an attribute. -/
def Setup.has (s : Setup) (a : Attribute) : Bool := s.attributes.contains a

namespace Meter

/-! ## Lines -/

/-- Which phase of a device feeds which line: a device with three phases feeds the lines it is set
up for one to one, a device with a single phase feeds the first of them. -/
def phasePairs (lines : List LineIndex) (singlePhase : Bool) : List (Nat × LineIndex) :=
  if singlePhase then (lines.head?.map fun line => (0, line)).toList
  else (lines.filter (· < lineCount)).map fun line => (line, line)

/-- The phases that are read from a device. -/
def devicePhases (lines : List LineIndex) (singlePhase : Bool) : List Nat :=
  if singlePhase then [0] else lines.filter (· < lineCount)

/-- Whether a meter sees everything that flows, so that its totals are those of the source. -/
def coversAllLines (lines : List LineIndex) : Bool :=
  (List.range lineCount).all fun line => lines.contains line

/-- The share of each line in a total that a device does not split. -/
def splitEvenly {K : Type} [Quantity K] (total : K) (lines : List LineIndex) : K :=
  if lines.isEmpty then Quantity.zero else total / Quantity.ofInt lines.length

/-- Writes the phases of `src` to their lines. -/
def mergeState (dst src : State) (pairs : List (Nat × LineIndex)) : State :=
  pairs.foldl (fun acc pair => acc.copyLine src pair.1 pair.2) dst

/-- Writes the phases of `src` to their lines, and its totals when they are asked for. -/
def mergeUsage {K : Type} [Quantity K] (dst src : Usage K) (pairs : List (Nat × LineIndex))
    (withTotals : Bool) : Usage K :=
  let merged := pairs.foldl (fun acc pair => acc.copyLine src pair.1 pair.2) dst
  if withTotals then merged.copyTotals src else merged

/-- Writes cached counters for a setup. -/
def fillUsage {K : Type} [Quantity K] (dst src : Usage K) (lines : List LineIndex)
    (singlePhase : Bool) : Usage K :=
  mergeUsage dst src (phasePairs lines singlePhase) (coversAllLines lines)

/-! ## Counters once a minute -/

/-- Lets counters be read again when the minute of the hour has changed. -/
structure MinuteGate where
  last : Option Nat
  deriving Repr, DecidableEq

namespace MinuteGate

def fresh : MinuteGate := ⟨none⟩

/-- Whether the gate opens at a time, and the gate after that. -/
def due (g : MinuteGate) (now : Instant) : Bool × MinuteGate :=
  if g.last = some now.minuteOfHour then (false, g) else (true, ⟨some now.minuteOfHour⟩)

end MinuteGate

/-! ## What a meter keeps -/

/-- The values that were read last. -/
structure Cache (K : Type) where
  state : State
  usage : Usage K
  battery : BatteryState
  gate : MinuteGate

namespace Cache

variable {K : Type} [Quantity K]

def empty : Cache K := ⟨.zero, .zero, .zero, .fresh⟩

/-- Keeps a state, and tells whether it differs from the one before. -/
def storeState (c : Cache K) (s : State) : Bool × Cache K := (c.state != s, { c with state := s })

/-- Keeps a battery, and tells whether it differs from the one before. -/
def storeBattery (c : Cache K) (b : BatteryState) : Bool × Cache K :=
  (c.battery != b, { c with battery := b })

/-- Writes what is kept, as far as the setup asks for it. -/
def fill (c : Cache K) (setup : Setup) (singlePhase : Bool) (r : Readings K) : Readings K :=
  let r := if setup.has .state then
      { r with state := mergeState r.state c.state (phasePairs setup.lines singlePhase) }
    else r
  if setup.has .usage then
    { r with usage := fillUsage r.usage c.usage setup.lines singlePhase }
  else r

end Cache

end Meter

end HomeMetering
