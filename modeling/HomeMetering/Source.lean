import HomeMetering.Event.Basic
import HomeMetering.Meter
import HomeMetering.Source.Runner

/-!
# Sources

A source is one connection to energy with all its meters: the grid, a photovoltaic system, a
battery. Its meters are polled one after the other; every tick merges what they give and publishes
it.
-/

namespace HomeMetering

open Electricity Site

/-- What a tick publishes: at most one event of each family. -/
structure Publication (K : Type) where
  electricity : Option (Energy K)
  battery : Option BatteryState
  gas : Option Volume
  water : Option Volume

namespace Publication

variable {K : Type} [Quantity K]

/-- Nothing is published. -/
def nothing : Publication K := ⟨none, none, none, none⟩

def isEmpty (p : Publication K) : Bool :=
  p.electricity.isNone && p.battery.isNone && p.gas.isNone && p.water.isNone

/-- Everything in the readings that is not zero. -/
def ofReadings (r : Readings K) : Publication K where
  electricity := if r.state.isZero && r.usage.isZero then none else some ⟨r.state, r.usage⟩
  battery := if r.battery.isZero then none else some r.battery
  gas := if r.gas.isZero then none else some r.gas
  water := if r.water.isZero then none else some r.water

def occurrences (p : Publication Float) (now : Instant) (source : String) (role : Role) :
    List Occurrence :=
  (p.electricity.map fun v => Occurrence.mk .electricity ⟨now, source, role, v⟩).toList ++
    (p.battery.map fun v => Occurrence.mk .battery ⟨now, source, role, v⟩).toList ++
    (p.gas.map fun v => Occurrence.mk .gas ⟨now, source, role, v⟩).toList ++
    (p.water.map fun v => Occurrence.mk .water ⟨now, source, role, v⟩).toList

end Publication

/-- A source with what its last tick read. -/
structure Source (K : Type) where
  name : String
  role : Role
  policy : PublishPolicy
  meters : List (Meter K)
  readings : Readings K
  /-- Ticks so far. -/
  tickCount : Nat
  /-- When the last tick was. -/
  updated : Option Instant
  /-- The number of the last tick, as whoever waits for updates is told. -/
  signal : Nat
  runner : Runner

namespace Source

variable {K : Type} [Quantity K]

def new (name : String) (role : Role) (policy : PublishPolicy) (meters : List (Meter K)) :
    Source K :=
  ⟨name, role, policy, meters, .zero, 0, none, 0, .new meters.length⟩

/-- Milliseconds between two ticks of a source without meters. -/
def defaultInterval : Nat := 1000

/-- Milliseconds between two ticks: the slowest meter sets the pace. -/
def interval (s : Source K) : Nat :=
  ((s.meters.map fun m => m.setup.interval).max?).getD defaultInterval

/-- Polls meters one after the other: whether any reported a change, and the merged readings. -/
def pollAll (now : Instant) : List (Meter K) → Bool → Readings K →
    Job (Bool × Readings K × List (Meter K))
  | [], changed, r => return (changed, r, [])
  | m :: rest, changed, r => do
    let (c, r, m) ← m.update now r
    let (changed, r, rest) ← pollAll now rest (changed || c) r
    return (changed, r, m :: rest)

/-- Whether a tick publishes what it read. -/
def publishes (policy : PublishPolicy) (changed : Bool) : Bool :=
  match policy with
  | .always => true
  | .onChange => changed

/-- Polls every meter once: what is published, and the source after it. -/
def tick (now : Instant) (s : Source K) : Job (Publication K × Source K) := do
  let (changed, readings, meters) ← pollAll now s.meters false .zero
  let published := if publishes s.policy changed then .ofReadings readings else .nothing
  let tickCount := s.tickCount + 1
  return (published,
    { s with meters, readings, tickCount, updated := some now, signal := tickCount })

/-- Lets go of meters one after the other. -/
def shutdownAll : List (Meter K) → Job (List (Meter K))
  | [] => return []
  | m :: rest => do
    let m ← m.shutdown
    let rest ← shutdownAll rest
    return m :: rest

/-- Starts the source: whether that did anything, and the source after it. -/
def start (s : Source K) : Bool × Source K :=
  (s.runner.canStart, { s with runner := (s.runner.act .start).1 })

/-- Stops a source that waits for its next tick, and lets go of every meter. -/
def stop (s : Source K) : Job (Source K) :=
  if s.runner.stage = .waiting then do
    return { s with
      meters := ← shutdownAll s.meters
      runner := (s.runner.run s.runner.stopping).1 }
  else return s

/-- The document of a source: a battery of a battery source, and otherwise of what is not zero. -/
def toJson (s : Source Float) : Json :=
  Json.tree <| .obj <|
    [("name", .str s.name), ("role", .str s.role.name), ("tick", .int s.tickCount),
      ("updated", match s.updated with
        | some t => .str (t.text "+00:00")
        | none => .null),
      ("meters", .arr (s.meters.map Meter.infoJson)), ("state", s.readings.state.toJson),
      ("usage", s.readings.usage.toJson)] ++
    (if s.role = .battery ∨ !s.readings.battery.isZero then
      [("battery", s.readings.battery.toJson)] else []) ++
    (if s.readings.gas.isZero then [] else [("gas", s.readings.gas.toJson)]) ++
    if s.readings.water.isZero then [] else [("water", s.readings.water.toJson)]

end Source

end HomeMetering
