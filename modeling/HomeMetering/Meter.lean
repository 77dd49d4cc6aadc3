import HomeMetering.Meter.Abb
import HomeMetering.Meter.CarloGavazzi
import HomeMetering.Meter.Dsmr
import HomeMetering.Meter.Playback
import HomeMetering.Meter.Victron

/-!
# Meters

A meter of any brand: what it is, how it is polled, and how it is let go of.
-/

namespace HomeMetering

open Site

/-- A detected meter. -/
inductive Meter (K : Type) where
  | abb (m : Meter.Abb K)
  | carloGavazzi (m : Meter.CarloGavazzi K)
  | victron (m : Meter.Victron K)
  | dsmr (m : Meter.Dsmr K)
  | playback (m : Meter.Playback K)

namespace Meter

variable {K : Type} [Quantity K]

def brand : Meter K → Brand
  | abb _ => .abb
  | carloGavazzi _ => .carloGavazzi
  | victron _ => .victron
  | dsmr _ => .dsmr
  | playback m => m.brand

def model : Meter K → String
  | abb m => m.designation
  | carloGavazzi m => m.model
  | victron m => m.model
  | dsmr m => m.model
  | playback m => m.model

def serial : Meter K → String
  | abb m => m.serial
  | carloGavazzi m => m.serial
  | victron m => m.serial
  | dsmr m => m.serial
  | playback m => m.serial

def setup : Meter K → Setup
  | abb m => m.setup
  | carloGavazzi m => m.setup
  | victron m => m.setup
  | dsmr m => m.setup
  | playback m => m.setup

def link? : Meter K → Option Modbus.Link
  | abb m => some m.link
  | carloGavazzi m => some m.link
  | victron m => some m.link
  | dsmr _ => none
  | playback _ => none

/-- Milliseconds that a poll takes. -/
def delay : Meter K → Nat
  | playback m => m.delay
  | _ => 0

/-- Polls the meter at a time: whether an instant value changed, and the readings with its values
written to them. -/
def update (now : Instant) : Meter K → Readings K → Job (Bool × Readings K × Meter K)
  | abb m, r => do
    let (changed, r, m) ← m.update now r
    return (changed, r, .abb m)
  | carloGavazzi m, r => do
    let (changed, r, m) ← m.update now r
    return (changed, r, .carloGavazzi m)
  | victron m, r => do
    let (changed, r, m) ← m.update now r
    return (changed, r, .victron m)
  | dsmr m, r => do
    let (changed, r, m) ← m.update r
    return (changed, r, .dsmr m)
  | playback m, r =>
    let (changed, r, m) := m.update r
    return (changed, r, .playback m)

/-- Lets go of the bus or the port. -/
def shutdown : Meter K → Job (Meter K)
  | abb m => do
    return .abb { m with link := ← m.link.release }
  | carloGavazzi m => do
    return .carloGavazzi { m with link := ← m.link.release }
  | victron m => do
    return .victron { m with link := ← m.link.release }
  | dsmr m => do
    Job.request (.unfollow m.port)
    return .dsmr m
  | playback m => return .playback m

def infoJson (m : Meter K) : Json :=
  .obj <|
    [("brand", .str m.brand.name), ("model", .str m.model), ("serial", .str m.serial),
      ("line_indices", .arr (m.setup.lines.map fun (line : Nat) => .int line)),
      ("attributes", .arr (m.setup.attributes.map fun a => .str a.name))] ++
    match m.link? with
    | none => []
    | some link =>
      [("connect_url", .str link.url), ("unit_id", .int link.unit.toNat)] ++
        if link.baud = 0 then [] else [("baud_rate", .int link.baud)]

end Meter

end HomeMetering
