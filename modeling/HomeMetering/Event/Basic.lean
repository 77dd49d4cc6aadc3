import HomeMetering.Battery
import HomeMetering.Electricity.State
import HomeMetering.Electricity.Usage
import HomeMetering.Naming
import HomeMetering.Time
import HomeMetering.Volume

/-!
# Events

What a source measured, when, and in which role. There are five families of events, each with values
of its own.
-/

namespace HomeMetering

open Electricity

/-- Values of a source at one moment. -/
structure Event (α : Type) where
  time : Instant
  source : String
  role : Role
  values : α
  deriving Repr

/-- Instant values and counters of electricity. -/
structure Energy (K : Type) where
  state : State
  usage : Usage K

/-- Money that flowed between two readings of the counters. -/
structure Costs (K : Type) where
  consumed : K
  provided : K
  importCost : K
  exportRevenue : K
  deriving Repr, DecidableEq

inductive Family where
  | electricity
  | costs
  | gas
  | water
  | battery
  deriving Repr, DecidableEq

namespace Family

def all : List Family := [electricity, costs, gas, water, battery]

/-- The name in topics and maps. -/
def name : Family → String
  | electricity => "electricity"
  | costs => "costs"
  | gas => "gas"
  | water => "water"
  | battery => "battery"

def ofName? (text : String) : Option Family := all.find? fun f => f.name == text

/-- The values that events of a family carry. -/
abbrev Values : Family → Type
  | electricity => Energy Float
  | costs => Costs Float
  | gas => Volume
  | water => Volume
  | battery => BatteryState

def valuesJson : (f : Family) → f.Values → Json
  | electricity, v => .obj [("state", v.state.toJson), ("usage", v.usage.toJson)]
  | costs, v => .obj
      [("energy_consumed", .double v.consumed), ("energy_provided", .double v.provided),
        ("import_cost", .double v.importCost), ("export_revenue", .double v.exportRevenue)]
  | gas, v => v.toJson
  | water, v => v.toJson
  | battery, v => v.toJson

end Family

/-- An event of some family. -/
structure Occurrence where
  family : Family
  event : Event family.Values

/-- The document of an event. Every event has an identifier of its own, which says nothing about it
and is left to the writer. -/
def Event.toJson (f : Family) (e : Event f.Values) (id : String) : Json :=
  .obj [("id", .str id), ("event_time", .str (e.time.text "Z")), ("source_name", .str e.source),
    ("role", .str e.role.title), ("values", f.valuesJson e.values)]

end HomeMetering
