import HomeMetering.Decimal.Places
import HomeMetering.Event.Basic

/-!
# Overview

The latest event of every source, by family. Events need not arrive in order: one that is older than
the event at hand is dropped.
-/

namespace HomeMetering

/-- The latest event of every source, in order of the names. -/
abbrev Latest (α : Type) := List (String × Event α)

namespace Latest

variable {α : Type}

/-- Takes an event in unless a newer one of its source is there. -/
def keep (e : Event α) : Latest α → Latest α
  | [] => [(e.source, e)]
  | (name, old) :: rest =>
    if e.source < name then (e.source, e) :: (name, old) :: rest
    else if e.source = name then
      if e.time.before old.time then (name, old) :: rest else (name, e) :: rest
    else (name, old) :: keep e rest

def toJson (f : Family) (l : Latest f.Values) (id : Event f.Values → String) : Json :=
  .obj (l.map fun (name, e) => (name, e.toJson f (id e)))

end Latest

/-- The latest events of all families. -/
structure Overview where
  electricity : Latest (Family.Values .electricity)
  costs : Latest (Family.Values .costs)
  gas : Latest (Family.Values .gas)
  water : Latest (Family.Values .water)
  battery : Latest (Family.Values .battery)

namespace Overview

def empty : Overview := ⟨[], [], [], [], []⟩

def keep (o : Overview) : Occurrence → Overview
  | ⟨.electricity, e⟩ => { o with electricity := o.electricity.keep e }
  | ⟨.costs, e⟩ => { o with costs := o.costs.keep e }
  | ⟨.gas, e⟩ => { o with gas := o.gas.keep e }
  | ⟨.water, e⟩ => { o with water := o.water.keep e }
  | ⟨.battery, e⟩ => { o with battery := o.battery.keep e }

/-- The power of all sources together. -/
def totalPower (o : Overview) : Float32 :=
  Electricity.State.total (o.electricity.map fun (_, e) => e.values.state.totalPower)

/-- The line about an electricity source and what its last reading cost. -/
def electricityLine (o : Overview) (name : String) (e : Event (Energy Float)) : String :=
  name ++ " (" ++ e.role.name ++ "): " ++
    Decimal.singlePlaces 0 e.values.state.totalPower ++ " W, " ++
    Decimal.doublePlaces 3 e.values.usage.totalConsumed ++ " kWh consumed, " ++
    Decimal.doublePlaces 3 e.values.usage.totalProvided ++ " kWh provided" ++
    match o.costs.lookup name with
    | some c => ", last cost " ++ Decimal.doublePlaces 4 c.values.importCost ++ " / revenue " ++
        Decimal.doublePlaces 4 c.values.exportRevenue
    | none => ""

def batteryLine (name : String) (b : BatteryState) : String :=
  name ++ " (battery): " ++ Decimal.singlePlaces 0 b.power ++ " W, " ++
    Decimal.singlePlaces 1 b.stateOfCharge ++ " % charged"

def volumeLine (name kind : String) (v : Volume) : String :=
  name ++ " (" ++ kind ++ "): " ++ Decimal.doublePlaces 3 v.consumed ++ " m³"

def summary (o : Overview) : List String :=
  (o.electricity.map fun (name, e) => o.electricityLine name e) ++
    (o.battery.map fun (name, e) => batteryLine name e.values) ++
    (o.gas.map fun (name, e) => volumeLine name "gas" e.values) ++
    (o.water.map fun (name, e) => volumeLine name "water" e.values)

/-- The document of all events, with the identifiers they have. -/
def toJsonWith (o : Overview) (id : (f : Family) → Event f.Values → String) : Json :=
  (Json.obj [("electricity", o.electricity.toJson .electricity (id .electricity)),
    ("costs", o.costs.toJson .costs (id .costs)), ("gas", o.gas.toJson .gas (id .gas)),
    ("water", o.water.toJson .water (id .water)),
    ("battery", o.battery.toJson .battery (id .battery))]).tree

/-- The document in which every event has the same identifier. -/
def toJson (o : Overview) (id : String) : Json := o.toJsonWith fun _ _ => id

end Overview

end HomeMetering
