import HomeMetering.Json
import HomeMetering.Json.Written
import HomeMetering.Plausibility

/-!
# Battery state

Current and power are negative while the battery discharges.
-/

namespace HomeMetering

structure BatteryState where
  current : Float32
  power : Float32
  voltage : Float32
  stateOfCharge : Float32
  stateOfHealth : Float32
  deriving BEq, Repr

namespace BatteryState

def zero : BatteryState := ⟨0, 0, 0, 0, 0⟩

/-- The values in the order of a document. -/
def toList (b : BatteryState) : List Float32 :=
  [b.current, b.power, b.voltage, b.stateOfCharge, b.stateOfHealth]

def ofList? : List Float32 → Option BatteryState
  | [c, p, v, s, h] => some ⟨c, p, v, s, h⟩
  | _ => none

def isZero (b : BatteryState) : Bool := b.toList.all fun x => x == 0.0

/-- Power and current must be finite, the other values must not be negative either. -/
def validate (b : BatteryState) : Except Implausible Unit := do
  checkFinite "power" b.power.toFloat
  checkFinite "current" b.current.toFloat
  checkNonNegative "voltage" b.voltage.toFloat
  checkNonNegative "state_of_charge" b.stateOfCharge.toFloat
  checkNonNegative "state_of_health" b.stateOfHealth.toFloat

def fieldNames : List String :=
  ["current", "power", "voltage", "state_of_charge", "state_of_health"]

def toJson (b : BatteryState) : Json := .obj (fieldNames.zip (b.toList.map .single))

def ofWritten? (w : Json.Written) : Option BatteryState := do
  let fields ← w.record? fieldNames
  ofList? (← fieldNames.mapM (Json.Written.single? fields))

end BatteryState

end HomeMetering
