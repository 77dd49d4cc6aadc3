import HomeMetering.Json
import HomeMetering.Json.Written
import HomeMetering.Plausibility

/-!
# Gas and water

Cumulative consumption in cubic metres.
-/

namespace HomeMetering

/-- What flows through a volume meter. -/
inductive Medium where
  | gas
  | water
  deriving Repr, DecidableEq

/-- A consumed volume. -/
structure Volume where
  consumed : Float
  deriving Repr

namespace Volume

def zero : Volume := ⟨0.0⟩

def isZero (v : Volume) : Bool := v.consumed == 0.0

/-- The field that a finding names. -/
def fieldOf : Medium → String
  | .gas => "gas_consumed"
  | .water => "water_consumed"

/-- A volume must not be negative. -/
def validate (medium : Medium) (v : Volume) : Except Implausible Unit :=
  checkNonNegative (fieldOf medium) v.consumed

def toJson (v : Volume) : Json := .obj [("consumed", .double v.consumed)]

def ofWritten? (w : Json.Written) : Option Volume := do
  let fields ← w.record? ["consumed"]
  return ⟨← Json.Written.double? fields "consumed"⟩

end Volume

end HomeMetering
