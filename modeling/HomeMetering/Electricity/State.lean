import HomeMetering.Json
import HomeMetering.Json.Written
import HomeMetering.Line
import HomeMetering.Plausibility

/-!
# Instant electrical state

Current, power and voltage of up to three lines. Power and current are signed: a negative value
feeds energy back. Totals and the number of phases are derived, so a document of a state carries
them and a reader of one checks their type and drops them.
-/

namespace HomeMetering.Electricity

structure State where
  current : PerLine Float32
  power : PerLine Float32
  voltage : PerLine Float32
  deriving BEq, Repr

namespace State

def zero : State := ⟨.const 0, .const 0, .const 0⟩

/-- The sum of single precision values from the left, starting at minus zero. -/
def total (xs : List Float32) : Float32 := xs.foldl (· + ·) (-0.0)

/-- The number of the highest line that carries voltage, counted from one; zero without voltage. -/
def phases (s : State) : Nat :=
  if s.voltage.third != 0.0 then 3
  else if s.voltage.second != 0.0 then 2
  else if s.voltage.first != 0.0 then 1
  else 0

def totalCurrent (s : State) : Float32 := total s.current.toList

def totalPower (s : State) : Float32 := total s.power.toList

def isZero (s : State) : Bool :=
  (s.current.toList ++ s.power.toList ++ s.voltage.toList).all fun x => x == 0.0

/-- Voltage must not be negative, current and power must be finite; line by line. -/
def validate (s : State) : Except Implausible Unit := do
  line "l1" s.voltage.first s.current.first s.power.first
  line "l2" s.voltage.second s.current.second s.power.second
  line "l3" s.voltage.third s.current.third s.power.third
where
  /-- The checks of one line. -/
  line (name : String) (voltage current power : Float32) : Except Implausible Unit := do
    checkNonNegative (name ++ "_voltage") voltage.toFloat
    checkFinite (name ++ "_current") current.toFloat
    checkFinite (name ++ "_power") power.toFloat

/-- Writes the values of one phase of `src` to a line; a phase that does not exist reads zero. -/
def copyLine (dst src : State) (phase line : LineIndex) : State :=
  { current := dst.current.set line ((src.current.get? phase).getD 0)
    power := dst.power.set line ((src.power.get? phase).getD 0)
    voltage := dst.voltage.set line ((src.voltage.get? phase).getD 0) }

/-! ## Documents -/

/-- What a document of a state holds. -/
structure Projection where
  current : PerLine Float32
  totalCurrent : Float32
  power : PerLine Float32
  totalPower : Float32
  voltage : PerLine Float32
  phases : Nat
  deriving Repr

/-- The content of a state's document. -/
def project (s : State) : Projection where
  current := s.current
  totalCurrent := s.totalCurrent
  power := s.power
  totalPower := s.totalPower
  voltage := s.voltage
  phases := s.phases

/-- The state behind a document; what is derived has no say in it. -/
def ofProjection (p : Projection) : State := ⟨p.current, p.power, p.voltage⟩

def fieldNames : List String :=
  ["l1_current", "l2_current", "l3_current", "total_current", "l1_power", "l2_power", "l3_power",
   "total_power", "l1_voltage", "l2_voltage", "l3_voltage", "phases"]

def Projection.toJson (p : Projection) : Json :=
  .obj <| fieldNames.zip <|
    p.current.toList.map .single ++ [.single p.totalCurrent] ++
    (p.power.toList.map .single ++ [.single p.totalPower]) ++
    (p.voltage.toList.map .single ++ [.int p.phases])

def Projection.ofWritten? (w : Json.Written) : Option Projection := do
  let fields ← w.record? fieldNames
  return {
    current := ← lines fields "_current"
    totalCurrent := ← Json.Written.single? fields "total_current"
    power := ← lines fields "_power"
    totalPower := ← Json.Written.single? fields "total_power"
    voltage := ← lines fields "_voltage"
    phases := ← Json.Written.natural? fields "phases" }
where
  /-- The three fields of one quantity. -/
  lines (fields : List (String × Json.Written)) (suffix : String) : Option (PerLine Float32) := do
    return ⟨← Json.Written.single? fields ("l1" ++ suffix),
      ← Json.Written.single? fields ("l2" ++ suffix),
      ← Json.Written.single? fields ("l3" ++ suffix)⟩

def toJson (s : State) : Json := s.project.toJson

def ofWritten? (w : Json.Written) : Option State := (Projection.ofWritten? w).map ofProjection

end State

end HomeMetering.Electricity
