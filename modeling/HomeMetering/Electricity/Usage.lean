import HomeMetering.Json
import HomeMetering.Json.Written
import HomeMetering.Line
import HomeMetering.Plausibility
import HomeMetering.Quantity

/-!
# Energy counters

Energy consumed and provided per line, as the meter itself counts it. Some devices report a total of
their own, others only lines: a total that was set wins over the sum of the lines, unless it is
zero.
-/

namespace HomeMetering.Electricity

/-- Counters of all lines, in kWh. -/
structure Usage (K : Type) where
  consumed : PerLine K
  provided : PerLine K
  /-- The total that was set, zero when none was. -/
  setConsumed : K
  setProvided : K
  deriving Repr, DecidableEq

namespace Usage

variable {K : Type} [Quantity K]

def zero : Usage K :=
  ⟨.const Quantity.zero, .const Quantity.zero, Quantity.zero, Quantity.zero⟩

/-- A total that was set, or the sum of the lines. -/
def totalOr (set : K) (lines : PerLine K) : K :=
  if Quantity.isZero set then Quantity.total lines.toList else set

def totalConsumed (u : Usage K) : K := totalOr u.setConsumed u.consumed

def totalProvided (u : Usage K) : K := totalOr u.setProvided u.provided

/-- Whether nothing was consumed or provided in total. -/
def isZero (u : Usage K) : Bool :=
  Quantity.isZero u.totalConsumed && Quantity.isZero u.totalProvided

/-- Writes the counters of one phase of `src` to a line; a phase that does not exist reads zero. -/
def copyLine (dst src : Usage K) (phase line : LineIndex) : Usage K :=
  { dst with
    consumed := dst.consumed.set line ((src.consumed.get? phase).getD Quantity.zero)
    provided := dst.provided.set line ((src.provided.get? phase).getD Quantity.zero) }

/-- Sets both totals to those of `src`. -/
def copyTotals (dst src : Usage K) : Usage K :=
  { dst with setConsumed := src.totalConsumed, setProvided := src.totalProvided }

/-- No counter may be negative: lines first, then the totals that were set. -/
def validate (u : Usage Float) : Except Implausible Unit := do
  line "l1" u.consumed.first u.provided.first
  line "l2" u.consumed.second u.provided.second
  line "l3" u.consumed.third u.provided.third
  checkNonNegative "total_energy_consumed" u.setConsumed
  checkNonNegative "total_energy_provided" u.setProvided
where
  /-- The checks of one line. -/
  line (name : String) (consumed provided : Float) : Except Implausible Unit := do
    checkNonNegative (name ++ "_energy_consumed") consumed
    checkNonNegative (name ++ "_energy_provided") provided

/-! ## Documents -/

/-- What a document of counters holds. -/
structure Projection (K : Type) where
  consumed : PerLine K
  totalConsumed : K
  provided : PerLine K
  totalProvided : K
  deriving Repr, DecidableEq

/-- The content of the document: totals as they are reported. -/
def project (u : Usage K) : Projection K where
  consumed := u.consumed
  totalConsumed := u.totalConsumed
  provided := u.provided
  totalProvided := u.totalProvided

/-- The counters behind a document; its totals count as set. -/
def ofProjection (p : Projection K) : Usage K :=
  ⟨p.consumed, p.provided, p.totalConsumed, p.totalProvided⟩

def fieldNames : List String :=
  ["l1_energy_consumed", "l2_energy_consumed", "l3_energy_consumed", "total_energy_consumed",
   "l1_energy_provided", "l2_energy_provided", "l3_energy_provided", "total_energy_provided"]

def Projection.toJson (p : Projection Float) : Json :=
  .obj <| fieldNames.zip <|
    p.consumed.toList.map .double ++ [.double p.totalConsumed] ++
    (p.provided.toList.map .double ++ [.double p.totalProvided])

def Projection.ofWritten? (w : Json.Written) : Option (Projection Float) := do
  let fields ← w.record? fieldNames
  return {
    consumed := ← lines fields "_energy_consumed"
    totalConsumed := ← Json.Written.double? fields "total_energy_consumed"
    provided := ← lines fields "_energy_provided"
    totalProvided := ← Json.Written.double? fields "total_energy_provided" }
where
  /-- The three fields of one quantity. -/
  lines (fields : List (String × Json.Written)) (suffix : String) : Option (PerLine Float) := do
    return ⟨← Json.Written.double? fields ("l1" ++ suffix),
      ← Json.Written.double? fields ("l2" ++ suffix),
      ← Json.Written.double? fields ("l3" ++ suffix)⟩

def toJson (u : Usage Float) : Json := u.project.toJson

def ofWritten? (w : Json.Written) : Option (Usage Float) :=
  (Projection.ofWritten? w).map ofProjection

end Usage

end HomeMetering.Electricity
