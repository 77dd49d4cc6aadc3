import HomeMetering.Meter.Error
import HomeMetering.Meter.Poll

/-!
# ABB meters of the B series

B21 meters have a single phase, B23 and B24 have three. They answer with everything most significant
first.
-/

namespace HomeMetering.Meter

open Electricity Modbus Site

/-- A meter of the B series. -/
inductive Abb.Family where
  | b21
  | b23
  | b24
  deriving Repr, DecidableEq

structure Abb (K : Type) where
  link : Link
  setup : Setup
  family : Abb.Family
  designation : String
  serial : String
  cache : Cache K

namespace Abb

namespace Family

def name : Family → String
  | b21 => "B21"
  | b23 => "B23"
  | b24 => "B24"

/-- The family that a type designation starts with. -/
def ofDesignation? (text : String) : Option Family :=
  [b21, b23, b24].find? fun f => text.startsWith f.name

def isSinglePhase (f : Family) : Bool := f == b21

end Family

/-! ## Registers -/

/-- How the registers are laid out. -/
def encoding : Encoding := .bigEndian

def designationBlock : Block := .holding 0x8960 6

def serialBlock : Block := .holding 0x8900 2

def instantBlock : Block := .holding 0x5B00 0x1C

/-- A value of two registers. -/
def datum32 (decoder : Decoder Float) (index : Nat) : Datum Float := ⟨index, .w32, decoder⟩

def instantData : InstantData where
  voltage := (⟨0x00, 0x02, 0x04⟩ : PerLine Nat).map (datum32 (.unsigned 10))
  current := (⟨0x0C, 0x0E, 0x10⟩ : PerLine Nat).map (datum32 (.unsigned 100))
  power := (⟨0x16, 0x18, 0x1A⟩ : PerLine Nat).map (datum32 (.signed 100))

def totalsBlock : Block := .holding 0x5000 8

def phasesBlock : Block := .holding 0x5460 0x18

section

variable {K : Type} [Quantity K]

/-- A counter of four registers, in hundredths of a kWh. -/
def counter (index : Nat) : Datum K := ⟨index, .w64, .unsigned 100⟩

def importTotal (e : Encoding) (registers : List UInt16) : K := (counter 0x00).read e registers

def exportTotal (e : Encoding) (registers : List UInt16) : K := (counter 0x04).read e registers

def importCounters : PerLine (Datum K) := (⟨0x00, 0x04, 0x08⟩ : PerLine Nat).map counter

def exportCounters : PerLine (Datum K) := (⟨0x0C, 0x10, 0x14⟩ : PerLine Nat).map counter

/-- The counters of a device with a single phase: its totals are those of the phase. -/
def singleUsage (e : Encoding) (totals : List UInt16) : Usage K :=
  { Usage.zero with
    consumed := Usage.zero.consumed.set 0 (importTotal e totals)
    provided := Usage.zero.provided.set 0 (exportTotal e totals) }

/-- The counters of one phase added. -/
def addPhase (e : Encoding) (registers : List UInt16) (u : Usage K) (phase : Nat) : Usage K :=
  { u with
    consumed := u.consumed.set phase (phaseValue importCounters e registers phase)
    provided := u.provided.set phase (phaseValue exportCounters e registers phase) }

def threePhaseUsage (e : Encoding) (phases : List Nat) (totals registers : List UInt16) : Usage K :=
  { phases.foldl (addPhase e registers) .zero with
    setConsumed := importTotal e totals
    setProvided := exportTotal e totals }

end

/-! ## Talking to the meter -/

variable {K : Type} [Quantity K]

def serialText (e : Encoding) (registers : List UInt16) : String :=
  ((e.u32At? registers 0).map fun n => toString n.toNat).getD ""

/-- Identifies the device behind a link. A serial number that cannot be read stays empty. -/
def probe (link : Link) (setup : Setup) : Job (Except MeterError (Abb K)) := do
  match ← link.read designationBlock with
  | .error e => return .error (.bus e)
  | .ok registers =>
    let designation := asciiText registers
    if designation.isEmpty then return .error (.notRecognized .abb)
    else match Family.ofDesignation? designation with
      | none => return .error (.unsupportedModel .abb designation)
      | some family =>
        let serial ← link.read serialBlock
        return .ok { link, setup, family, designation, cache := .empty
                     serial := (serial.toOption.map (serialText link.encoding)).getD "" }

def phases (m : Abb K) : List Nat := devicePhases m.setup.lines m.family.isSinglePhase

def readInstant (m : Abb K) : Job (Except BusError State) := do
  let registers ← m.link.read instantBlock
  return registers.map (instantData.stateOf m.link.encoding asReported m.phases)

/-- Reads the counters: for three phases, those of the device and those of the phases. -/
def readTotals (m : Abb K) : Job (Except BusError (Usage K)) := do
  match ← m.link.read totalsBlock with
  | .error e => return .error e
  | .ok totals =>
    if m.family.isSinglePhase then return .ok (singleUsage m.link.encoding totals)
    else
      let registers ← m.link.read phasesBlock
      return registers.map (threePhaseUsage m.link.encoding m.phases totals)

def update (now : Instant) (m : Abb K) (r : Readings K) : Job (Bool × Readings K × Abb K) := do
  let (changed, cache) ← poll m.setup now m.cache m.readInstant m.readTotals
  return (changed, cache.fill m.setup m.family.isSinglePhase r, { m with cache })

end Abb

end HomeMetering.Meter
