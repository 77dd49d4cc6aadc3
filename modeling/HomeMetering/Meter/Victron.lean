import HomeMetering.Meter.Error
import HomeMetering.Meter.Poll

/-!
# Victron GX devices

A GX answers on a unit of its own and offers a unit for each of its services: the grid meter, the
inverter of a photovoltaic system, the battery. The services of grid and inverter tell their serial
number and number of phases in registers that depend on the service, so they are read in the first
poll.
-/

namespace HomeMetering.Meter

open Electricity Modbus Site

structure Victron (K : Type) where
  link : Link
  setup : Setup
  systemSerial : String
  /-- The serial number of the service, empty until it is read. -/
  serviceSerial : String
  /-- Whether serial number and number of phases were read. -/
  isIdentified : Bool
  phaseCount : Option UInt16
  cache : Cache K

namespace Victron

/-! ## Registers -/

/-- How the registers are laid out. -/
def encoding : Encoding := .bigEndian

/-- The unit of the GX itself. -/
def systemUnit : UInt8 := 100

def systemSerialBlock : Block := .holding 800 6

/-- A value of one register. -/
def datum16 (decoder : Decoder Float) (index : Nat) : Datum Float := ⟨index, .w16, decoder⟩

/-- Which phases a service counts on. -/
inductive Service where
  | grid
  | inverter
  deriving Repr, DecidableEq

def Service.of (role : Role) : Service := if role = .pv then inverter else grid

namespace Service

def serialBlock : Service → Block
  | grid => .holding 2609 7
  | inverter => .holding 1039 7

def phaseCountBlock : Service → Block
  | grid => .holding 2641 1
  | inverter => .holding 1056 1

def instantBlock : Service → Block
  | grid => .holding 2600 22
  | inverter => .holding 1027 12

def instantData : Service → InstantData
  | grid =>
    { voltage := (⟨16, 18, 20⟩ : PerLine Nat).map (datum16 (.unsigned 10))
      current := (⟨17, 19, 21⟩ : PerLine Nat).map (datum16 (.signed 10))
      power := (⟨0, 1, 2⟩ : PerLine Nat).map (datum16 (.signed 1)) }
  | inverter =>
    { voltage := (⟨0, 4, 8⟩ : PerLine Nat).map (datum16 (.unsigned 10))
      current := (⟨1, 5, 9⟩ : PerLine Nat).map (datum16 (.signed 10))
      power := (⟨2, 6, 10⟩ : PerLine Nat).map (datum16 (.unsigned 1)) }

def totalsBlock : Service → Block
  | grid => .holding 2622 16
  | inverter => .holding 1046 6

end Service

/-- Power, voltage, current and state of charge of a battery. -/
def batteryBlock : Block := .holding 258 9

/-- The state of health, which not every battery reports. -/
def healthBlock : Block := .holding 304 1

section

variable {K : Type} [Quantity K]

/-- A counter of two registers, in hundredths of a kWh. -/
def counter (index : Nat) : Datum K := ⟨index, .w32, .unsigned 100⟩

def phaseCounters : PerLine (Datum K) := (⟨0, 2, 4⟩ : PerLine Nat).map counter

/-- The import counter of a grid meter. -/
def importTotal (e : Encoding) (registers : List UInt16) : K := (counter 12).read e registers

/-- The export counter of a grid meter. -/
def exportTotal (e : Encoding) (registers : List UInt16) : K := (counter 14).read e registers

/-- What an inverter yields is energy provided. -/
def inverterUsage (e : Encoding) (phases : List Nat) (registers : List UInt16) : Usage K :=
  phases.foldl (fun (u : Usage K) phase =>
    { u with provided := u.provided.set phase (phaseValue phaseCounters e registers phase) }) .zero

/-- A grid meter counts import per phase and export in total, of which each phase gets its share. -/
def gridUsage (e : Encoding) (phases : List Nat) (registers : List UInt16) : Usage K :=
  let share := splitEvenly (exportTotal e registers) phases
  let u := phases.foldl (fun (u : Usage K) phase =>
    { u with
      consumed := u.consumed.set phase (phaseValue phaseCounters e registers phase)
      provided := u.provided.set phase share }) .zero
  { u with setConsumed := importTotal e registers, setProvided := exportTotal e registers }

def usageOf (service : Service) (e : Encoding) (phases : List Nat) (registers : List UInt16) :
    Usage K :=
  match service with
  | .grid => gridUsage e phases registers
  | .inverter => inverterUsage e phases registers

end

/-- The values of a battery; a state of health that was not reported counts as zero. -/
def batteryOf (e : Encoding) (registers : List UInt16) (health : Option (List UInt16)) :
    BatteryState :=
  let value (decoder : Decoder Float) (index : Nat) : Float32 :=
    Decimal.Binary.singleOfDouble ((datum16 decoder index).read e registers)
  { power := value (.signed 1) 0
    voltage := value (.unsigned 100) 1
    current := value (.signed 10) 3
    stateOfCharge := value (.unsigned 10) 8
    stateOfHealth := match health with
      | some rs => Decimal.Binary.singleOfDouble ((datum16 (.unsigned 10) 0).read e rs)
      | none => 0 }

/-! ## Talking to the device -/

variable {K : Type} [Quantity K]

/-- Finds out whether a GX is behind a link. None of them is a charger. -/
def probe (link : Link) (setup : Setup) : Job (Except MeterError (Victron K)) :=
  if setup.role = .evCharger then return .error (.notRecognized .victron)
  else do
    match ← readBlock link.client systemUnit systemSerialBlock with
    | .error e => return .error (.bus e)
    | .ok registers =>
      let systemSerial := asciiText registers
      if systemSerial.isEmpty then return .error (.notRecognized .victron)
      else
        let meter : Victron K :=
          { link, setup, systemSerial, serviceSerial := "", isIdentified := false
            phaseCount := none, cache := .empty }
        return .ok meter

def service (m : Victron K) : Service := .of m.setup.role

/-- Whether the service counts a single phase. -/
def isSinglePhase (m : Victron K) : Bool := m.phaseCount == some 1

def phases (m : Victron K) : List Nat := devicePhases m.setup.lines m.isSinglePhase

/-- Reads serial number and number of phases of the service. Without an answer to the first the
next poll tries again; not every service tells the second. -/
def identify (m : Victron K) : Job (Victron K) := do
  match ← m.link.read m.service.serialBlock with
  | .error _ => return m
  | .ok registers =>
    let m := { m with serviceSerial := asciiText registers, isIdentified := true }
    match ← m.link.read m.service.phaseCountBlock with
    | .ok registers => return { m with phaseCount := some (registers.headD 0) }
    | .error _ => return m

def readInstant (m : Victron K) : Job (Except BusError State) := do
  let registers ← m.link.read m.service.instantBlock
  return registers.map (m.service.instantData.stateOf m.link.encoding asReported m.phases)

def readTotals (m : Victron K) : Job (Except BusError (Usage K)) := do
  let registers ← m.link.read m.service.totalsBlock
  return registers.map (usageOf m.service m.link.encoding m.phases)

def readBattery (m : Victron K) : Job (Except BusError BatteryState) := do
  match ← m.link.read batteryBlock with
  | .error e => return .error e
  | .ok registers =>
    let health ← m.link.read healthBlock
    return .ok (batteryOf m.link.encoding registers health.toOption)

def model (m : Victron K) : String :=
  "GX " ++ m.setup.role.name ++ " (" ++ m.systemSerial ++ ")"

/-- The serial number of the service, or of the GX. -/
def serial (m : Victron K) : String :=
  if m.serviceSerial.isEmpty then m.systemSerial else m.serviceSerial

/-- Polls a battery and writes its values, whatever lines and attributes are set up. -/
def updateBattery (m : Victron K) (r : Readings K) : Job (Bool × Readings K × Victron K) := do
  let answer ← m.readBattery
  let (changed, cache) := match answer with
    | .ok battery => m.cache.storeBattery battery
    | .error _ => (false, m.cache)
  return (changed, { r with battery := cache.battery }, { m with cache })

def update (now : Instant) (m : Victron K) (r : Readings K) :
    Job (Bool × Readings K × Victron K) :=
  if m.setup.role = .battery then m.updateBattery r
  else do
    let m ← if m.setup.has .state && !m.isIdentified then m.identify else pure m
    let (changed, cache) ← poll m.setup now m.cache m.readInstant m.readTotals
    return (changed, cache.fill m.setup m.isSinglePhase r, { m with cache })

end Victron

end HomeMetering.Meter
