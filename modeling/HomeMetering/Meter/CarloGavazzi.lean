import HomeMetering.Meter.Error
import HomeMetering.Meter.Poll

/-!
# Carlo Gavazzi energy analyzers

EM24, EM3xx and EM1xx answer with values of two registers, the low one first. An EM24 shows the
registers read here only in its application H, and is switched over to it unless its front selector
is locked. Several models report the magnitude of a current and leave its direction to the power.
-/

namespace HomeMetering.Meter

open Electricity Modbus Site

/-- A family of analyzers. -/
inductive CarloGavazzi.Family where
  | em24
  | em3xx
  | em1xx
  deriving Repr, DecidableEq

structure CarloGavazzi (K : Type) where
  link : Link
  setup : Setup
  family : CarloGavazzi.Family
  modelId : UInt16
  serial : String
  cache : Cache K

namespace CarloGavazzi

namespace Family

def name : Family → String
  | em24 => "EM24"
  | em3xx => "EM3xx"
  | em1xx => "EM1xx"

/-- The model numbers of three-phase analyzers. -/
def threePhaseModels : List Nat := [330, 331, 332, 335, 336, 340, 341, 345, 346, 347]

/-- The model numbers of single-phase analyzers beyond 100 to 105. -/
def singlePhaseModels : List Nat := [120, 121]

/-- The family with a model number. -/
def ofModelId? (id : Nat) : Option Family :=
  if 1648 ≤ id ∧ id ≤ 1653 then some em24
  else if id ∈ threePhaseModels then some em3xx
  else if (100 ≤ id ∧ id ≤ 105) ∨ id ∈ singlePhaseModels then some em1xx
  else none

def isSinglePhase (f : Family) : Bool := f == em1xx

end Family

/-! ## Registers -/

/-- How the registers are laid out. -/
def encoding : Encoding := .lowWordFirst

def modelBlock : Block := .holding 0x000B 1

def serialBlock : Block := .holding 0x5000 7

/-- The application that an EM24 runs. -/
def applicationAddress : UInt16 := 0x1101

/-- The position of the selector on the front. -/
def selectorAddress : UInt16 := 0x0304

/-- The application that shows every register. -/
def applicationH : UInt16 := 7

/-- The position that locks the application. -/
def selectorLocked : UInt16 := 3

/-- A value of two registers. -/
def datum32 {K : Type} (decoder : Decoder K) (index : Nat) : Datum K := ⟨index, .w32, decoder⟩

/-- Where the counters stand. -/
structure CounterData (K : Type) where
  block : Block
  /-- The consumed energy of the device, where it is not that of its only phase. -/
  consumedTotal : Option (Datum K)
  consumed : PerLine (Option (Datum K))
  providedTotal : Datum K

variable {K : Type} [Quantity K]

/-- Where a family keeps its instant values. -/
def instantBlock (singlePhase : Bool) : Block :=
  if singlePhase then .holding 0x0000 0x06 else .holding 0x0000 0x18

def instantData (singlePhase : Bool) : InstantData :=
  let voltage := datum32 (.signed 10)
  let current := datum32 (.unsigned 1000)
  let power := datum32 (.signed 10)
  if singlePhase then
    ⟨.const (voltage 0x00), .const (current 0x02), .const (power 0x04)⟩
  else
    ⟨⟨voltage 0x00, voltage 0x02, voltage 0x04⟩, ⟨current 0x0C, current 0x0E, current 0x10⟩,
      ⟨power 0x12, power 0x14, power 0x16⟩⟩

def counterData (singlePhase : Bool) : CounterData K :=
  let counter := datum32 (.signed 10)
  if singlePhase then
    { block := .holding 0x0010 0x12, consumedTotal := none
      consumed := ⟨some (counter 0x00), none, none⟩, providedTotal := counter 0x10 }
  else
    { block := .holding 0x0034 0x1C, consumedTotal := some (counter 0x00)
      consumed := ⟨some (counter 0x0C), some (counter 0x0E), some (counter 0x10)⟩
      providedTotal := counter 0x1A }

/-- The current with the direction of the power. -/
def withSignOf (power current : Float32) : Float32 :=
  if power < 0 && current > 0 then -current else current

/-- The counters of one phase added. No phase has an export counter: each gets its share. -/
def addPhase (data : CounterData K) (e : Encoding) (phases : List Nat)
    (registers : List UInt16) (u : Usage K) (phase : Nat) : Usage K :=
  let consumed := match (data.consumed.get? phase).join with
    | some datum => u.consumed.set phase (datum.read e registers)
    | none => u.consumed
  let share := splitEvenly (data.providedTotal.read e registers) phases
  { u with consumed, provided := u.provided.set phase share }

def usageOf (data : CounterData K) (e : Encoding) (phases : List Nat)
    (registers : List UInt16) : Usage K :=
  let u := phases.foldl (addPhase data e phases registers) .zero
  match data.consumedTotal with
  | some datum =>
    { u with
      setConsumed := datum.read e registers
      setProvided := data.providedTotal.read e registers }
  | none => u

/-! ## Talking to the meter -/

/-- Reads one register. -/
def readOne (link : Link) (address : UInt16) : Job (Except BusError UInt16) := do
  let registers ← link.read (.holding address 1)
  return registers.map fun rs => rs.headD 0

/-- Switches an EM24 over to application H, unless it runs it or is locked. -/
def ensureApplicationH (link : Link) : Job (Except MeterError Unit) := do
  match ← readOne link applicationAddress with
  | .error e => return .error (.bus e)
  | .ok application =>
    if application = applicationH then return .ok ()
    else match ← readOne link selectorAddress with
      | .error e => return .error (.bus e)
      | .ok selector =>
        if selector = selectorLocked then return .ok ()
        else
          let written ← writeRegister link.client link.unit applicationAddress applicationH
          return written.mapError .notSwitched

/-- Identifies the device behind a link. A serial number that cannot be read stays empty. -/
def probe (link : Link) (setup : Setup) : Job (Except MeterError (CarloGavazzi K)) := do
  match ← link.read modelBlock with
  | .error e => return .error (.bus e)
  | .ok registers =>
    let modelId := registers.headD 0
    match Family.ofModelId? modelId.toNat with
    | none => return .error (.notRecognized .carloGavazzi)
    | some family =>
      let serial ← link.read serialBlock
      let meter : CarloGavazzi K :=
        { link, setup, family, modelId, cache := .empty
          serial := (serial.toOption.map asciiText).getD "" }
      if family = .em24 then
        let switched ← ensureApplicationH link
        return switched.map fun _ => meter
      else return .ok meter

def phases (m : CarloGavazzi K) : List Nat := devicePhases m.setup.lines m.family.isSinglePhase

def readInstant (m : CarloGavazzi K) : Job (Except BusError State) := do
  let single := m.family.isSinglePhase
  let registers ← m.link.read (instantBlock single)
  return registers.map ((instantData single).stateOf m.link.encoding withSignOf m.phases)

def readTotals (m : CarloGavazzi K) : Job (Except BusError (Usage K)) := do
  let data : CounterData K := counterData m.family.isSinglePhase
  let registers ← m.link.read data.block
  return registers.map (usageOf data m.link.encoding m.phases)

def model (m : CarloGavazzi K) : String :=
  m.family.name ++ " (" ++ toString m.modelId.toNat ++ ")"

def update (now : Instant) (m : CarloGavazzi K) (r : Readings K) :
    Job (Bool × Readings K × CarloGavazzi K) := do
  let (changed, cache) ← poll m.setup now m.cache m.readInstant m.readTotals
  return (changed, cache.fill m.setup m.family.isSinglePhase r, { m with cache })

end CarloGavazzi

end HomeMetering.Meter
