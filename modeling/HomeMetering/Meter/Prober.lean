import HomeMetering.Meter
import HomeMetering.Modbus.ConnectUrl

/-!
# Finding out which meter is there

A slot names an address, and sometimes a brand and a rate. On a bus, rates are tried one by one, and
at each rate the brands in an order of preference; the first device that identifies itself is the
meter. A bus that is already open runs at its rate and is neither swept nor closed.
-/

namespace HomeMetering

open Site Site.Job Modbus

/-- A slot that a meter may be in. -/
structure Slot where
  connect : String
  transport : Transport
  /-- Without a brand, those that the transport allows are tried. -/
  brand : Option Brand
  unit : UInt8
  /-- Zero sweeps the usual rates of a serial line. -/
  baud : Nat
  setup : Setup
  deriving Repr, DecidableEq

/-- Rates of a serial line in the order in which they are tried. -/
def candidateRates : List Nat := [115200, 57600, 38400, 19200, 9600]

/-- Brands in the order in which they are tried on a bus. -/
def busBrands : List Brand := [.carloGavazzi, .abb, .victron]

namespace Slot

variable {K : Type} [Quantity K]

/-- How a brand lays registers out. -/
def encodingOf : Brand → Encoding
  | .carloGavazzi => Meter.CarloGavazzi.encoding
  | .abb => Meter.Abb.encoding
  | _ => Meter.Victron.encoding

def probeBrand (brand : Brand) (link : Link) (setup : Setup) :
    Job (Except MeterError (Meter K)) :=
  match brand with
  | .carloGavazzi => return (← Meter.CarloGavazzi.probe link setup).map .carloGavazzi
  | .abb => return (← Meter.Abb.probe link setup).map .abb
  | .victron => return (← Meter.Victron.probe link setup).map .victron
  | .dsmr => return .error (.notRecognized .dsmr)

/-- Looks for a meter of one brand with registers laid out in a given way, whatever else the slot
says. The bus stays open when there is none. -/
def probeAs (s : Slot) (brand : Brand) (encoding : Encoding) :
    Job (Except MeterError (Meter K)) := do
  match ← getOrOpen s.connect s.baud with
  | .error e => return .error (.bus e)
  | .ok (client, _) =>
    let found ← probeBrand brand ⟨client, s.connect, s.unit, s.baud, encoding, false⟩ s.setup
    if found.isOk then request (.lease s.connect)
    return found

/-- Leaves a warning in the log. -/
def warn (text : String) : Job Unit := request (.note .warning text)

/-- The rates that are tried. -/
def rates (s : Slot) (url : ConnectUrl) : Job (List Nat) :=
  if !url.isSerial then return [s.baud]
  else do
    match ← request (.cached s.connect) with
    | some client =>
      request (.lock client)
      let rate ← request (.rate client)
      request (.unlock client)
      if s.baud ≠ 0 ∧ s.baud ≠ rate then
        warn (s.connect ++ " unit " ++ toString s.unit.toNat ++ " is configured for " ++
          toString s.baud ++ " baud, but the bus is already open at " ++ toString rate ++ " baud")
      return [rate]
    | none => return if s.baud ≠ 0 then [s.baud] else candidateRates

/-- Tries brands one by one on an open bus; the meter that is found takes a lease. -/
def tryBrands (s : Slot) (client : ClientId) (baud : Nat) : List Brand → Job (Option (Meter K))
  | [] => return none
  | brand :: rest => do
    let link : Link := ⟨client, s.connect, s.unit, baud, encodingOf brand, false⟩
    match ← probeBrand brand link s.setup with
    | .ok meter =>
      request (.lease s.connect)
      return some meter
    | .error _ => s.tryBrands client baud rest

/-- Tries rates one by one; a bus that was opened for nothing is closed again. -/
def tryRates (s : Slot) (isSerial : Bool) (brands : List Brand) :
    List Nat → Job (Option (Meter K))
  | [] => return none
  | baud :: rest => do
    match ← getOrOpen s.connect baud with
    | .error _ => s.tryRates isSerial brands rest
    | .ok (client, wasOpen) =>
      match ← s.tryBrands client (if isSerial then baud else 0) brands with
      | some meter => return some meter
      | none =>
        if !wasOpen then removeUnused s.connect
        s.tryRates isSerial brands rest

def probeBus (s : Slot) : Job (Option (Meter K)) :=
  match ConnectUrl.parse s.connect with
  | .error e => do
    warn ("Cannot probe " ++ s.connect ++ ": " ++ e.message)
    return none
  | .ok url =>
    if s.brand = some .dsmr then do
      warn (s.connect ++ " is configured as DSMR but uses the modbus transport")
      return none
    else do
      let brands := (s.brand.map fun b => [b]).getD busBrands
      s.tryRates url.isSerial brands (← s.rates url)

/-- Tries the rates of a telegram port one by one. -/
def tryPort (s : Slot) (device : String) (timeout : Nat) : List Nat → Job (Option (Meter K))
  | [] => return none
  | baud :: rest => do
    match ← Meter.Dsmr.probe device baud s.setup timeout with
    | .ok meter => return some (.dsmr meter)
    | .error _ => s.tryPort device timeout rest

def probePort (s : Slot) (timeout : Nat) : Job (Option (Meter K)) :=
  if s.brand.isSome ∧ s.brand ≠ some .dsmr then do
    warn (s.connect ++ " uses the serial transport, only DSMR meters are supported there")
    return none
  else match ConnectUrl.parse s.connect with
    | .ok (.rtu device) =>
      s.tryPort device timeout (if s.baud = 0 then candidateRates else [s.baud])
    | _ => do
      warn ("Serial transport needs an rtu:// url, got " ++ s.connect)
      return none

/-- Looks for a meter; `timeout` is how many milliseconds a telegram may take. -/
def probe (s : Slot) (timeout : Nat) : Job (Option (Meter K)) := do
  let meter ← match s.transport with
    | .modbus => s.probeBus
    | .serial => s.probePort timeout
  if meter.isNone then
    warn ("No meter detected at " ++ s.connect ++ " unit " ++ toString s.unit.toNat ++
      ", slot stays empty")
  return meter

end Slot

end HomeMetering
