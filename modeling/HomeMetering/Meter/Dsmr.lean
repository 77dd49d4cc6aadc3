import HomeMetering.Meter.Error
import HomeMetering.Site.Job
import HomeMetering.Telegram.Values

/-!
# DSMR smart meters

A smart meter pushes a telegram every second, older ones every ten. A follower keeps the latest one;
a poll decodes it if it has not seen it yet.
-/

namespace HomeMetering.Meter

open Site Site.Job

structure Dsmr (K : Type) where
  device : String
  baud : Nat
  setup : Setup
  model : String
  serial : String
  port : PortId
  /-- The number of the telegram that was decoded last. -/
  seen : Nat
  gas : Volume
  water : Volume
  cache : Cache K

namespace Dsmr

variable {K : Type} [Quantity K]

def ofFirst (device : String) (baud : Nat) (setup : Setup) (port : PortId) (first : Telegram) :
    Dsmr K :=
  { device, baud, setup, port, model := first.model, serial := first.equipmentId?.getD "", seen := 0
    gas := .zero, water := .zero, cache := .empty }

/-- Waits for one telegram, then keeps reading in the background. -/
def probe (device : String) (baud : Nat) (setup : Setup) (timeout : Nat) :
    Job (Except MeterError (Dsmr K)) := do
  match ← request (.openPort device baud) with
  | .error failure => return .error (.io failure)
  | .ok port =>
    match ← request (.firstTelegram port timeout) with
    | none => return .error (.noTelegram timeout)
    | some (.rejected e) => return .error (.telegram e)
    | some (.failed failure) => return .error (.io failure)
    | some (.telegram first) =>
      request (.follow port first)
      return .ok (ofFirst device baud setup port first)

/-- Takes over what a telegram says, and tells whether the instant values changed. -/
def decode (m : Dsmr K) (t : Telegram) : Bool × Dsmr K :=
  let values : Telegram.Values K := t.values m.setup.lines
  let (changed, cache) := m.cache.storeState values.state
  (changed, { m with
    gas := values.gas, water := values.water, cache := { cache with usage := values.usage } })

/-- Takes over the latest telegram, if it is a new one. -/
def refresh (m : Dsmr K) (latest : Option (Nat × Telegram)) : Bool × Dsmr K :=
  match latest with
  | some (count, t) => if count = m.seen then (false, m) else { m with seen := count }.decode t
  | none => (false, m)

/-- Writes what is kept; volumes only when there are any. -/
def fill (m : Dsmr K) (r : Readings K) : Readings K :=
  let r := m.cache.fill m.setup false r
  if m.setup.has .usage then
    { r with
      gas := if m.gas.isZero then r.gas else m.gas
      water := if m.water.isZero then r.water else m.water }
  else r

def update (m : Dsmr K) (r : Readings K) : Job (Bool × Readings K × Dsmr K) := do
  let (changed, m) := m.refresh (← request (.latest m.port))
  return (changed, m.fill r, m)

end Dsmr

end HomeMetering.Meter
