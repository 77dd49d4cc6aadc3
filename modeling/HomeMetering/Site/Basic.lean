import HomeMetering.Modbus.ConnectUrl
import HomeMetering.Site.Device
import HomeMetering.Site.Job
import HomeMetering.Site.Port

/-!
# The site

Everything that jobs talk to: the buses with their devices, the telegram ports, the registry of
shared connections, and a journal of what happened on the hardware. `Site.answer` answers one
request, `Job.run` a whole job that nobody interrupts.
-/

namespace HomeMetering.Site

open Modbus

/-- A connection to a bus. -/
structure Client where
  url : String
  /-- The rate it was opened with. -/
  baud : Nat
  /-- The unit that requests go to. -/
  unit : UInt8
  isOpen : Bool
  /-- Whether a job keeps others from it. -/
  isLocked : Bool
  deriving Repr, DecidableEq

namespace Client

def new (url : String) (baud : Nat) : Client := ⟨url, baud, 1, true, false⟩

/-- The rate of the bus, zero on a network. -/
def rate (c : Client) : Nat :=
  match ConnectUrl.parse c.url with
  | .ok (.rtu _) => c.baud
  | _ => 0

end Client

/-- What happened on the hardware. -/
inductive Entry where
  | opened (url : String) (baud : Nat) (client : ClientId)
  | openFailed (url : String) (baud : Nat)
  | closed (client : ClientId)
  | read (client : ClientId) (unit : UInt8) (block : Block)
  | wrote (client : ClientId) (unit : UInt8) (address value : UInt16)
  | portOpened (device : String) (baud : Nat)
  deriving Repr, DecidableEq

/-- A line of the journal: holding registers are marked with an `h`, input registers with an `i`. -/
def Entry.text : Entry → String
  | opened url baud client => s!"open {url} {baud} #{client}"
  | openFailed url baud => s!"open {url} {baud} failed"
  | closed client => s!"close #{client}"
  | read client unit block =>
    let bank := match block.bank with
      | .holding => "h"
      | .input => "i"
    s!"read #{client} u{unit.toNat} {bank}{block.address.toNat}+{block.quantity.toNat}"
  | wrote client unit address value =>
    s!"write #{client} u{unit.toNat} {address.toNat}={value.toNat}"
  | portOpened device baud => s!"port {device} {baud}"

/-- What opening something that is not installed meets. -/
structure Absence where
  bus : String → BusError
  port : IoFailure

end HomeMetering.Site

namespace HomeMetering

open Modbus Site

/-- An installation. -/
structure Site where
  buses : List (String × Segment)
  /-- What every opening of a port delivers, by device and rate. -/
  streams : List (String × List (Nat × List Telegram.Delivery))
  absence : Absence
  registry : Registry
  /-- Every client that was ever opened, by number. -/
  clients : List Client
  /-- Every port that was ever opened, by number. -/
  ports : List Port
  /-- Milliseconds since the start. -/
  time : Nat
  /-- The latest entry first. -/
  journal : List Entry
  /-- The latest note first. -/
  notes : List (Severity × String)

namespace Site

def new (buses : List (String × Segment))
    (streams : List (String × List (Nat × List Telegram.Delivery))) (absence : Absence) : Site :=
  ⟨buses, streams, absence, .empty, [], [], 0, [], []⟩

def record (s : Site) (e : Entry) : Site := { s with journal := e :: s.journal }

def changeClient (s : Site) (i : ClientId) (f : Client → Client) : Site :=
  { s with clients := s.clients.modify i f }

def changePort (s : Site) (i : PortId) (f : Port → Port) : Site :=
  { s with ports := s.ports.modify i f }

def putBus (s : Site) (url : String) (l : Segment) : Site :=
  { s with buses := (url, l) :: s.buses.filter fun e => e.1 != url }

def changeBus (s : Site) (url : String) (f : Segment → Segment) : Site :=
  match s.buses.lookup url with
  | some bus => s.putBus url (f bus)
  | none => s

/-- Delivers more to the port of a device that was opened last. -/
def feed (s : Site) (device : String) (ds : List Telegram.Delivery) : Site :=
  match (s.ports.zipIdx.filter fun p => p.1.device == device).getLast? with
  | some (_, i) => s.changePort i fun p => p.deliver ds
  | none => s

def withRegistry (s : Site) (registry : Registry) : Site := { s with registry }

def connect (s : Site) (url : String) (baud : Nat) : Except BusError ClientId × Site :=
  match s.buses.lookup url with
  | none => (.error (s.absence.bus url), s.record (.openFailed url baud))
  | some line =>
    if line.openFailures.contains baud then (.error .timeout, s.record (.openFailed url baud))
    else
      let i := s.clients.length
      (.ok i, { s.record (.opened url baud i) with clients := s.clients ++ [.new url baud] })

/-- Closes a client, whatever the bus says to that. -/
def close (s : Site) (i : ClientId) : Except BusError Unit × Site :=
  match s.clients[i]? with
  | none => (.error .notConnected, s)
  | some c =>
    let failed := ((s.buses.lookup c.url).map Segment.closeFails).getD false
    (if failed then .error .timeout else .ok (),
      (s.changeClient i fun c => { c with isOpen := false }).record (.closed i))

/-- The device that a client's requests reach, and its bus. -/
def reach (s : Site) (c : Client) : Except BusError (Segment × Device) :=
  if !c.isOpen then .error .notConnected
  else match s.buses.lookup c.url with
    | none => .error .timeout
    | some line => (line.reach c.unit c.baud).map fun d => (line, d)

/-- Reads registers of the unit that is set. -/
def read (s : Site) (i : ClientId) (block : Block) : Except BusError (List UInt16) × Site :=
  match s.clients[i]? with
  | none => (.error .notConnected, s)
  | some c =>
    ((s.reach c).bind fun (_, d) => d.read block, s.record (.read i c.unit block))

/-- Writes a register of the unit that is set. -/
def write (s : Site) (i : ClientId) (address value : UInt16) : Except BusError Unit × Site :=
  match s.clients[i]? with
  | none => (.error .notConnected, s)
  | some c =>
    let s := s.record (.wrote i c.unit address value)
    match s.reach c with
    | .error e => (.error e, s)
    | .ok (line, d) =>
      match d.write address value with
      | .error e => (.error e, s)
      | .ok d => (.ok (), s.putBus c.url (line.put c.unit d))

/-- Opens a telegram port; at a rate at which nothing comes it stays silent. -/
def openPort (s : Site) (device : String) (baud : Nat) : Except IoFailure PortId × Site :=
  let s := s.record (.portOpened device baud)
  match s.streams.lookup device with
  | none => (.error s.absence.port, s)
  | some rates =>
    let port := Port.new device ((rates.lookup baud).getD [])
    (.ok s.ports.length, { s with ports := s.ports ++ [port] })

/-- Lets time pass. -/
def pass (s : Site) (millis : Nat) : Site :=
  let limit := s.time + millis
  { s with ports := s.ports.map fun p => p.advance s.time limit, time := limit }

/-- Waits for the first outcome of a port. -/
def firstTelegram (s : Site) (i : PortId) (timeout : Nat) : Option Telegram.Outcome × Site :=
  match s.ports[i]? with
  | none => (none, s)
  | some p =>
    match p.first with
    | (some outcome, p) => (some outcome, s.changePort i fun _ => p)
    | (none, p) => (none, (s.changePort i fun _ => p).pass timeout)

def stopFollower (p : Port) : Port :=
  { p with follower := p.follower.map fun f => { f with phase := .stopped } }

/-- The answer to a request, and the site after it. -/
def answer (s : Site) : (q : Request) → q.Answer × Site
  | .cached url => (s.registry.cached? url, s)
  | .adopt url client =>
    let (winner, registry) := s.registry.adopt url client
    (winner, s.withRegistry registry)
  | .evict url =>
    let (taken, registry) := s.registry.evict url
    (taken, s.withRegistry registry)
  | .lease url => ((), s.withRegistry (s.registry.lease url))
  | .giveBack url =>
    let (taken, registry) := s.registry.giveBack url
    (taken, s.withRegistry registry)
  | .connect url baud => s.connect url baud
  | .lock client => ((), s.changeClient client fun c => { c with isLocked := true })
  | .unlock client => ((), s.changeClient client fun c => { c with isLocked := false })
  | .select client unit => ((), s.changeClient client fun c => { c with unit })
  | .read client block => s.read client block
  | .write client address value => s.write client address value
  | .rate client => ((s.clients[client]?.map Client.rate).getD 0, s)
  | .close client => s.close client
  | .openPort device baud => s.openPort device baud
  | .firstTelegram port timeout => s.firstTelegram port timeout
  | .follow port first =>
    ((), s.changePort port fun p => { p with follower := some (.new first) })
  | .latest port =>
    (s.ports[port]?.bind fun p => p.follower.map fun f => (f.count, f.latest), s)
  | .unfollow port => ((), s.changePort port stopFollower)
  | .note severity text => ((), { s with notes := (severity, text) :: s.notes })

end Site

namespace Site.Job

variable {α β : Type}

/-- Runs a job that nobody interrupts. -/
def run : Job α → Site → α × Site
  | done a, s => (a, s)
  | ask q next, s =>
    let (answer, s) := s.answer q
    (next answer).run s

theorem run_bind (x : Job α) (f : α → Job β) (s : Site) :
    (x.bind f).run s = (f (x.run s).1).run (x.run s).2 := by
  induction x generalizing s with
  | done _ => rfl
  | ask q next ih => exact ih _ _

/-- Runs a job up to a request of some kind; what is left of it can go on later. -/
def runUntil (stop : Request → Bool) : Job α → Site → Job α × Site
  | done a, s => (done a, s)
  | ask q next, s =>
    if stop q then (ask q next, s)
    else
      let (answer, s) := s.answer q
      (next answer).runUntil stop s

/-- Whether a request waits for the hardware before it does anything. -/
def isOpening : Request → Bool
  | .connect _ _ => true
  | _ => false

/-- Runs two jobs at once: the second one begins when the first one waits for a connection to open,
and of two that wait the one that came last goes on first. -/
def runBoth (a : Job α) (b : Job β) (s : Site) : (α × β) × Site :=
  let (a, s) := a.runUntil isOpening s
  let (b, s) := b.runUntil isOpening s
  let (y, s) := b.run s
  let (x, s) := a.run s
  ((x, y), s)

end Site.Job

end HomeMetering
