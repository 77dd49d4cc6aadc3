import HomeMetering.Costs
import HomeMetering.Event.Bus
import HomeMetering.Overview
import HomeMetering.Source

/-!
# The monitor

Who listens to the events of the running program: the overview of the latest ones, and, where there
is a tariff, the biller, which turns readings of the grid into cost events.
-/

namespace HomeMetering

inductive Subscriber where
  | overview
  | biller
  deriving Repr, DecidableEq

structure Monitor where
  buses : Buses Subscriber
  overview : Overview
  biller : Option (Biller Float)

namespace Monitor

/-- Nobody listens. -/
def silent : Monitor := ⟨.new, .empty, none⟩

def attachOverview (m : Monitor) : Monitor := { m with buses := m.buses.attach .overview }

/-- Lets the biller listen to readings of the grid. -/
def attachBiller (m : Monitor) (tariff : Tariff Float) : Monitor :=
  match m.buses.electricity.register .biller (some (Filter.role .grid)) with
  | .ok electricity =>
    { m with buses := { m.buses with electricity }, biller := some (.new tariff) }
  | .error _ => m

def new (tariff : Option (Tariff Float)) : Monitor :=
  let m := silent.attachOverview
  match tariff with
  | some t => m.attachBiller t
  | none => m

/-- Bills a reading: the cost event it causes. -/
def bill (m : Monitor) (now : Instant) : Occurrence → Option Occurrence × Monitor
  | ⟨.electricity, e⟩ =>
    match m.biller with
    | some biller =>
      let (cost, biller) := biller.take now e
      (cost.map fun c => ⟨.costs, c⟩, { m with biller := some biller })
    | none => (none, m)
  | _ => (none, m)

/-- Hands an event to one listener. -/
def deliver (m : Monitor) (now : Instant) (o : Occurrence) :
    Subscriber → Option Occurrence × Monitor
  | .overview => (none, { m with overview := m.overview.keep o })
  | .biller => m.bill now o

/-- Hands an event to some listeners: the events they cause. -/
def deliverAll (m : Monitor) (now : Instant) (o : Occurrence) :
    List Subscriber → List Occurrence × Monitor
  | [] => ([], m)
  | s :: rest =>
    let (caused, m) := m.deliver now o s
    let (others, m) := m.deliverAll now o rest
    (caused.toList ++ others, m)

/-- Hands an event to everybody who wants it: the events they cause. -/
def trigger (m : Monitor) (now : Instant) (o : Occurrence) : List Occurrence × Monitor :=
  m.deliverAll now o (m.buses.deliveries o)

/-- Publishes an event and what it causes: everything that was published. Cost events cause nothing
further. -/
def publish (m : Monitor) (now : Instant) (o : Occurrence) : List Occurrence × Monitor :=
  let (caused, m) := m.trigger now o
  (o :: caused, caused.foldl (fun m c => (m.trigger now c).2) m)

/-- Publishes events one after the other: everything that was published. -/
def publishAll (m : Monitor) (now : Instant) : List Occurrence → List Occurrence × Monitor
  | [] => ([], m)
  | o :: rest =>
    let (published, m) := m.publish now o
    let (others, m) := m.publishAll now rest
    (published ++ others, m)

end Monitor

end HomeMetering
