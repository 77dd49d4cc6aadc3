import HomeMetering.Event.Basic

/-!
# Buses

A bus hands events of one kind to whoever registered for them. A registration may carry a filter;
it stands until it is taken back, and a second one of the same listener is refused.
-/

namespace HomeMetering

/-- What a listener wants to get. -/
abbrev Filter (ε : Type) := ε → Bool

namespace Filter

def source {α : Type} (name : String) (role : Role) : Filter (Event α) :=
  fun e => e.source == name && e.role == role

def role {α : Type} (role : Role) : Filter (Event α) := fun e => e.role == role

end Filter

/-- A listener registered a second time. -/
structure AlreadyRegistered where
  deriving Repr, DecidableEq

def AlreadyRegistered.message (_ : AlreadyRegistered) : String :=
  "listener is already registered, deregister it first"

/-- A bus of events `ε` with listeners known as `ι`. -/
structure Bus (ι ε : Type) where
  name : String
  /-- Listeners in order of registration; without a filter a listener wants everything. -/
  registrations : List (ι × Option (Filter ε))

namespace Bus

variable {ι ε : Type} [DecidableEq ι]

def new (name : String) : Bus ι ε := ⟨name, []⟩

def isRegistered (b : Bus ι ε) (i : ι) : Bool := b.registrations.any fun r => r.1 == i

def register (b : Bus ι ε) (i : ι) (filter : Option (Filter ε)) :
    Except AlreadyRegistered (Bus ι ε) :=
  if b.isRegistered i then .error ⟨⟩
  else .ok { b with registrations := b.registrations ++ [(i, filter)] }

/-- Takes a registration back, and tells whether there was one. -/
def deregister (b : Bus ι ε) (i : ι) : Bool × Bus ι ε :=
  (b.isRegistered i, { b with registrations := b.registrations.filter fun r => r.1 != i })

def count (b : Bus ι ε) : Nat := b.registrations.length

/-- Whether a filter lets an event through. -/
def accepts (filter : Option (Filter ε)) (e : ε) : Bool :=
  match filter with
  | some f => f e
  | none => true

/-- Hands an event out: how many deliveries were started, and which. -/
def trigger (b : Bus ι ε) (e : ε) : Nat × List (ι × ε) :=
  b.registrations.foldl
    (fun (started, out) r =>
      if accepts r.2 e then (started + 1, out ++ [(r.1, e)]) else (started, out))
    (0, [])

/-- The listeners that get an event. -/
def deliveries (b : Bus ι ε) (e : ε) : List ι := (b.trigger e).2.map Prod.fst

/-- Registers a listener for everything; one that is registered keeps what it has. -/
def attach (b : Bus ι ε) (i : ι) : Bus ι ε :=
  match b.register i none with
  | .ok b => b
  | .error _ => b

end Bus

/-- One bus for each family. -/
structure Buses (ι : Type) where
  electricity : Bus ι (Event (Family.Values .electricity))
  costs : Bus ι (Event (Family.Values .costs))
  gas : Bus ι (Event (Family.Values .gas))
  water : Bus ι (Event (Family.Values .water))
  battery : Bus ι (Event (Family.Values .battery))

namespace Buses

variable {ι : Type} [DecidableEq ι]

def new : Buses ι :=
  ⟨.new "electricity-meter", .new "electricity-costs", .new "gas-meter", .new "water-meter",
    .new "battery-meter"⟩

def attach (b : Buses ι) (i : ι) : Buses ι :=
  ⟨b.electricity.attach i, b.costs.attach i, b.gas.attach i, b.water.attach i, b.battery.attach i⟩

/-- The numbers of listeners, in order of the families. -/
def counts (b : Buses ι) : List Nat :=
  [b.electricity.count, b.costs.count, b.gas.count, b.water.count, b.battery.count]

def deliveries (b : Buses ι) : Occurrence → List ι
  | ⟨.electricity, e⟩ => b.electricity.deliveries e
  | ⟨.costs, e⟩ => b.costs.deliveries e
  | ⟨.gas, e⟩ => b.gas.deliveries e
  | ⟨.water, e⟩ => b.water.deliveries e
  | ⟨.battery, e⟩ => b.battery.deliveries e

end Buses

end HomeMetering
