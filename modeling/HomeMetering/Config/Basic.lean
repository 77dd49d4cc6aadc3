import HomeMetering.Costs
import HomeMetering.Meter.Prober
import HomeMetering.Modbus.ConnectUrl
import HomeMetering.Mqtt

/-!
# Configurations

A configuration lists sources with the slots of their meters. It is legal when every source has a
name of its own, every slot can hold a meter, and no two slots of a source claim the same attribute
of the same line; batteries have no lines to claim. The first fault in the order of the document is
the one that is reported.
-/

namespace HomeMetering

structure SlotConfig where
  connect : String
  transport : Transport
  brand : Option Brand
  unit : Nat
  /-- Zero sweeps the usual rates. -/
  baud : Nat
  lines : List LineIndex
  attributes : List Attribute
  /-- Milliseconds between two polls. -/
  interval : Nat
  deriving Repr, DecidableEq

structure SourceConfig where
  name : String
  role : Role
  publish : PublishPolicy
  /-- Whether the program gives up when no meter of the source is found. -/
  isMandatory : Bool
  meters : List SlotConfig
  deriving Repr, DecidableEq

structure Config where
  /-- Milliseconds that a request may take while meters are looked for. -/
  probeTimeout : Nat
  sources : List SourceConfig
  costs : Option (Tariff Float)
  mqtt : Option Mqtt.Settings

/-- What is wrong with a slot. -/
inductive SlotFault where
  | lineOutOfRange (line : LineIndex)
  | lineTwice (line : LineIndex)
  | noLines
  | noAttributes
  | zeroInterval
  | badUrl (e : Modbus.BusError)
  | unitOutOfRange (unit : Nat)
  | smartMeterOnBus
  | serialNeedsDevice
  | onlySmartMeters
  deriving Repr, DecidableEq

def SlotFault.message (connect : String) : SlotFault → String
  | lineOutOfRange line => connect ++ ": line index " ++ toString line ++ " is out of range"
  | lineTwice line => connect ++ ": line index " ++ toString line ++ " is listed twice"
  | noLines => connect ++ ": at least one line index is needed"
  | noAttributes => connect ++ ": no attributes selected"
  | zeroInterval => connect ++ ": update interval must not be 0"
  | badUrl e => e.message
  | unitOutOfRange unit => connect ++ ": unit id " ++ toString unit ++ " is outside 1..=247"
  | smartMeterOnBus => connect ++ ": DSMR meters need the serial transport"
  | serialNeedsDevice => connect ++ ": the serial transport needs an rtu:// url"
  | onlySmartMeters => connect ++ ": only DSMR meters use the serial transport"

/-- What is wrong with a configuration. -/
inductive ConfigFault where
  | slot (source connect : String) (fault : SlotFault)
  | claimedTwice (source : String) (line : LineIndex) (claimed : Attribute)
  | duplicateSource (source : String)
  deriving Repr, DecidableEq

def ConfigFault.message : ConfigFault → String
  | slot source connect fault => "source " ++ source ++ ": " ++ fault.message connect
  | claimedTwice source line claimed =>
    "source " ++ source ++ ": line " ++ toString line ++ " is claimed twice for " ++
      claimed.title
  | duplicateSource source => "source name " ++ source ++ " is used more than once"

/-- The first element that stands in a list, or before itself. -/
def firstRepeated? {α : Type} [DecidableEq α] (seen : List α) : List α → Option α
  | [] => none
  | a :: rest => if a ∈ seen then some a else firstRepeated? (a :: seen) rest

namespace SlotConfig

/-- The first line that does not exist or is listed twice. -/
def lineFault? (seen : List LineIndex) : List LineIndex → Option SlotFault
  | [] => none
  | line :: rest =>
    if lineCount ≤ line then some (.lineOutOfRange line)
    else if line ∈ seen then some (.lineTwice line)
    else lineFault? (line :: seen) rest

/-- What the transport does not allow. -/
def transportFault? (s : SlotConfig) (url : Modbus.ConnectUrl) : Option SlotFault :=
  match s.transport with
  | .modbus =>
    if s.unit < 1 ∨ 247 < s.unit then some (.unitOutOfRange s.unit)
    else if s.brand = some .dsmr then some .smartMeterOnBus
    else none
  | .serial =>
    if !url.isSerial then some .serialNeedsDevice
    else if s.brand.isSome ∧ s.brand ≠ some .dsmr then some .onlySmartMeters
    else none

/-- The first fault of a slot in a source of a role. -/
def fault? (role : Role) (s : SlotConfig) : Option SlotFault :=
  match lineFault? [] s.lines with
  | some fault => some fault
  | none =>
    if s.lines.isEmpty ∧ role ≠ .battery then some .noLines
    else if s.attributes.isEmpty then some .noAttributes
    else if s.interval = 0 then some .zeroInterval
    else match Modbus.ConnectUrl.parse s.connect with
      | .error e => some (.badUrl e)
      | .ok url => s.transportFault? url

def claims (s : SlotConfig) : List (Attribute × LineIndex) :=
  s.attributes.flatMap fun a => s.lines.map fun line => (a, line)

/-- The slot as it is probed. -/
def slot (s : SlotConfig) (role : Role) : Slot :=
  ⟨s.connect, s.transport, s.brand, s.unit.toUInt8, s.baud,
    ⟨role, s.lines, s.attributes, s.interval⟩⟩

end SlotConfig

namespace SourceConfig

/-- The first fault of some slots, given what the slots before them claim. -/
def slotsFault? (s : SourceConfig) (claimed : List (Attribute × LineIndex)) :
    List SlotConfig → Option ConfigFault
  | [] => none
  | slot :: rest =>
    match slot.fault? s.role with
    | some fault => some (.slot s.name slot.connect fault)
    | none =>
      if s.role = .battery then s.slotsFault? claimed rest
      else match firstRepeated? claimed slot.claims with
        | some (a, line) => some (.claimedTwice s.name line a)
        | none => s.slotsFault? (slot.claims ++ claimed) rest

def fault? (s : SourceConfig) : Option ConfigFault := s.slotsFault? [] s.meters

end SourceConfig

namespace Config

/-- The first fault of some sources, given the names of the sources before them. -/
def sourcesFault? (names : List String) : List SourceConfig → Option ConfigFault
  | [] => none
  | s :: rest =>
    if s.name ∈ names then some (.duplicateSource s.name)
    else match s.fault? with
      | some fault => some fault
      | none => sourcesFault? (s.name :: names) rest

/-- Accepts a configuration without faults. -/
def validate (c : Config) : Except ConfigFault Unit :=
  match sourcesFault? [] c.sources with
  | some fault => .error fault
  | none => .ok ()

end Config

end HomeMetering
