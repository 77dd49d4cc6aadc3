import HomeMetering.Config.Basic
import HomeMetering.Text.Utf8
import HomeMetering.Yaml.Typed

/-!
# Configurations as documents

The members of a configuration in a YAML text with their defaults, and where such a text is looked
for.
-/

namespace HomeMetering

open Yaml

/-- Why there is no configuration. -/
inductive ConfigError where
  | notFound
  | unreadable (path : String) (failure : IoFailure)
  /-- The text is no document of a configuration. -/
  | malformed
  | illegal (fault : ConfigFault)
  deriving Repr, DecidableEq

namespace Config

/-! ## Members -/

/-- Bounds of whole numbers by their number of bits. -/
def bound (bits : Nat) : Nat := Nat.pow 2 bits

def slot? (n : Node) : Option SlotConfig := do
  let f ← n.record? ["connect", "transport", "brand", "unit_id", "baud_rate", "line_indices",
    "attributes", "update_interval_ms"]
  return {
    connect := ← f.required? "connect" Node.text?
    transport := ← f.default? "transport" .modbus fun n => n.text?.bind Transport.ofName?
    brand := ← f.default? "brand" none (Node.option? fun n => n.text?.bind Brand.ofName?)
    unit := ← f.default? "unit_id" 1 (Node.natural? (bound 8))
    baud := ← f.default? "baud_rate" 0 (Node.natural? (bound 32))
    lines := ← f.default? "line_indices" [0, 1, 2] (Node.list? (Node.natural? (bound 64)))
    attributes := ← f.default? "attributes" [.state, .usage]
      (Node.list? fun n => n.text?.bind Attribute.ofName?)
    interval := ← f.default? "update_interval_ms" 1000 (Node.natural? (bound 64)) }

def source? (n : Node) : Option SourceConfig := do
  let f ← n.record? ["name", "role", "publish", "mandatory", "meters"]
  return {
    name := ← f.required? "name" Node.text?
    role := ← f.required? "role" fun n => n.text?.bind Role.ofTitle?
    publish := ← f.default? "publish" .always fun n => n.text?.bind PublishPolicy.ofName?
    isMandatory := ← f.default? "mandatory" false Node.flag?
    meters := ← f.required? "meters" (Node.list? slot?) }

def tariff? (n : Node) : Option (Tariff Float) := do
  let f ← n.record? ["import_price_per_kwh", "export_price_per_kwh"]
  return ⟨← f.required? "import_price_per_kwh" Node.double?,
    ← f.required? "export_price_per_kwh" Node.double?⟩

def broker? (n : Node) : Option Mqtt.Settings := do
  let f ← n.record? ["host", "port", "user", "pass", "client_name", "topic_prefix"]
  return {
    host := ← f.required? "host" Node.text?
    port := ← f.default? "port" 1883 (Node.natural? (bound 16))
    user := ← f.default? "user" "" Node.text?
    pass := ← f.default? "pass" "" Node.text?
    clientName := ← f.default? "client_name" "meterhub" Node.text?
    topicRoot := ← f.default? "topic_prefix" "meterhub" Node.text? }

def ofNode? (n : Node) : Option Config := do
  let f ← n.record? ["probe_timeout_ms", "sources", "costs", "mqtt"]
  return {
    probeTimeout := ← f.default? "probe_timeout_ms" 1000 (Node.natural? (bound 64))
    sources := ← f.default? "sources" [] (Node.list? source?)
    costs := ← f.optional? "costs" tariff?
    mqtt := ← f.optional? "mqtt" broker? }

/-- The legal configuration that a text describes. -/
def parse (text : List Char) : Except ConfigError Config :=
  match (Node.ofText? text).bind ofNode? with
  | none => .error .malformed
  | some c => (c.validate.map fun _ => c).mapError .illegal

/-! ## Files -/

/-- What reading a file gives. -/
abbrev Folder := String → Except IoFailure (List UInt8)

/-- Where a configuration is looked for, in this order. -/
def defaultPaths : List String := ["config/meterhub.yaml", "meterhub.yaml"]

def load (folder : Folder) (path : String) : Except ConfigError Config := do
  let bytes ← (folder path).mapError (.unreadable path)
  match Text.Utf8.decode? bytes with
  | none => .error (.unreadable path .notUtf8)
  | some text => parse text

/-- Whether reading a path fails because nothing is there. -/
def isMissing : Except IoFailure (List UInt8) → Bool
  | .error .notFound => true
  | .error .notADirectory => true
  | _ => false

/-- Reads a named configuration, or the first of the usual ones that exists. -/
def find (folder : Folder) (path : Option String) : Except ConfigError Config :=
  match path with
  | some p => load folder p
  | none =>
    match defaultPaths.find? fun p => !isMissing (folder p) with
    | some p => load folder p
    | none => .error .notFound

end Config

def ConfigError.message : ConfigError → String
  | notFound => "no configuration found, tried [" ++
      ", ".intercalate (Config.defaultPaths.map fun p => "\"" ++ p ++ "\"") ++ "]"
  | unreadable path failure => "unable to read " ++ path ++ ": " ++ failure.message
  | malformed => "unable to parse configuration"
  | illegal fault => fault.message

end HomeMetering
