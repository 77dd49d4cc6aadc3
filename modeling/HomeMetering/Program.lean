import HomeMetering.Config.Document
import HomeMetering.Monitor
import HomeMetering.Site.Basic

/-!
# The program

The program reads its configuration, looks for the meter of every slot, and starts the sources that
have any. It gives up when the configuration is no good, or when a mandatory source has no meter.
-/

namespace HomeMetering.Program

open Site Site.Job

/-- Milliseconds that a telegram may take; meters send one every ten seconds at least. -/
def telegramTimeout : Nat := 11000

/-- Leaves a note in the log. -/
def note (severity : Severity) (text : String) : Job Unit := request (.note severity text)

/-- Looks for the meters of some slots. -/
def findMeters (role : Role) : List SlotConfig → Job (List (Meter Float))
  | [] => return []
  | slot :: rest => do
    let found ← (slot.slot role).probe telegramTimeout
    let meters ← findMeters role rest
    return found.toList ++ meters

/-- Looks for the meters of some sources. A source without meters is left out; a mandatory one ends
the search. -/
def findSources : List SourceConfig → Job (Option (List (Source Float)))
  | [] => return some []
  | s :: rest => do
    let meters ← findMeters s.role s.meters
    if meters.isEmpty then
      if s.isMandatory then
        note .error ("No meter of mandatory source " ++ s.name ++ " was detected, giving up")
        return none
      else
        note .warning ("No meter of source " ++ s.name ++ " was detected, skipping it")
        findSources rest
    else
      let source := Source.new s.name s.role s.publish meters
      return (← findSources rest).map fun sources => source :: sources

/-- The program once everything is started. -/
structure Running where
  sources : List (Source Float)
  monitor : Monitor
  broker : Option Mqtt.Settings

/-- Starts the program, if it can be started. -/
def start (config : Except ConfigError Config) : Job (Option Running) :=
  match config with
  | .error e => do
    note .error e.message
    return none
  | .ok c => do
    let sources ← findSources c.sources
    return sources.map fun sources => ⟨sources, .new c.costs, c.mqtt⟩

/-- The code that the program ends with. -/
def exitCode (running : Option Running) : Nat := if running.isSome then 0 else 1

def severityName : Severity → String
  | .warning => "WARN"
  | .error => "ERROR"

/-- What opening a bus meets where nothing is installed: no network, and no serial device. -/
def nothingInstalled : Absence where
  bus url := match Modbus.ConnectUrl.parse url with
    | .error e => e
    | .ok parsed => if parsed.isSerial then .port "No such file or directory" else .io .unreachable
  port := .other "No such file or directory"

end HomeMetering.Program
