import HomeMetering.Modbus.Error
import HomeMetering.Text.Lines

/-!
# Connect addresses

Where a bus lives: `tcp://host`, `rtuovertcp://host` for a gateway that passes serial frames, or
`rtu://device`. A network address without a port means port 502.
-/

namespace HomeMetering.Modbus

inductive ConnectUrl where
  | tcp (target : String)
  | rtuOverTcp (target : String)
  | rtu (device : String)
  deriving Repr, DecidableEq

namespace ConnectUrl

def withPort (host : String) : String :=
  if host.toList.contains ':' then host else host ++ ":502"

/-- The place that an address names; an address has a known scheme and something after it. -/
def parse (url : String) : Except BusError ConnectUrl :=
  match Text.dropPrefix? "tcp://" url with
  | some host => if host.isEmpty then .error (.invalidUrl url) else .ok (.tcp (withPort host))
  | none =>
    match Text.dropPrefix? "rtuovertcp://" url with
    | some host =>
      if host.isEmpty then .error (.invalidUrl url) else .ok (.rtuOverTcp (withPort host))
    | none =>
      match Text.dropPrefix? "rtu://" url with
      | some device => if device.isEmpty then .error (.invalidUrl url) else .ok (.rtu device)
      | none => .error (.invalidUrl url)

def isSerial : ConnectUrl → Bool
  | rtu _ => true
  | _ => false

/-- What stands after the scheme, ports filled in. -/
def target : ConnectUrl → String
  | tcp t => t
  | rtuOverTcp t => t
  | rtu d => d

def title : ConnectUrl → String
  | tcp _ => "Tcp"
  | rtuOverTcp _ => "RtuOverTcp"
  | rtu _ => "Rtu"

end ConnectUrl

end HomeMetering.Modbus
