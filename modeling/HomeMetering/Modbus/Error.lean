import HomeMetering.Failure

/-!
# Errors on a bus
-/

namespace HomeMetering.Modbus

/-- Why an exchange of frames failed although the bytes arrived. -/
inductive FrameError where
  | broken
  | checksum
  /-- The request does not fit into a frame. -/
  | outOfBounds
  /-- The device answered with an exception. -/
  | exception (code : UInt8)
  deriving Repr, DecidableEq

def exceptionName (code : UInt8) : String :=
  match code.toNat with
  | 1 => "IllegalFunction"
  | 2 => "IllegalDataAddress"
  | 3 => "IllegalDataValue"
  | 4 => "SlaveDeviceFailure"
  | 5 => "Acknowledge"
  | 6 => "SlaveDeviceBusy"
  | 7 => "NegativeAcknowledge"
  | 8 => "MemoryParityError"
  | 9 => "GatewayPathUnavailable"
  | 16 => "GatewayTargetFailed"
  | _ => "UnknownError"

def FrameError.name : FrameError → String
  | broken => "FrameBroken"
  | checksum => "FrameCRCError"
  | outOfBounds => "OOB"
  | exception code => exceptionName code

/-- Why a request on a bus failed. -/
inductive BusError where
  | invalidUrl (url : String)
  | notConnected
  | timeout
  | io (failure : IoFailure)
  | port (text : String)
  | frame (error : FrameError)
  | shortResponse (expected got : Nat)
  deriving Repr, DecidableEq

namespace BusError

def message : BusError → String
  | invalidUrl url => "invalid connect url " ++ url
  | notConnected => "client is not connected"
  | timeout => "request timed out"
  | io failure => "I/O error: " ++ failure.message
  | port text => "serial port error: " ++ text
  | frame error => "modbus protocol error: " ++ error.name
  | shortResponse expected got =>
    "device answered with " ++ toString got ++ " registers, expected " ++ toString expected

end BusError

end HomeMetering.Modbus
