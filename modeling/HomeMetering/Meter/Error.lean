import HomeMetering.Modbus.Error
import HomeMetering.Naming
import HomeMetering.Telegram.Basic
import HomeMetering.Time

/-!
# Errors of meters
-/

namespace HomeMetering

/-- Why a meter was not found. -/
inductive MeterError where
  | bus (e : Modbus.BusError)
  | notRecognized (brand : Brand)
  | unsupportedModel (brand : Brand) (model : String)
  /-- A meter could not be switched over to the registers that are read from it. -/
  | notSwitched (e : Modbus.BusError)
  | telegram (e : TelegramError)
  | io (failure : IoFailure)
  /-- Nothing came within so many milliseconds. -/
  | noTelegram (timeout : Nat)
  deriving Repr, DecidableEq

def MeterError.message : MeterError → String
  | bus e => "modbus error: " ++ e.message
  | notRecognized brand => "device is not a " ++ brand.name ++ " meter"
  | unsupportedModel brand model => "unsupported " ++ brand.name ++ " model " ++ model
  | notSwitched e => "initialization failed: could not set application H: " ++ e.message
  | telegram e => "telegram error: " ++ e.message
  | io failure => "I/O error: " ++ failure.message
  | noTelegram timeout => "no telegram received within " ++ spanText timeout

end HomeMetering
