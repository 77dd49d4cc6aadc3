import HomeMetering.Decimal.Shortest

/-!
# Plausibility

Physical bounds of measured values. A reading outside of them is reported, never changed.
-/

namespace HomeMetering

/-- Why a value cannot be a measurement. -/
inductive Implausible where
  | negative (field : String) (value : Float)
  | notFinite (field : String)

namespace Implausible

def message : Implausible → String
  | negative field value =>
    field ++ " must not be negative, got " ++ Decimal.plainDouble value
  | notFinite field => field ++ " is not a finite number"

end Implausible

/-- Fails unless the value is a finite number. -/
def checkFinite (field : String) (value : Float) : Except Implausible Unit :=
  if value.isFinite then .ok () else .error (.notFinite field)

/-- Fails unless the value is a finite number that is not below zero. -/
def checkNonNegative (field : String) (value : Float) : Except Implausible Unit :=
  if !value.isFinite then .error (.notFinite field)
  else if value < 0.0 then .error (.negative field value)
  else .ok ()

end HomeMetering
