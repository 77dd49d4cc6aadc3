/-!
# Serial ports

How a serial line is set up. Buses have eight data bits without parity; smart meters of the older
kind, which talk at 9600 baud, have seven with even parity.
-/

namespace HomeMetering

/-- Bits of a character. -/
inductive DataBits where
  | seven
  | eight
  deriving Repr, DecidableEq

/-- The check bit of a character. -/
inductive Parity where
  | none
  | even
  deriving Repr, DecidableEq

/-- How a line is set up; a character always ends with one stop bit. -/
structure SerialPort where
  device : String
  baud : Nat
  dataBits : DataBits
  parity : Parity
  /-- Milliseconds that a transfer may take. -/
  timeout : Nat
  deriving Repr, DecidableEq

namespace SerialPort

def ofBus (device : String) (baud timeout : Nat) : SerialPort :=
  ⟨device, baud, .eight, .none, timeout⟩

def ofSmartMeter (device : String) (baud timeout : Nat) : SerialPort :=
  if baud = 9600 then ⟨device, baud, .seven, .even, timeout⟩ else ofBus device baud timeout

end SerialPort

end HomeMetering
