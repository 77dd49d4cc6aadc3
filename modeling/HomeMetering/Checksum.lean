/-!
# Cyclic redundancy checks

The 16-bit check of the polynomial `x¹⁶ + x¹⁵ + x² + 1`, least significant bit first. Telegrams
start it at zero, frames on a serial bus at all ones.
-/

namespace HomeMetering.Checksum

/-- One bit: the divisor is taken off when a one falls out. -/
def shift (crc : UInt16) : UInt16 :=
  if crc &&& 1 = 1 then (crc >>> 1) ^^^ 0xA001 else crc >>> 1

def step (crc : UInt16) (b : UInt8) : UInt16 :=
  Nat.repeat shift 8 (crc ^^^ b.toUInt16)

def ofBytes (start : UInt16) (bs : List UInt8) : UInt16 := bs.foldl step start

/-- The check of a telegram. -/
def arc (bs : List UInt8) : UInt16 := ofBytes 0 bs

/-- The check of a frame on a serial bus. -/
def modbus (bs : List UInt8) : UInt16 := ofBytes 0xFFFF bs

theorem ofBytes_append (start : UInt16) (a b : List UInt8) :
    ofBytes start (a ++ b) = ofBytes (ofBytes start a) b := List.foldl_append

end HomeMetering.Checksum
