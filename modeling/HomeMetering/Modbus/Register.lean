import HomeMetering.Quantity
import HomeMetering.Text.Blank
import HomeMetering.Text.Utf8

/-!
# Registers

Devices keep values in 16-bit registers. An encoding says in which order the bytes of a register and
the registers of a value stand, a decoder turns the integer into a measurement.
-/

namespace HomeMetering.Modbus

/-- The two banks of 16-bit registers. -/
inductive Bank where
  | holding
  | input
  deriving Repr, DecidableEq

/-- The bank that a document names. -/
def Bank.ofTitle? (text : String) : Option Bank :=
  if text = "Holding" then some .holding
  else if text = "Input" then some .input
  else none

/-- The name of a bank in documents. -/
def Bank.title : Bank → String
  | holding => "Holding"
  | input => "Input"

/-- Order of the bytes in a register. -/
inductive ByteOrder where
  | bigEndian
  | littleEndian
  deriving Repr, DecidableEq

/-- Order of the registers of a value. -/
inductive WordOrder where
  | highFirst
  | lowFirst
  deriving Repr, DecidableEq

/-- How values are laid out in registers. -/
structure Encoding where
  bytes : ByteOrder
  words : WordOrder
  deriving Repr, DecidableEq

namespace Encoding

/-- Everything most significant first. -/
def bigEndian : Encoding := ⟨.bigEndian, .highFirst⟩

/-- The least significant register first, each with its high byte first. -/
def lowWordFirst : Encoding := ⟨.bigEndian, .lowFirst⟩

/-- The number in one register. -/
def word (e : Encoding) (register : UInt16) : UInt16 :=
  match e.bytes with
  | .bigEndian => register
  | .littleEndian => register <<< 8 ||| register >>> 8

/-- The registers of a value, most significant first. -/
def significant (e : Encoding) (registers : List UInt16) : List UInt16 :=
  match e.words with
  | .highFirst => registers
  | .lowFirst => registers.reverse

/-- The value in `count` registers from `index` on, if they are all there. -/
def join? (e : Encoding) (registers : List UInt16) (index count : Nat) : Option UInt64 :=
  if index + count ≤ registers.length then
    let words := e.significant ((registers.drop index).take count)
    some (words.foldl (fun v w => v <<< 16 ||| (e.word w).toUInt64) 0)
  else none

/-- The 16-bit number at a place. -/
def u16At? (e : Encoding) (registers : List UInt16) (index : Nat) : Option UInt16 :=
  (e.join? registers index 1).map UInt64.toUInt16

def u32At? (e : Encoding) (registers : List UInt16) (index : Nat) : Option UInt32 :=
  (e.join? registers index 2).map UInt64.toUInt32

def u64At? (e : Encoding) (registers : List UInt16) (index : Nat) : Option UInt64 :=
  e.join? registers index 4

def i16At? (e : Encoding) (registers : List UInt16) (index : Nat) : Option Int16 :=
  (e.u16At? registers index).map UInt16.toInt16

def i32At? (e : Encoding) (registers : List UInt16) (index : Nat) : Option Int32 :=
  (e.u32At? registers index).map UInt32.toInt32

end Encoding

/-- The size of a value. -/
inductive Width where
  | w16
  | w32
  | w64
  deriving Repr, DecidableEq

namespace Width

/-- Registers that a value takes. -/
def registers : Width → Nat
  | w16 => 1
  | w32 => 2
  | w64 => 4

/-- Bits that a value does not use of 64. -/
def spareBits : Width → UInt64
  | w16 => 48
  | w32 => 32
  | w64 => 0

end Width

/-- A fixed point conversion: the integer divided by `scale`, plus `offset`. -/
structure Decoder (K : Type) where
  scale : K
  offset : K
  isSigned : Bool
  deriving Repr

namespace Decoder

variable {K : Type} [Quantity K]

/-- Non-negative integers, `scale` of them to a unit. -/
def unsigned (scale : Int) : Decoder K := ⟨Quantity.ofInt scale, Quantity.zero, false⟩

/-- Signed integers, `scale` of them to a unit. -/
def signed (scale : Int) : Decoder K := ⟨Quantity.ofInt scale, Quantity.zero, true⟩

/-- The integer that a raw value stands for: a signed one has its sign in the highest bit of its
width, an unsigned one uses every bit. -/
def integer (d : Decoder K) (raw : UInt64) (width : Width) : Int :=
  if d.isSigned then
    ((raw <<< width.spareBits).toInt64 >>> width.spareBits.toInt64).toInt
  else raw.toNat

/-- The measurement that a raw value stands for. -/
def decode (d : Decoder K) (raw : UInt64) (width : Width) : K :=
  Quantity.ofInt (d.integer raw width) / d.scale + d.offset

end Decoder

/-- A value inside a block of registers. -/
structure Datum (K : Type) where
  /-- Registers before it. -/
  index : Nat
  width : Width
  decoder : Decoder K
  deriving Repr

namespace Datum

variable {K : Type} [Quantity K]

/-- The raw value, if the block holds all of it. -/
def raw? (d : Datum K) (encoding : Encoding) (registers : List UInt16) : Option UInt64 :=
  match d.width with
  | .w16 => (encoding.u16At? registers d.index).map UInt16.toUInt64
  | .w32 => (encoding.u32At? registers d.index).map UInt32.toUInt64
  | .w64 => encoding.u64At? registers d.index

/-- The measurement, if the block holds all of it. -/
def read? (d : Datum K) (encoding : Encoding) (registers : List UInt16) : Option K :=
  (d.raw? encoding registers).map fun raw => d.decoder.decode raw d.width

/-- The measurement, zero when the block is too short. -/
def read (d : Datum K) (encoding : Encoding) (registers : List UInt16) : K :=
  (d.read? encoding registers).getD Quantity.zero

end Datum

/-- Registers that one request fetches. -/
structure Block where
  address : UInt16
  quantity : UInt16
  bank : Bank
  deriving Repr, DecidableEq

namespace Block

def holding (address quantity : UInt16) : Block := ⟨address, quantity, .holding⟩

def input (address quantity : UInt16) : Block := ⟨address, quantity, .input⟩

end Block

/-- The bytes of registers, high byte first. -/
def bytesOf (registers : List UInt16) : List UInt8 :=
  registers.flatMap fun (r : UInt16) => [(r >>> 8).toUInt8, r.toUInt8]

/-- The text in registers of two characters each, up to the first zero byte and without the blanks
around it. -/
def asciiText (registers : List UInt16) : String :=
  String.ofList (Text.trim (Text.Utf8.decodeLossy ((bytesOf registers).takeWhile (· != 0))))

end HomeMetering.Modbus
