import HomeMetering.Checksum
import HomeMetering.Modbus.Error
import HomeMetering.Modbus.Register

/-!
# Frames

A request travels in a frame: over TCP behind a header with a transaction and a length, over a
serial line followed by a checksum. The length of a response shows in its first bytes.
-/

namespace HomeMetering.Modbus

/-- How frames are delimited. -/
inductive Framing where
  | tcp
  | rtu
  deriving Repr, DecidableEq

/-- What a client asks a unit. -/
inductive Call where
  | read (block : Block)
  | write (address value : UInt16)
  | writeMany (address : UInt16) (values : List UInt16)
  deriving Repr, DecidableEq

namespace Call

def code : Call → UInt8
  | read block => match block.bank with
    | .holding => 3
    | .input => 4
  | write _ _ => 6
  | writeMany _ _ => 16

def body : Call → List UInt8
  | read block => bytesOf [block.address, block.quantity]
  | write address value => bytesOf [address, value]
  | writeMany address values =>
    bytesOf [address, values.length.toUInt16] ++ (2 * values.length).toUInt8 :: bytesOf values

/-- Most registers that one call writes. -/
def maxValues : Nat := 125

def fits (framing : Framing) (call : Call) : Bool :=
  match call with
  | writeMany _ values =>
    values.length ≤ maxValues && (framing == .tcp || 2 + call.body.length ≤ 255)
  | _ => true

end Call

namespace Framing

/-- The transaction of every request. -/
def transaction : UInt16 := 1

def request (framing : Framing) (unit : UInt8) (call : Call) : Except BusError (List UInt8) :=
  let payload := unit :: call.code :: call.body
  if !call.fits framing then .error (.frame .outOfBounds)
  else match framing with
    | .tcp => .ok (bytesOf [transaction, 0, payload.length.toUInt16] ++ payload)
    | .rtu => .ok (payload ++ checkBytes payload)
where
  /-- The checksum, low byte first. -/
  checkBytes (payload : List UInt8) : List UInt8 :=
    let crc := Checksum.modbus payload
    [crc.toUInt8, (crc >>> 8).toUInt8]

/-- Bytes of a response that tell its length. -/
def headLength : Framing → Nat
  | tcp => 6
  | rtu => 3

/-- The length of a whole response, from its first bytes. -/
def responseLength (framing : Framing) (head : List UInt8) : Except BusError Nat :=
  match framing, head with
  | .tcp, [_, _, p₁, p₀, n₁, n₀] =>
    let length := 6 + 256 * n₁.toNat + n₀.toNat
    if p₁ = 0 ∧ p₀ = 0 ∧ length ≤ 255 then .ok length else .error (.frame .broken)
  | .rtu, [_, code, count] =>
    if 1 ≤ code ∧ code ≤ 4 then
      if 5 + count.toNat ≤ 255 then .ok (5 + count.toNat) else .error (.frame .broken)
    else if code = 5 ∨ code = 6 ∨ code = 15 ∨ code = 16 then .ok 8
    else if 0x80 ≤ code then .ok 5
    else .error (.frame .broken)
  | _, _ => .error (.frame .broken)

/-- The unit, the function code and the bytes after it, once the delimiters have been checked. -/
def payload? (framing : Framing) (response : List UInt8) : Except FrameError (List UInt8) :=
  match framing with
  | .tcp =>
    if response.length < 9 then .error .broken
    else if response.take 4 = bytesOf [transaction, 0] then .ok (response.drop 6)
    else .error .broken
  | .rtu =>
    let payload := response.take (response.length - 2)
    if response.drop (response.length - 2) = request.checkBytes payload then .ok payload
    else .error .checksum

/-- What the unit answered to the call: the bytes after the function code. -/
def answer? (framing : Framing) (unit : UInt8) (call : Call) (response : List UInt8) :
    Except FrameError (List UInt8) := do
  match ← framing.payload? response with
  | u :: code :: rest =>
    if u ≠ unit then .error .broken
    else if code ≠ call.code then .error (.exception (rest.headD 0))
    else .ok rest
  | _ => .error .broken

/-- Registers from bytes, high byte first; a last odd byte is dropped. -/
def registersOf : List UInt8 → List UInt16
  | high :: low :: rest => (high.toUInt16 <<< 8 ||| low.toUInt16) :: registersOf rest
  | _ => []

/-- The registers in the answer to a read: at most as many as were asked for. -/
def registers? (quantity : UInt16) (answer : List UInt8) : Except FrameError (List UInt16) :=
  match answer with
  | [] => .error .broken
  | count :: data =>
    if 2 * count.toNat < data.length then .error .broken
    else .ok ((registersOf data).take quantity.toNat)

end Framing

end HomeMetering.Modbus
