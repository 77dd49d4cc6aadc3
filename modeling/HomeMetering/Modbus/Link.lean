import HomeMetering.Site.Job

/-!
# Connections in use

How jobs open, share and close connections, and how a meter talks to its unit. A client takes one
request at a time: whoever uses it keeps others from it while the unit is set and the answer is
awaited.
-/

namespace HomeMetering.Modbus

open Site Job

def closeClient (client : ClientId) : Job (Except BusError Unit) := do
  request (.lock client)
  let result ← request (.close client)
  request (.unlock client)
  return result

/-- The client of an address and whether it was there; opened when it was not. Others may open the
same address meanwhile: the first one is kept, and the duplicate is closed. -/
def getOrOpen (url : String) (baud : Nat) : Job (Except BusError (ClientId × Bool)) := do
  match ← request (.cached url) with
  | some client => return .ok (client, true)
  | none =>
    match ← request (.connect url baud) with
    | .error e => return .error e
    | .ok client =>
      match ← request (.adopt url client) with
      | none => return .ok (client, false)
      | some winner =>
        let _ ← closeClient client
        return .ok (winner, true)

/-- Closes a client that was taken out. -/
def closeTaken : Option ClientId → Job Unit
  | none => return
  | some client => do
    let _ ← closeClient client
    return

/-- Closes and forgets the client of an address, unless it is leased. -/
def removeUnused (url : String) : Job Unit := do
  closeTaken (← request (.evict url))

/-- Gives a lease back; the last one closes the client. -/
def release (url : String) : Job Unit := do
  closeTaken (← request (.giveBack url))

/-- Reads a block of a unit; a shorter answer is an error. -/
def readBlock (client : ClientId) (unit : UInt8) (block : Block) :
    Job (Except BusError (List UInt16)) := do
  request (.lock client)
  request (.select client unit)
  let answer ← request (.read client block)
  request (.unlock client)
  return answer.bind fun registers =>
    if registers.length < block.quantity.toNat then
      .error (.shortResponse block.quantity.toNat registers.length)
    else .ok registers

def writeRegister (client : ClientId) (unit : UInt8) (address value : UInt16) :
    Job (Except BusError Unit) := do
  request (.lock client)
  request (.select client unit)
  let answer ← request (.write client address value)
  request (.unlock client)
  return answer

/-- A meter's way to its unit. -/
structure Link where
  client : ClientId
  url : String
  unit : UInt8
  /-- The rate that the bus was found at, zero on a network. -/
  baud : Nat
  encoding : Encoding
  /-- Whether the lease was given back. -/
  released : Bool
  deriving Repr, DecidableEq

namespace Link

/-- Reads a block of the meter's own unit. -/
def read (l : Link) (block : Block) : Job (Except BusError (List UInt16)) :=
  readBlock l.client l.unit block

/-- Gives the lease back, the first time. -/
def release (l : Link) : Job Link :=
  if l.released then return l
  else do
    Modbus.release l.url
    return { l with released := true }

end Link

end HomeMetering.Modbus
