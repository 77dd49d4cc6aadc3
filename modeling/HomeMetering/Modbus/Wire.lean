import HomeMetering.Modbus.ConnectUrl
import HomeMetering.Modbus.Frame

/-!
# The client on the wire

A client exchanges one request and one response at a time with a peer. It dials when it has no
stream, keeps the stream over frames that make no sense, and drops it after a failed or late
exchange. The peer is a script: what every dial meets, and what every request is answered with.
-/

namespace HomeMetering.Modbus

/-- What a peer sends for one request, and whether it hangs up then. -/
structure Reply where
  bytes : List UInt8
  hangsUp : Bool
  deriving Repr

/-- The other end of the wire. -/
structure Peer where
  /-- What dialing meets. -/
  dial : Except BusError Unit
  /-- Replies to the requests to come; without one the peer stays silent. -/
  replies : List Reply
  /-- Connections so far. -/
  connections : Nat
  /-- Requests so far with the connection each came on, the latest first. -/
  received : List (Nat × List UInt8)

/-- A connection as the client sees it. -/
structure Stream where
  connection : Nat
  unread : List UInt8
  isHungUp : Bool
  deriving Repr

namespace Peer

def connect (p : Peer) : Except BusError (Stream × Peer) :=
  p.dial.map fun _ => (⟨p.connections, [], false⟩, { p with connections := p.connections + 1 })

/-- Takes a request and puts the reply on its way. -/
def take (p : Peer) (s : Stream) (request : List UInt8) : Stream × Peer :=
  if s.isHungUp then (s, p)
  else
    let p := { p with received := (s.connection, request) :: p.received }
    match p.replies with
    | [] => (s, p)
    | reply :: rest =>
      ({ s with unread := s.unread ++ reply.bytes, isHungUp := reply.hangsUp },
        { p with replies := rest })

end Peer

namespace Stream

/-- Exactly `n` bytes; an end of the stream is an error and silence a timeout. -/
def readExact (s : Stream) (n : Nat) : Except BusError (List UInt8 × Stream) :=
  if n ≤ s.unread.length then .ok (s.unread.take n, { s with unread := s.unread.drop n })
  else if s.isHungUp then .error (.io .earlyEnd)
  else .error .timeout

end Stream

structure Wire where
  url : ConnectUrl
  baud : Nat
  unit : UInt8
  isOpen : Bool
  stream : Option Stream

namespace Wire

def new (url : ConnectUrl) (baud : Nat) : Wire := ⟨url, baud, 1, false, none⟩

/-- How frames are delimited on the way to the bus. -/
def framing (w : Wire) : Framing :=
  match w.url with
  | .tcp _ => .tcp
  | _ => .rtu

/-- The rate of a serial line, zero on a network. -/
def baudRate (w : Wire) : Nat := if w.url.isSerial then w.baud else 0

def connect (w : Wire) (p : Peer) : Except BusError Unit × Wire × Peer :=
  match p.connect with
  | .error e => (.error e, w, p)
  | .ok (s, p) => (.ok (), { w with isOpen := true, stream := some s }, p)

def close (w : Wire) : Wire := { w with isOpen := false, stream := none }

/-- Selects the unit of the following requests. -/
def select (w : Wire) (unit : UInt8) : Wire := { w with unit }

/-- Whether an error leaves the stream in an unknown place. -/
def breaksStream : BusError → Bool
  | .io _ => true
  | .timeout => true
  | _ => false

/-- Reads one response. -/
def receive (framing : Framing) (s : Stream) : Except BusError (List UInt8) × Stream :=
  match s.readExact framing.headLength with
  | .error e => (.error e, s)
  | .ok (head, s) =>
    match framing.responseLength head with
    | .error e => (.error e, s)
    | .ok length =>
      match s.readExact (length - framing.headLength) with
      | .error e => (.error e, s)
      | .ok (rest, s) => (.ok (head ++ rest), s)

/-- Sends a request frame and reads the response, on the stream at hand or on a new one. -/
def exchange (w : Wire) (p : Peer) (request : List UInt8) :
    Except BusError (List UInt8) × Wire × Peer :=
  if !w.isOpen then (.error .notConnected, w, p)
  else
    let connected : Except BusError (Stream × Peer) := match w.stream with
      | some s => .ok (s, p)
      | none => p.connect
    match connected with
    | .error e => (.error e, w, p)
    | .ok (s, p) =>
      let (s, p) := p.take s request
      match receive w.framing s with
      | (.ok response, s) => (.ok response, { w with stream := some s }, p)
      | (.error e, s) =>
        (.error e, { w with stream := if breaksStream e then none else some s }, p)

/-- Asks the selected unit. -/
def call (w : Wire) (p : Peer) (c : Call) : Except BusError (List UInt8) × Wire × Peer :=
  match w.framing.request w.unit c with
  | .error e => (.error e, w, p)
  | .ok request =>
    match w.exchange p request with
    | (.error e, w, p) => (.error e, w, p)
    | (.ok response, w, p) => ((w.framing.answer? w.unit c response).mapError .frame, w, p)

def read (w : Wire) (p : Peer) (block : Block) : Except BusError (List UInt16) × Wire × Peer :=
  let (r, w, p) := w.call p (.read block)
  (r.bind fun answer => (Framing.registers? block.quantity answer).mapError .frame, w, p)

def write (w : Wire) (p : Peer) (c : Call) : Except BusError Unit × Wire × Peer :=
  let (r, w, p) := w.call p c
  (r.map fun _ => (), w, p)

end Wire

end HomeMetering.Modbus
