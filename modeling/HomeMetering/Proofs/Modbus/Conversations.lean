import HomeMetering.Modbus.Link
import HomeMetering.Proofs.Modbus.Exchanges
import HomeMetering.Proofs.Modbus.Server

/-!
# Reading from a server

An open client asks a server for one block after another. However the reply comes in, and whatever
was lost before, it gets the registers that it asked for.
-/

namespace HomeMetering.Modbus

open Site Site.Job

/-! ## Replies in pieces -/

/-- Reads on until there are `n` bytes: them, and what is left of the pieces. A read yields a piece,
or as much of it as there is room for. -/
def gather : Nat → List (List UInt8) → Option (List UInt8 × List (List UInt8))
  | 0, pieces => some ([], pieces)
  | _ + 1, [] => none
  | n + 1, piece :: rest =>
    if n + 1 ≤ piece.length then some (piece.take (n + 1), piece.drop (n + 1) :: rest)
    else (gather (n + 1 - piece.length) rest).map fun (bytes, left) => (piece ++ bytes, left)

theorem gather_cases (n : Nat) (pieces : List (List UInt8)) :
    (n ≤ pieces.flatten.length ∧ ∃ left,
        gather n pieces = some (pieces.flatten.take n, left) ∧
          left.flatten = pieces.flatten.drop n) ∨
      (pieces.flatten.length < n ∧ gather n pieces = none) := by
  induction pieces generalizing n with
  | nil =>
    cases n with
    | zero => exact .inl ⟨Nat.le_refl 0, [], rfl, rfl⟩
    | succ n => exact .inr ⟨Nat.succ_pos n, rfl⟩
  | cons piece rest ih =>
    cases n with
    | zero => exact .inl ⟨Nat.zero_le _, piece :: rest, rfl, rfl⟩
    | succ n =>
      rw [List.flatten_cons, List.length_append]
      unfold gather
      by_cases hpiece : n + 1 ≤ piece.length
      · refine .inl ⟨by omega, piece.drop (n + 1) :: rest, ?_, ?_⟩
        · rw [if_pos hpiece, List.take_append_of_le_length hpiece]
        · rw [List.flatten_cons, List.drop_append_of_le_length hpiece]
      · have hover : piece.length ≤ n + 1 := by omega
        rw [if_neg hpiece]
        rcases ih (n + 1 - piece.length) with ⟨hlen, left, hgather, hleft⟩ | ⟨hlen, hgather⟩
        · refine .inl ⟨by omega, left, ?_, ?_⟩
          · rw [hgather, List.take_append, List.take_of_length_le hover]
            rfl
          · rw [hleft, List.drop_append, List.drop_of_length_le hover, List.nil_append]
        · refine .inr ⟨by omega, ?_⟩
          rw [hgather]
          rfl

/-- A connection on which bytes come in pieces. -/
structure Arrivals where
  connection : Nat
  pieces : List (List UInt8)
  isHungUp : Bool

namespace Arrivals

/-- The connection with its pieces put together. -/
def stream (a : Arrivals) : Stream := ⟨a.connection, a.pieces.flatten, a.isHungUp⟩

def readExact (a : Arrivals) (n : Nat) : Except BusError (List UInt8 × Arrivals) :=
  match gather n a.pieces with
  | some (bytes, left) => .ok (bytes, { a with pieces := left })
  | none => if a.isHungUp then .error (.io .earlyEnd) else .error .timeout

/-- Reads one response, piece by piece. -/
def receive (f : Framing) (a : Arrivals) : Except BusError (List UInt8) × Arrivals :=
  match a.readExact f.headLength with
  | .error e => (.error e, a)
  | .ok (head, a) =>
    match f.responseLength head with
    | .error e => (.error e, a)
    | .ok length =>
      match a.readExact (length - f.headLength) with
      | .error e => (.error e, a)
      | .ok (rest, a) => (.ok (head ++ rest), a)

theorem readExact_stream (a : Arrivals) (n : Nat) :
    a.stream.readExact n = (a.readExact n).map fun (bytes, a) => (bytes, a.stream) := by
  unfold readExact Stream.readExact
  rcases gather_cases n a.pieces with ⟨hlen, left, hgather, hleft⟩ | ⟨hlen, hgather⟩
  · rw [if_pos (show n ≤ a.stream.unread.length from hlen), hgather]
    simp only [Except.map, stream, hleft]
  · rw [if_neg (show ¬ n ≤ a.stream.unread.length from Nat.not_le.2 hlen), hgather]
    cases hup : a.isHungUp <;> simp [stream, hup, Except.map]

/-- Borders of pieces make no difference. -/
theorem receive_stream (f : Framing) (a : Arrivals) :
    Wire.receive f a.stream = ((a.receive f).1, (a.receive f).2.stream) := by
  unfold receive Wire.receive
  rw [readExact_stream]
  rcases a.readExact f.headLength with e | ⟨head, behind⟩
  · rfl
  · simp only [Except.map]
    cases f.responseLength head with
    | error e => rfl
    | ok length =>
      dsimp only
      rw [readExact_stream]
      rcases behind.readExact (length - f.headLength) with e | ⟨rest, left⟩ <;> rfl

end Arrivals

/-! ## Jobs across a wire -/

/-- The answer to a request, when it is one that a client takes. -/
def Wire.answer? (s : Wire × Peer) : (q : Request) → Option (q.Answer × Wire × Peer)
  | .lock _ => some ((), s)
  | .unlock _ => some ((), s)
  | .select _ unit => some ((), s.1.select unit, s.2)
  | .read _ block => some (s.1.read s.2 block)
  | .write _ address value => some (s.1.write s.2 (.write address value))
  | .rate _ => some (s.1.baudRate, s)
  | .close _ => some (.ok (), s.1.close, s.2)
  | _ => none

end HomeMetering.Modbus

namespace HomeMetering.Site.Job

open Modbus

/-- Runs a job of one client across its wire. -/
def across? {α : Type} : Job α → Wire × Peer → Option (α × Wire × Peer)
  | done a, s => some (a, s)
  | ask q next, s => (Wire.answer? s q).bind fun (answer, s) => (next answer).across? s

end HomeMetering.Site.Job

namespace HomeMetering.Modbus

open Site Site.Job

theorem across_readBlock (client : ClientId) (unit : UInt8) (block : Block) (w : Wire) (p : Peer) :
    (readBlock client unit block).across? (w, p) =
      some ((((w.select unit).read p block).1.bind fun registers =>
        if registers.length < block.quantity.toNat then
          .error (.shortResponse block.quantity.toNat registers.length)
        else .ok registers), ((w.select unit).read p block).2) :=
  rfl

/-! ## One exchange -/

/-- The peer sends some bytes for the next request. -/
def Peer.serve (p : Peer) (bytes : List UInt8) : Peer := { p with replies := [⟨bytes, false⟩] }

theorem Stream.readExact_short {s : Stream} {n : Nat} (h : s.unread.length < n)
    (hup : s.isHungUp = false) : s.readExact n = .error .timeout := by
  unfold readExact
  rw [if_neg (Nat.not_le.2 h), hup]
  rfl

namespace Wire

theorem receive_whole {f : Framing} {s : Stream} (h : f.Whole s.unread) :
    receive f s = (.ok s.unread, { s with unread := [] }) := by
  have hle := Framing.headLength_le_of_responseLength h.length
  unfold receive Stream.readExact
  rw [if_pos h.head]
  dsimp only
  rw [h.length]
  dsimp only
  rw [if_pos (Nat.le_of_eq List.length_drop.symm)]
  dsimp only
  rw [← List.length_drop, List.take_length, List.drop_length, List.take_append_drop]

theorem receive_short {f : Framing} {s : Stream} (h : f.taken? s.unread = none)
    (hup : s.isHungUp = false) : (receive f s).1 = .error .timeout := by
  unfold Framing.taken? at h
  unfold receive
  split_ifs at h with hhead
  · rw [Stream.readExact_short hhead hup]
  · cases hlength : f.responseLength (s.unread.take f.headLength) with
    | error e => simp [hlength] at h
    | ok length =>
      rw [hlength] at h
      dsimp only at h
      split_ifs at h with hshort
      let behind : Stream := { s with unread := s.unread.drop f.headLength }
      have hread : s.readExact f.headLength = .ok (s.unread.take f.headLength, behind) :=
        if_pos (Nat.le_of_not_lt hhead)
      have hbehind : behind.unread.length < length - f.headLength := by
        show (s.unread.drop f.headLength).length < length - f.headLength
        rw [List.length_drop]
        omega
      rw [hread]
      dsimp only
      rw [hlength]
      dsimp only
      rw [Stream.readExact_short hbehind hup]

/-- What comes of some bytes that a peer sends: a response or a timeout. -/
def Yields (f : Framing) (bytes : List UInt8) : Except BusError (List UInt8) → Prop
  | .ok response => response = bytes ∧ f.Whole bytes
  | .error e => e = .timeout ∧ f.taken? bytes = none

/-- The client is open, and nothing waits for its next request. -/
structure Ready (w : Wire) (p : Peer) : Prop where
  isOpen : w.isOpen = true
  dial : p.dial = .ok ()
  stream : ∀ s ∈ w.stream, s.unread = [] ∧ s.isHungUp = false

namespace Ready

variable {w : Wire} {p : Peer}

theorem connect (w : Wire) (hdial : p.dial = .ok ()) :
    (w.connect p).2.1.Ready (w.connect p).2.2 ∧ (w.connect p).2.1.framing = w.framing ∧
      (w.connect p).2.2.received = p.received := by
  have hconnect : w.connect p =
      (.ok (), { w with isOpen := true, stream := some ⟨p.connections, [], false⟩ },
        { p with connections := p.connections + 1 }) := by
    simp [Wire.connect, Peer.connect, hdial, Except.map]
  rw [hconnect]
  refine ⟨⟨rfl, hdial, ?_⟩, rfl, rfl⟩
  rintro s ⟨⟩
  exact ⟨rfl, rfl⟩

theorem reach (h : w.Ready p) : ∃ s p', w.reach p = .ok (s, p') ∧ s.unread = [] ∧
    s.isHungUp = false ∧ p'.dial = .ok () ∧ p'.received = p.received ∧ p'.replies = p.replies := by
  unfold Wire.reach
  cases hstream : w.stream with
  | some s =>
    obtain ⟨hunread, hup⟩ := h.stream s hstream
    exact ⟨s, p, rfl, hunread, hup, h.dial, rfl, rfl⟩
  | none =>
    refine ⟨⟨p.connections, [], false⟩, { p with connections := p.connections + 1 }, ?_,
      rfl, rfl, h.dial, rfl, rfl⟩
    simp [Peer.connect, h.dial, Except.map]

theorem exchange (h : w.Ready p) {bytes : List UInt8} {outcome : Except BusError (List UInt8)}
    (hyields : Yields w.framing bytes outcome) (frame : List UInt8) :
    ∃ w' p' c, w.exchange (p.serve bytes) frame = (outcome, w', p') ∧ w'.Ready p' ∧
      w'.framing = w.framing ∧ w'.unit = w.unit ∧ p'.received = (c, frame) :: p.received := by
  have hserved : w.Ready (p.serve bytes) := ⟨h.isOpen, h.dial, h.stream⟩
  obtain ⟨s, p₁, hreach, hunread, hup, hdial, hreceived, hreplies⟩ := hserved.reach
  have htake : p₁.take s frame = ({ s with unread := bytes },
      { p₁ with received := (s.connection, frame) :: p₁.received, replies := [] }) := by
    unfold Peer.take
    rw [hup, hreplies]
    simp [Peer.serve, hunread]
  rw [exchange_eq, h.isOpen, hreach]
  dsimp only
  rw [htake]
  dsimp only
  cases outcome with
  | ok response =>
    obtain ⟨rfl, hwhole⟩ := hyields
    rw [receive_whole hwhole]
    refine ⟨_, _, s.connection, rfl, ⟨h.isOpen, hdial, ?_⟩, rfl, rfl, ?_⟩
    · rintro _ ⟨⟩
      exact ⟨rfl, hup⟩
    · exact congrArg _ hreceived
  | error e =>
    obtain ⟨rfl, hshort⟩ := hyields
    have hlate := receive_short (f := w.framing) (s := { s with unread := bytes }) hshort hup
    generalize receive w.framing { s with unread := bytes } = received at hlate
    obtain ⟨_, left⟩ := received
    obtain rfl := hlate
    exact ⟨_, _, s.connection, rfl, ⟨h.isOpen, hdial, nofun⟩, rfl, rfl, congrArg _ hreceived⟩

theorem readBlock (h : w.Ready p) (client : ClientId) (unit : UInt8) (block : Block)
    {bytes frame : List UInt8} {outcome : Except BusError (List UInt8)}
    (hyields : Yields w.framing bytes outcome)
    (hframe : w.framing.request unit (.read block) = .ok frame) :
    ∃ w' p' c, (Modbus.readBlock client unit block).across? (w, p.serve bytes) = some
        (((outcome.bind fun response =>
            (w.framing.answer? unit (.read block) response).mapError .frame).bind fun answer =>
              (Framing.registers? block.quantity answer).mapError .frame).bind fun registers =>
                if registers.length < block.quantity.toNat then
                  .error (.shortResponse block.quantity.toNat registers.length)
                else .ok registers, w', p') ∧
      w'.Ready p' ∧ w'.framing = w.framing ∧ p'.received = (c, frame) :: p.received := by
  have hselect : (w.select unit).Ready p := ⟨h.isOpen, h.dial, h.stream⟩
  obtain ⟨w', p', c, hexchange, hready, hframing, hunit, hreceived⟩ :=
    hselect.exchange hyields frame
  refine ⟨w', p', c, ?_, hready, hframing, hreceived⟩
  rw [across_readBlock]
  unfold Wire.read Wire.call
  rw [show (w.select unit).framing.request (w.select unit).unit (.read block) = .ok frame
    from hframe]
  dsimp only
  rw [hexchange]
  cases outcome with
  | error e => rfl
  | ok response =>
    dsimp only
    rw [hunit, hframing]
    rfl

end Ready

end Wire

/-! ## Conversations -/

/-- The frame that a client sends for a job before anything is answered. -/
def sends? {α : Type} (job : Job α) (s : Wire × Peer) : Option (List UInt8) := do
  let (_, _, p) ← job.across? (s.1, s.2.serve [])
  let (_, frame) ← p.received.head?
  return frame

/-- What happens to a client that is open. -/
inductive Step where
  /-- It reads a block from a server with some memory. -/
  | ask (unit : UInt8) (block : Block) (memory : Memory)
  /-- It reads a block, and no more than some bytes come back. -/
  | lose (unit : UInt8) (block : Block) (bytes : List UInt8)
  | reopen

namespace Step

/-- A request that a server can answer; bytes that are no response. -/
def Sound (f : Framing) : Step → Prop
  | ask unit block _ => (1 ≤ unit.toNat ∧ unit.toNat ≤ 247) ∧ block.Fits
  | lose _ _ bytes => f.taken? bytes = none
  | reopen => True

def run? (client : ClientId) : Step → Wire × Peer →
    Option (List (Except BusError (List UInt16)) × Wire × Peer)
  | ask unit block memory, (w, p) => do
    let frame ← sends? (readBlock client unit block) (w, p)
    let (result, s) ← (readBlock client unit block).across?
      (w, p.serve (memory.reply w.framing frame))
    return ([result], s)
  | lose unit block bytes, (w, p) => do
    let (result, s) ← (readBlock client unit block).across? (w, p.serve bytes)
    return ([result], s)
  | reopen, (w, p) => some ([], (w.close.connect p).2)

/-- What a job gets. -/
def outcomes : Step → List (Except BusError (List UInt16))
  | ask unit block memory => [.ok (memory.content unit block)]
  | lose _ _ _ => [.error .timeout]
  | reopen => []

/-- What the server is to be asked. -/
def queries : Step → List Query
  | ask unit block _ => [block.query unit]
  | lose unit block _ => [block.query unit]
  | reopen => []

/-- Runs one step after another. -/
def runAll? (client : ClientId) : List Step → Wire × Peer →
    Option (List (Except BusError (List UInt16)) × Wire × Peer)
  | [], s => some ([], s)
  | step :: steps, s => do
    let (first, s) ← step.run? client s
    let (later, s) ← runAll? client steps s
    return (first ++ later, s)

section

variable {w : Wire} {p : Peer} (h : w.Ready p) (client : ClientId) (unit : UInt8) (block : Block)
include h

theorem sends_readBlock : ∃ frame, sends? (readBlock client unit block) (w, p) = some frame ∧
    w.framing.request unit (.read block) = .ok frame := by
  obtain ⟨frame, hframe, -⟩ := w.framing.request_read unit block
  have hsilent : Wire.Yields w.framing [] (.error .timeout) := ⟨rfl, w.framing.taken?_nil⟩
  obtain ⟨w', p', c, hrun, -, -, hreceived⟩ := h.readBlock client unit block hsilent hframe
  refine ⟨frame, ?_, hframe⟩
  unfold sends?
  rw [hrun]
  simp [hreceived]

theorem run_ask (memory : Memory) (hunit : 1 ≤ unit.toNat ∧ unit.toNat ≤ 247)
    (hfits : block.Fits) :
    ∃ w' p' c frame, (ask unit block memory).run? client (w, p) =
        some ([.ok (memory.content unit block)], w', p') ∧
      w'.Ready p' ∧ w'.framing = w.framing ∧ p'.received = (c, frame) :: p.received ∧
        w.framing.query? frame = some (block.query unit) := by
  obtain ⟨frame, hsends, hframe⟩ := sends_readBlock h client unit block
  obtain ⟨hwhole, answer, hanswer, hregisters⟩ := memory.reply_read hframe hunit hfits
  obtain ⟨sent, hsent, hquery, -⟩ := w.framing.request_read unit block
  obtain rfl : frame = sent := Except.ok.inj (hframe.symm.trans hsent)
  have hyields : Wire.Yields w.framing (memory.reply w.framing frame)
      (.ok (memory.reply w.framing frame)) := ⟨rfl, hwhole⟩
  obtain ⟨w', p', c, hrun, hready, hframing, hreceived⟩ :=
    h.readBlock client unit block hyields hframe
  refine ⟨w', p', c, frame, ?_, hready, hframing, hreceived, hquery⟩
  have hlength : ¬ (memory.content unit block).length < block.quantity.toNat := by
    rw [memory.length_content]
    exact Nat.lt_irrefl _
  unfold run?
  dsimp only
  rw [hsends, Option.bind_eq_bind, Option.bind_some, hrun]
  simp only [Except.bind, hanswer, Except.mapError, hregisters, if_neg hlength]
  rfl

theorem run_lose {bytes : List UInt8} (hbytes : w.framing.taken? bytes = none) :
    ∃ w' p' c frame, (lose unit block bytes).run? client (w, p) =
        some ([.error .timeout], w', p') ∧
      w'.Ready p' ∧ w'.framing = w.framing ∧ p'.received = (c, frame) :: p.received ∧
        w.framing.query? frame = some (block.query unit) := by
  obtain ⟨frame, hframe, hquery, -⟩ := w.framing.request_read unit block
  have hyields : Wire.Yields w.framing bytes (.error .timeout) := ⟨rfl, hbytes⟩
  obtain ⟨w', p', c, hrun, hready, hframing, hreceived⟩ :=
    h.readBlock client unit block hyields hframe
  refine ⟨w', p', c, frame, ?_, hready, hframing, hreceived, hquery⟩
  unfold run?
  dsimp only
  rw [hrun]
  rfl

end

/-- One step on a client that is ready: the frames that went out ask for what the step is to ask,
and the client is ready for the next one. -/
theorem run_sound {w : Wire} {p : Peer} (h : w.Ready p) (client : ClientId) {step : Step}
    (hsound : step.Sound w.framing) :
    ∃ w' p' sent, step.run? client (w, p) = some (step.outcomes, w', p') ∧ w'.Ready p' ∧
      w'.framing = w.framing ∧ p'.received = sent ++ p.received ∧
        (sent.reverse.map fun frame => w.framing.query? frame.2) = step.queries.map some := by
  cases step with
  | ask unit block memory =>
    obtain ⟨w', p', c, frame, hrun, hready, hframing, hreceived, hquery⟩ :=
      run_ask h client unit block memory hsound.1 hsound.2
    exact ⟨w', p', [(c, frame)], hrun, hready, hframing, hreceived, congrArg (fun q => [q]) hquery⟩
  | lose unit block bytes =>
    obtain ⟨w', p', c, frame, hrun, hready, hframing, hreceived, hquery⟩ :=
      run_lose h client unit block hsound
    exact ⟨w', p', [(c, frame)], hrun, hready, hframing, hreceived, congrArg (fun q => [q]) hquery⟩
  | reopen =>
    obtain ⟨hready, hframing, hreceived⟩ := Wire.Ready.connect w.close h.dial
    exact ⟨_, _, [], rfl, hready, hframing, hreceived, rfl⟩

theorem runAll_sound {w : Wire} {p : Peer} (h : w.Ready p) (client : ClientId)
    {steps : List Step} (hsound : ∀ step ∈ steps, step.Sound w.framing) :
    ∃ w' p' sent, runAll? client steps (w, p) = some (steps.flatMap outcomes, w', p') ∧
      p'.received = sent ++ p.received ∧
        (sent.reverse.map fun frame => w.framing.query? frame.2) =
          (steps.flatMap queries).map some := by
  induction steps generalizing w p with
  | nil => exact ⟨w, p, [], rfl, rfl, rfl⟩
  | cons step steps ih =>
    obtain ⟨w₁, p₁, first, hrun, hready, hframing, hreceived, hqueries⟩ :=
      run_sound h client (hsound step List.mem_cons_self)
    have hlater : ∀ later ∈ steps, later.Sound w₁.framing := by
      intro later hmem
      rw [hframing]
      exact hsound later (List.mem_cons_of_mem _ hmem)
    obtain ⟨w', p', sent, hrest, hreceived', hqueries'⟩ := ih hready hlater
    refine ⟨w', p', sent ++ first, ?_, ?_, ?_⟩
    · unfold runAll?
      rw [hrun]
      show (runAll? client steps (w₁, p₁)).bind _ = _
      rw [hrest]
      rfl
    · rw [hreceived', hreceived, List.append_assoc]
    · rw [hframing] at hqueries'
      rw [List.reverse_append, List.map_append, hqueries, hqueries', List.flatMap_cons,
        List.map_append]

/-- Whatever was asked, lost and reopened before, a read from a server gets the registers of its
block, and the frame that goes out for it asks for that block. It is the same however the bytes come
in. -/
theorem reads_registers (url : ConnectUrl) (baud : Nat) {p : Peer} (hdial : p.dial = .ok ())
    (client : ClientId) {steps : List Step}
    (hsound : ∀ step ∈ steps, step.Sound (Wire.new url baud).framing) :
    (∃ w' p' sent,
      runAll? client steps ((Wire.new url baud).connect p).2 =
          some (steps.flatMap outcomes, w', p') ∧
        p'.received = sent ++ p.received ∧
          (sent.reverse.map fun frame => (Wire.new url baud).framing.query? frame.2) =
            (steps.flatMap queries).map some) ∧
      ∀ a : Arrivals, Wire.receive (Wire.new url baud).framing a.stream =
        ((a.receive (Wire.new url baud).framing).1,
          (a.receive (Wire.new url baud).framing).2.stream) := by
  refine ⟨?_, Arrivals.receive_stream _⟩
  obtain ⟨hready, hframing, hreceived⟩ := Wire.Ready.connect (Wire.new url baud) hdial
  rw [← hframing] at hsound
  obtain ⟨w', p', sent, hrun, hsent, hqueries⟩ := runAll_sound hready client hsound
  rw [hframing] at hqueries
  rw [hreceived] at hsent
  exact ⟨w', p', sent, hrun, hsent, hqueries⟩

/-- Every register holds its own address, of inputs with the highest bit set. -/
def addresses : Memory := fun _ bank address =>
  match bank with
  | .holding => address.toUInt16
  | .input => 0x8000 ||| address.toUInt16

/-- Two devices on one serial line; a reply breaks off, and the line is opened once more. -/
theorem serial_line_recovers :
    let steps := [ask 1 (.holding 10 3) addresses, lose 1 (.holding 10 3) [1, 3, 6, 0],
      ask 247 (.input 65534 2) addresses, reopen, ask 1 (.holding 0 1) addresses]
    (∀ step ∈ steps, step.Sound .rtu) ∧ ∃ w' p' sent,
      runAll? 0 steps ((Wire.new (.rtu "/dev/ttyUSB0") 9600).connect ⟨.ok (), [], 0, []⟩).2 =
          some ([.ok [10, 11, 12], .error .timeout, .ok [65534, 65535], .ok [0]], w', p') ∧
        p'.received = sent ++ [] ∧ (sent.reverse.map fun frame => Framing.rtu.query? frame.2) =
          [some ⟨1, 3, 10, 3⟩, some ⟨1, 3, 10, 3⟩, some ⟨247, 4, 65534, 2⟩, some ⟨1, 3, 0, 1⟩] := by
  intro steps
  have hsound : ∀ step ∈ steps, step.Sound .rtu := by
    have hfirst : (Block.holding 10 3).Fits := ⟨by decide, by decide, by decide⟩
    have hlast : (Block.input 65534 2).Fits := ⟨by decide, by decide, by decide⟩
    have hagain : (Block.holding 0 1).Fits := ⟨by decide, by decide, by decide⟩
    simp only [steps, List.forall_mem_cons]
    exact ⟨⟨by decide, hfirst⟩, rfl, ⟨by decide, hlast⟩, trivial, ⟨by decide, hagain⟩, nofun⟩
  exact ⟨hsound, (reads_registers (.rtu "/dev/ttyUSB0") 9600 rfl 0 hsound).1⟩

end Step

end HomeMetering.Modbus
