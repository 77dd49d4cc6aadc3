import HomeMetering.Modbus.Wire
import Mathlib.Data.List.Infix
import Mathlib.Tactic.SplitIfs

/-!
# What an exchange leaves unread

A client reads as many bytes as the head of a response calls for. Bytes of a reply that it has no
use for stay on the stream: those behind the frame, and those behind a head that makes no sense. The
next request is then answered with them.
-/

namespace HomeMetering.Modbus

/-! ## One response -/

namespace Framing

/-- How many of some bytes a response takes; none when they are too few, which ends the stream. -/
def taken? (f : Framing) (bytes : List UInt8) : Option Nat :=
  if bytes.length < f.headLength then none
  else match f.responseLength (bytes.take f.headLength) with
    | .error _ => some f.headLength
    | .ok length => if bytes.length < length then none else some length

/-- A reply that holds more bytes than its response takes. -/
def Overruns (f : Framing) (bytes : List UInt8) : Prop := ∃ n ∈ f.taken? bytes, n < bytes.length

theorem taken?_nil (f : Framing) : f.taken? [] = none := by
  cases f <;> rfl

theorem headLength_le_of_responseLength {f : Framing} {head : List UInt8} {length : Nat}
    (h : f.responseLength head = .ok length) : f.headLength ≤ length := by
  unfold responseLength at h
  split at h
  · dsimp only at h
    split_ifs at h
    cases h
    simp only [headLength]
    omega
  · split_ifs at h <;> cases h <;> simp only [headLength] <;> omega
  · cases h

theorem not_breaksStream_of_responseLength {f : Framing} {head : List UInt8} {e : BusError}
    (h : f.responseLength head = .error e) : Wire.breaksStream e = false := by
  unfold responseLength at h
  split at h
  · dsimp only at h
    split_ifs at h
    cases h
    rfl
  · split_ifs at h <;> cases h <;> rfl
  · cases h
    rfl

end Framing

theorem Stream.readExact_cases (s : Stream) (n : Nat) :
    (n ≤ s.unread.length ∧
        s.readExact n = .ok (s.unread.take n, { s with unread := s.unread.drop n })) ∨
      (s.unread.length < n ∧ ∃ e, s.readExact n = .error e ∧ Wire.breaksStream e = true) := by
  unfold readExact
  split_ifs with h hup
  · exact .inl ⟨h, rfl⟩
  · exact .inr ⟨Nat.lt_of_not_le h, _, rfl, rfl⟩
  · exact .inr ⟨Nat.lt_of_not_le h, _, rfl, rfl⟩

namespace Wire

/-- The response is a start of what there is, and the rest stays; without enough for a response the
stream breaks. -/
theorem receive_spec (f : Framing) (s : Stream) :
    match f.taken? s.unread with
    | none => ∃ e, (receive f s).1 = .error e ∧ breaksStream e = true
    | some n =>
      (receive f s).2.unread = s.unread.drop n ∧
        ((receive f s).1 = .ok (s.unread.take n) ∨
          ∃ e, (receive f s).1 = .error e ∧ breaksStream e = false) := by
  unfold Framing.taken? receive
  rcases s.readExact_cases f.headLength with ⟨hhead, hread⟩ | ⟨hhead, e, hread, hbreaks⟩
  · rw [if_neg (Nat.not_lt.2 hhead), hread]
    dsimp only
    cases hlength : f.responseLength (s.unread.take f.headLength) with
    | error e =>
      exact ⟨rfl, .inr ⟨e, rfl, Framing.not_breaksStream_of_responseLength hlength⟩⟩
    | ok length =>
      have hle := Framing.headLength_le_of_responseLength hlength
      let behind : Stream := { s with unread := s.unread.drop f.headLength }
      have hbehind : behind.unread.length = s.unread.length - f.headLength := List.length_drop ..
      dsimp only
      rcases behind.readExact_cases (length - f.headLength) with
        ⟨hrest, hread⟩ | ⟨hrest, e, hread, hbreaks⟩
      · rw [if_neg (by omega), hread]
        refine ⟨?_, .inl ?_⟩
        · show (s.unread.drop f.headLength).drop (length - f.headLength) = s.unread.drop length
          rw [List.drop_drop, Nat.add_sub_cancel' hle]
        · show Except.ok (s.unread.take f.headLength ++
            (s.unread.drop f.headLength).take (length - f.headLength)) =
              Except.ok (s.unread.take length)
          rw [← List.take_add, Nat.add_sub_cancel' hle]
      · rw [if_pos (by omega), hread]
        exact ⟨e, rfl, hbreaks⟩
  · rw [if_pos hhead, hread]
    exact ⟨e, rfl, hbreaks⟩

/-- The bytes that wait on the stream for the next request. -/
def leftover (w : Wire) : List UInt8 := (w.stream.map Stream.unread).getD []

/-- A request that finds nothing on the stream: the replies that it takes are those that it is
answered with, it leaves something where one of them overruns, and its response starts one of
them. -/
structure Handles (w : Wire) (p : Peer) (taken : List Reply)
    (outcome : Except BusError (List UInt8) × Wire × Peer) : Prop where
  single : taken.length ≤ 1
  replies : p.replies = taken ++ outcome.2.2.replies
  framing : outcome.2.1.framing = w.framing
  leftover : outcome.2.1.leftover = [] ↔ ∀ reply ∈ taken, ¬ w.framing.Overruns reply.bytes
  response : ∀ response, outcome.1 = .ok response → ∃ reply ∈ taken, response <+: reply.bytes

theorem handles_of_error {w : Wire} (h : w.leftover = []) (p : Peer) (e : BusError) :
    w.Handles p [] (.error e, w, p) :=
  ⟨Nat.zero_le 1, rfl, rfl, iff_of_true h nofun, nofun⟩

theorem take_cases (p : Peer) (s : Stream) (request : List UInt8) :
    ((p.take s request).2.replies = p.replies ∧ (p.take s request).1.unread = s.unread) ∨
      ∃ reply, p.replies = reply :: (p.take s request).2.replies ∧
        (p.take s request).1.unread = s.unread ++ reply.bytes := by
  unfold Peer.take
  split_ifs
  · exact .inl ⟨rfl, rfl⟩
  · dsimp only
    cases hreplies : p.replies with
    | nil => exact .inl ⟨rfl, rfl⟩
    | cons reply rest => exact .inr ⟨reply, rfl, rfl⟩

/-- What becomes of a wire when a response was awaited on a stream. -/
def settle (w : Wire) (p : Peer) :
    Except BusError (List UInt8) × Stream → Except BusError (List UInt8) × Wire × Peer
  | (.ok response, s) => (.ok response, { w with stream := some s }, p)
  | (.error e, s) => (.error e, { w with stream := if breaksStream e then none else some s }, p)

/-- The stream at hand, or a new one. -/
def reach (w : Wire) (p : Peer) : Except BusError (Stream × Peer) :=
  match w.stream with
  | some s => .ok (s, p)
  | none => p.connect

theorem reach_cases (w : Wire) (p : Peer) :
    (∃ e, w.reach p = .error e) ∨
      ∃ s p', w.reach p = .ok (s, p') ∧ p'.replies = p.replies ∧
        (w.leftover = [] → s.unread = []) := by
  unfold reach leftover
  cases w.stream with
  | some s => exact .inr ⟨s, p, rfl, rfl, id⟩
  | none =>
    unfold Peer.connect
    cases p.dial with
    | error e => exact .inl ⟨e, rfl⟩
    | ok _ => exact .inr ⟨_, _, rfl, rfl, fun _ => rfl⟩

theorem exchange_eq (w : Wire) (p : Peer) (request : List UInt8) :
    w.exchange p request =
      if !w.isOpen then (.error .notConnected, w, p)
      else match w.reach p with
        | .error e => (.error e, w, p)
        | .ok (s, p) => w.settle (p.take s request).2 (receive w.framing (p.take s request).1) :=
  rfl

section

variable (w : Wire) {p p' : Peer} {s : Stream}

theorem handles_received {taken : List Reply} (hreplies : p.replies = taken ++ p'.replies)
    (hunread : taken = [] ∧ s.unread = [] ∨ ∃ reply, taken = [reply] ∧ s.unread = reply.bytes) :
    w.Handles p taken (w.settle p' (receive w.framing s)) := by
  have hspec := receive_spec w.framing s
  have hoverruns : (∀ reply ∈ taken, ¬ w.framing.Overruns reply.bytes) ↔
      ¬ w.framing.Overruns s.unread := by
    rcases hunread with ⟨rfl, hnil⟩ | ⟨reply, rfl, hreply⟩
    · simp [Framing.Overruns, hnil]
    · simp [hreply]
  have hsingle : taken.length ≤ 1 := by
    rcases hunread with ⟨rfl, -⟩ | ⟨reply, rfl, -⟩
    · exact Nat.zero_le 1
    · exact Nat.le_refl 1
  generalize receive w.framing s = received at hspec
  obtain ⟨result, rest⟩ := received
  cases htaken : w.framing.taken? s.unread with
  | none =>
    rw [htaken] at hspec
    obtain ⟨e, rfl, hbreaks⟩ := hspec
    refine ⟨hsingle, hreplies, rfl, ?_, nofun⟩
    rw [hoverruns]
    simp [Framing.Overruns, htaken, settle, leftover, hbreaks]
  | some n =>
    rw [htaken] at hspec
    obtain ⟨hrest, hresult⟩ := hspec
    dsimp only at hrest hresult
    have hkept : rest.unread = [] ↔ ¬ w.framing.Overruns s.unread := by
      simp [Framing.Overruns, htaken, hrest]
    rcases hresult with rfl | ⟨e, rfl, hbreaks⟩
    · refine ⟨hsingle, hreplies, rfl, hkept.trans hoverruns.symm, ?_⟩
      rintro response ⟨⟩
      rcases hunread with ⟨rfl, hnil⟩ | ⟨reply, rfl, hreply⟩
      · rw [hnil, Framing.taken?_nil] at htaken
        cases htaken
      · exact ⟨reply, List.mem_singleton_self _, hreply ▸ List.take_prefix _ _⟩
    · refine ⟨hsingle, hreplies, rfl, ?_, nofun⟩
      simpa [settle, leftover, hbreaks] using hkept.trans hoverruns.symm

theorem handles_asked (hreplies : p'.replies = p.replies) (hs : s.unread = [])
    (request : List UInt8) :
    ∃ taken, w.Handles p taken
      (w.settle (p'.take s request).2 (receive w.framing (p'.take s request).1)) := by
  rcases take_cases p' s request with ⟨hrest, hunread⟩ | ⟨reply, hrest, hunread⟩
  · refine ⟨[], w.handles_received ?_ (.inl ⟨rfl, hunread.trans hs⟩)⟩
    rw [hrest, hreplies, List.nil_append]
  · rw [hs, List.nil_append] at hunread
    refine ⟨[reply], w.handles_received ?_ (.inr ⟨reply, rfl, hunread⟩)⟩
    rw [← hreplies, hrest, List.singleton_append]

end

theorem exchange_handles {w : Wire} (h : w.leftover = []) (p : Peer) (request : List UInt8) :
    ∃ taken, w.Handles p taken (w.exchange p request) := by
  rw [exchange_eq]
  split_ifs with hopen
  · exact ⟨[], handles_of_error h p _⟩
  · rcases w.reach_cases p with ⟨e, hreach⟩ | ⟨s, p', hreach, hreplies, hs⟩
    · rw [hreach]
      exact ⟨[], handles_of_error h p e⟩
    · rw [hreach]
      exact w.handles_asked hreplies (hs h) request

/-- Whatever is asked next, a response is the start of the next reply. -/
def AnswersNext (w : Wire) (p : Peer) : Prop :=
  ∀ request response, (w.exchange p request).1 = .ok response →
    ∃ reply, p.replies.head? = some reply ∧ response <+: reply.bytes

theorem answersNext_of_leftover {w : Wire} (h : w.leftover = []) (p : Peer) :
    w.AnswersNext p := by
  intro request response hresponse
  obtain ⟨taken, hhandles⟩ := exchange_handles h p request
  obtain ⟨reply, hmem, hprefix⟩ := hhandles.response response hresponse
  obtain ⟨only, rfl⟩ := List.length_eq_one_iff.1
    (Nat.le_antisymm hhandles.single (List.length_pos_of_mem hmem))
  obtain rfl := List.mem_singleton.1 hmem
  exact ⟨reply, by rw [hhandles.replies]; rfl, hprefix⟩

/-! ## Runs -/

/-- What is done to a client. -/
inductive Act where
  | connect
  | close
  | select (unit : UInt8)
  | read (block : Block)
  | write (call : Call)

def Act.run : Act → Wire × Peer → Wire × Peer
  | connect, (w, p) => (w.connect p).2
  | close, (w, p) => (w.close, p)
  | select unit, (w, p) => (w.select unit, p)
  | read block, (w, p) => (w.read p block).2
  | write call, (w, p) => (w.write p call).2

/-- A client and its peer after some acts. -/
def after (acts : List Act) (s : Wire × Peer) : Wire × Peer := acts.foldl (fun s a => a.run s) s

theorem call_cases (w : Wire) (p : Peer) (c : Call) :
    (w.call p c).2 = (w, p) ∨ ∃ request, (w.call p c).2 = (w.exchange p request).2 := by
  unfold call
  cases w.framing.request w.unit c with
  | error e => exact .inl rfl
  | ok request =>
    refine .inr ⟨request, ?_⟩
    dsimp only
    rcases w.exchange p request with ⟨_ | _, _, _⟩ <;> rfl

theorem Act.run_cases (a : Act) (w : Wire) (p : Peer) :
    ((a.run (w, p)).2.replies = p.replies ∧ (a.run (w, p)).1.framing = w.framing ∧
        (w.leftover = [] → (a.run (w, p)).1.leftover = [])) ∨
      ∃ request, a.run (w, p) = (w.exchange p request).2 := by
  cases a with
  | connect =>
    refine .inl ?_
    cases hdial : p.dial with
    | error e => simp [run, Wire.connect, Peer.connect, hdial, Except.map]
    | ok _ => simp [run, Wire.connect, Peer.connect, hdial, Except.map, framing, leftover]
  | close => exact .inl ⟨rfl, rfl, fun _ => rfl⟩
  | select unit => exact .inl ⟨rfl, rfl, id⟩
  | read block =>
    rcases w.call_cases p (.read block) with hcall | ⟨request, hcall⟩
    · exact .inl (by simp [run, Wire.read, hcall])
    · exact .inr ⟨request, hcall⟩
  | write call =>
    rcases w.call_cases p call with hcall | ⟨request, hcall⟩
    · exact .inl (by simp [run, Wire.write, hcall])
    · exact .inr ⟨request, hcall⟩

theorem exchange_replies (w : Wire) (p : Peer) (request : List UInt8) :
    ∃ taken, p.replies = taken ++ (w.exchange p request).2.2.replies := by
  rw [exchange_eq]
  split_ifs
  · exact ⟨[], rfl⟩
  · rcases w.reach_cases p with ⟨e, hreach⟩ | ⟨s, p', hreach, hreplies, -⟩
    · rw [hreach]
      exact ⟨[], rfl⟩
    · have hsettle : ∀ received, (w.settle (p'.take s request).2 received).2.2 =
          (p'.take s request).2 := by
        rintro ⟨_ | _, _⟩ <;> rfl
      rw [hreach, hsettle, ← hreplies]
      rcases take_cases p' s request with ⟨hrest, -⟩ | ⟨reply, hrest, -⟩
      · exact ⟨[], hrest.symm⟩
      · exact ⟨[reply], hrest⟩

theorem after_replies (acts : List Act) (s : Wire × Peer) :
    ∃ taken, s.2.replies = taken ++ (after acts s).2.replies := by
  induction acts generalizing s with
  | nil => exact ⟨[], rfl⟩
  | cons a acts ih =>
    obtain ⟨later, hlater⟩ := ih (a.run s)
    have hfirst : ∃ taken, s.2.replies = taken ++ (a.run s).2.replies := by
      rcases a.run_cases s.1 s.2 with ⟨hreplies, -⟩ | ⟨request, hrun⟩
      · exact ⟨[], hreplies.symm⟩
      · rw [show a.run s = (s.1.exchange s.2 request).2 from hrun]
        exact exchange_replies s.1 s.2 request
    obtain ⟨first, hfirst⟩ := hfirst
    refine ⟨first ++ later, ?_⟩
    rw [hfirst, hlater, List.append_assoc]
    rfl

theorem Act.run_leftover (a : Act) {w : Wire} (h : w.leftover = []) (p : Peer) :
    ∃ taken, p.replies = taken ++ (a.run (w, p)).2.replies ∧
      (a.run (w, p)).1.framing = w.framing ∧
      ((a.run (w, p)).1.leftover = [] ↔ ∀ reply ∈ taken, ¬ w.framing.Overruns reply.bytes) := by
  rcases a.run_cases w p with ⟨hreplies, hframing, hleft⟩ | ⟨request, hrun⟩
  · exact ⟨[], hreplies.symm, hframing, iff_of_true (hleft h) nofun⟩
  · obtain ⟨taken, hhandles⟩ := exchange_handles h p request
    rw [hrun]
    exact ⟨taken, hhandles.replies, hhandles.framing, hhandles.leftover⟩

theorem after_leftover (acts : List Act) {w : Wire} (h : w.leftover = []) (p : Peer) :
    ∃ taken, p.replies = taken ++ (after acts (w, p)).2.replies ∧
      ((∀ done, done <+: acts → (after done (w, p)).1.leftover = []) ↔
        ∀ reply ∈ taken, ¬ w.framing.Overruns reply.bytes) := by
  induction acts generalizing w p with
  | nil =>
    refine ⟨[], rfl, iff_of_true (fun done hdone => ?_) nofun⟩
    rw [List.prefix_nil.1 hdone]
    exact h
  | cons a acts ih =>
    obtain ⟨first, hfirst, hframing, hleft⟩ := a.run_leftover h p
    by_cases hclean : (a.run (w, p)).1.leftover = []
    · obtain ⟨later, hlater, hiff⟩ := ih hclean (a.run (w, p)).2
      refine ⟨first ++ later, ?_, ?_⟩
      · rw [hfirst, hlater, List.append_assoc]
        rfl
      · have hdone : (∀ done, done <+: a :: acts → (after done (w, p)).1.leftover = []) ↔
            ∀ done, done <+: acts → (after done (a.run (w, p))).1.leftover = [] := by
          constructor
          · intro hall done hdone
            exact hall (a :: done) (List.cons_prefix_cons.2 ⟨rfl, hdone⟩)
          · intro hall done hdone
            rcases List.prefix_cons_iff.1 hdone with rfl | ⟨rest, rfl, hrest⟩
            · exact h
            · exact hall rest hrest
        rw [hdone, List.forall_mem_append, hiff, hframing]
        exact (and_iff_right (hleft.1 hclean)).symm
    · obtain ⟨later, hlater⟩ := after_replies acts (a.run (w, p))
      refine ⟨first ++ later, ?_, iff_of_false ?_ ?_⟩
      · rw [hfirst, hlater, List.append_assoc]
        rfl
      · intro hall
        exact hclean (hall [a] (by simp))
      · intro hall
        exact hclean (hleft.2 fun reply hreply => hall reply (List.mem_append_left _ hreply))

/-- Whatever is done to a new client, nothing waits for a request but its own reply, if and only if
no reply that was taken overruns its response. -/
theorem answersNext_iff (url : ConnectUrl) (baud : Nat) (p : Peer) (acts : List Act) :
    ∃ taken, p.replies = taken ++ (after acts (new url baud, p)).2.replies ∧
      ((∀ done, done <+: acts →
          (after done (new url baud, p)).1.leftover = [] ∧
            (after done (new url baud, p)).1.AnswersNext (after done (new url baud, p)).2) ↔
        ∀ reply ∈ taken, ¬ (new url baud).framing.Overruns reply.bytes) := by
  obtain ⟨taken, hreplies, hiff⟩ := after_leftover acts (rfl : (new url baud).leftover = []) p
  refine ⟨taken, hreplies, ?_⟩
  rw [← hiff]
  constructor
  · intro h done hdone
    exact (h done hdone).1
  · intro h done hdone
    exact ⟨h done hdone, answersNext_of_leftover (h done hdone) _⟩

/-! ## Noise that begins like a frame -/

/-- A frame with one register, from the first unit of a serial line. -/
def registerFrame (value : UInt16) : List UInt8 :=
  let payload := [1, 3, 2] ++ bytesOf [value]
  payload ++ Framing.request.checkBytes payload

/-- Noise that makes no sense at first, and then is a frame without its check. -/
def noise : List UInt8 := [1, 0, 0, 1, 3, 2, 163, 181]

/-- A peer that answers its first request with noise and its second one with a register. -/
def noisyPeer : Peer := ⟨.ok (), [⟨noise, false⟩, ⟨registerFrame 9, false⟩], 0, []⟩

/-- The second reading is made of noise: the start of the reply passes for the check of what the
first one has left. -/
theorem noise_shifts_replies :
    let block := Block.holding 11 1
    let s := after [.connect, .read block] (new (.rtu "/dev/ttyUSB0") 9600, noisyPeer)
    s.1.leftover = noise.drop 3 ∧
      s.2.replies.map Reply.bytes = [registerFrame 9] ∧
      (s.1.read s.2 block).1.toOption = some [41909] ∧
      ¬ s.1.AnswersNext s.2 := by
  intro block s
  have hreplies : s.2.replies.map Reply.bytes = [registerFrame 9] := by decide +kernel
  refine ⟨by decide +kernel, hreplies, by decide +kernel, fun hnext => ?_⟩
  have hresponse : (s.1.exchange s.2 []).1 = .ok (noise.drop 3 ++ [1, 3]) := by rfl
  obtain ⟨reply, hhead, hprefix⟩ := hnext [] _ hresponse
  have hreply : reply.bytes = registerFrame 9 := by
    have hbytes := congrArg List.head? hreplies
    rw [List.head?_map, hhead] at hbytes
    exact Option.some.inj hbytes
  rw [hreply] at hprefix
  exact absurd hprefix (by decide +kernel)

end Wire

end HomeMetering.Modbus
