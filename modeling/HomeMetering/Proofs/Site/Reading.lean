import HomeMetering.Modbus.Link
import HomeMetering.Proofs.Site.Jobs
import Mathlib.Tactic.SplitIfs

/-!
# Reading changes no device

A read selects a unit and leaves an entry in the journal. What the units behind the clients answer
stays the same, and so does what followers have read: jobs that do no more than read give the same
whichever of them goes first.
-/

namespace HomeMetering

open Modbus Site

/-- What becomes of an answer to a read: a shorter one is an error. -/
def Modbus.Block.accept (block : Block) (answer : Except BusError (List UInt16)) :
    Except BusError (List UInt16) :=
  answer.bind fun registers =>
    if registers.length < block.quantity.toNat then
      .error (.shortResponse block.quantity.toNat registers.length)
    else .ok registers

namespace Site

/-- What the unit that a client has set answers to a read. -/
def respond (s : Site) (c : Client) (block : Block) : Except BusError (List UInt16) :=
  (s.reach c).bind fun reached => reached.2.read block

theorem respond_congr (s : Site) {c c' : Client} (block : Block) (hurl : c'.url = c.url)
    (hbaud : c'.baud = c.baud) (hunit : c'.unit = c.unit) (hopen : c'.isOpen = c.isOpen) :
    s.respond c' block = s.respond c block := by
  unfold respond reach
  rw [hurl, hbaud, hunit, hopen]

/-- What a unit behind a client answers to a read. -/
def registersOf (s : Site) (client : ClientId) (unit : UInt8) (block : Block) :
    Except BusError (List UInt16) :=
  match s.clients[client]? with
  | none => .error .notConnected
  | some c => s.respond { c with unit } block

/-- The telegram that the follower of a port has read last, with its number. -/
def latestOf (s : Site) (port : PortId) : Option (Nat × Telegram) :=
  s.ports[port]?.bind fun p => p.follower.map fun f => (f.count, f.latest)

/-- Whoever reads gets the same on either site. -/
structure SameDevices (s t : Site) : Prop where
  registers : ∀ client unit block, t.registersOf client unit block = s.registersOf client unit block
  latest : ∀ port, t.latestOf port = s.latestOf port

theorem SameDevices.refl (s : Site) : s.SameDevices s := ⟨fun _ _ _ => rfl, fun _ => rfl⟩

theorem SameDevices.symm {s t : Site} (h : s.SameDevices t) : t.SameDevices s :=
  ⟨fun client unit block => (h.registers client unit block).symm, fun port => (h.latest port).symm⟩

theorem SameDevices.trans {s t u : Site} (h : s.SameDevices t) (h' : t.SameDevices u) :
    s.SameDevices u :=
  ⟨fun client unit block => (h'.registers client unit block).trans (h.registers client unit block),
    fun port => (h'.latest port).trans (h.latest port)⟩

theorem sameDevices_record (s : Site) (e : Entry) : s.SameDevices (s.record e) :=
  ⟨fun _ _ _ => rfl, fun _ => rfl⟩

theorem sameDevices_changeClient (s : Site) (i : ClientId) {f : Client → Client}
    (h : ∀ c, (f c).url = c.url ∧ (f c).baud = c.baud ∧ (f c).isOpen = c.isOpen) :
    s.SameDevices (s.changeClient i f) := by
  refine ⟨fun client unit block => ?_, fun _ => rfl⟩
  have hclient : (s.changeClient i f).clients[client]? =
      (s.clients[client]?).map fun c => if i = client then f c else c := by
    show (s.clients.modify i f)[client]? = _
    rw [List.getElem?_modify]
    split_ifs <;> simp
  unfold registersOf
  rw [hclient]
  cases s.clients[client]? with
  | none => rfl
  | some c =>
    dsimp only [Option.map_some]
    split_ifs
    · obtain ⟨hurl, hbaud, hopen⟩ := h c
      exact s.respond_congr block hurl hbaud rfl hopen
    · rfl

theorem read_eq (s : Site) {client : ClientId} {unit : UInt8} (block : Block)
    (h : ∀ c, s.clients[client]? = some c → c.unit = unit) :
    (s.read client block).1 = s.registersOf client unit block ∧
      s.SameDevices (s.read client block).2 := by
  unfold read registersOf
  cases hc : s.clients[client]? with
  | none => exact ⟨rfl, .refl s⟩
  | some c => exact ⟨s.respond_congr block rfl rfl (h c hc) rfl, s.sameDevices_record _⟩

theorem unit_select (s : Site) (client : ClientId) (unit : UInt8) :
    ∀ c, (s.changeClient client fun c => { c with unit }).clients[client]? = some c →
      c.unit = unit := by
  intro c hc
  rw [changeClient, List.getElem?_modify_eq, Option.map_eq_map, Option.map_eq_some_iff] at hc
  obtain ⟨_, _, rfl⟩ := hc
  rfl

/-! ## Jobs that only read -/

namespace Job

variable {α β : Type}

/-- A job that only reads registers and telegrams. -/
inductive Reads : Job α → Prop
  | done (a : α) : Reads (pure a)
  | registers (client : ClientId) (unit : UInt8) (block : Block)
      (f : Except BusError (List UInt16) → Job α) (h : ∀ answer, (f answer).Reads) :
      Reads (readBlock client unit block >>= f)
  | telegram (port : PortId) (f : Option (Nat × Telegram) → Job α)
      (h : ∀ latest, (f latest).Reads) : Reads (request (.latest port) >>= f)

theorem Reads.bind {x : Job α} {f : α → Job β} (hx : x.Reads) (hf : ∀ a, (f a).Reads) :
    (x >>= f).Reads := by
  induction hx with
  | done a => exact hf a
  | registers client unit block g _ ih =>
    rw [LawfulMonad.bind_assoc]
    exact .registers client unit block _ fun answer => ih answer
  | telegram port g _ ih =>
    rw [LawfulMonad.bind_assoc]
    exact .telegram port _ fun latest => ih latest

theorem reads_readBlock (client : ClientId) (unit : UInt8) (block : Block) :
    (readBlock client unit block).Reads := by
  rw [← bind_pure (readBlock client unit block)]
  exact .registers client unit block _ fun answer => .done answer

theorem reads_latest (port : PortId) : (request (.latest port)).Reads :=
  .telegram port _ fun latest => .done latest

theorem run_readBlock (client : ClientId) (unit : UInt8) (block : Block) (s : Site) :
    ((readBlock client unit block).run s).1 = block.accept (s.registersOf client unit block) ∧
      s.SameDevices ((readBlock client unit block).run s).2 := by
  let locked := s.changeClient client fun c => { c with isLocked := true }
  let selected := locked.changeClient client fun c => { c with unit }
  have hlocked : s.SameDevices locked := sameDevices_changeClient _ _ fun _ => ⟨rfl, rfl, rfl⟩
  have hselected : s.SameDevices selected :=
    hlocked.trans (sameDevices_changeClient _ _ fun _ => ⟨rfl, rfl, rfl⟩)
  obtain ⟨hanswer, hread⟩ := selected.read_eq block (locked.unit_select client unit)
  rw [hselected.registers] at hanswer
  refine ⟨congrArg block.accept hanswer, (hselected.trans hread).trans ?_⟩
  exact sameDevices_changeClient _ _ fun _ => ⟨rfl, rfl, rfl⟩

/-- A job that only reads leaves the devices as they are, and gives the same wherever they are the
same. -/
theorem Reads.steady {x : Job α} (hx : x.Reads) {s t : Site} (h : s.SameDevices t) :
    (x.run s).1 = (x.run t).1 ∧ s.SameDevices (x.run s).2 := by
  induction hx generalizing s t with
  | done a => exact ⟨rfl, .refl s⟩
  | registers client unit block f _ ih =>
    obtain ⟨hs, hafter⟩ := run_readBlock client unit block s
    obtain ⟨ht, hafter'⟩ := run_readBlock client unit block t
    rw [run_seq, run_seq, hs, ht, h.registers]
    obtain ⟨hvalue, hend⟩ := ih _ ((hafter.symm.trans h).trans hafter')
    exact ⟨hvalue, hafter.trans hend⟩
  | telegram port f _ ih =>
    have hrun : ∀ u : Site, (request (.latest port) >>= f).run u = (f (u.latestOf port)).run u :=
      fun _ => rfl
    rw [hrun, hrun, h.latest]
    exact ih _ h

end Job

end Site

end HomeMetering
