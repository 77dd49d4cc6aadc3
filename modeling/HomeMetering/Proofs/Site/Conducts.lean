import HomeMetering.Proofs.Modbus.Exclusive
import HomeMetering.Proofs.Site.Reading

/-!
# Buses that answer alike

A bus may open or not by the rate alone, and answer alike whenever it is asked alike at one rate.
What a job on such a bus ends with is told by how the bus behaves, whatever was asked before.
-/

namespace HomeMetering

open Modbus Site Site.Job

namespace Site

/-! ## Open clients -/

/-- Where an open client leads to, and the rate it was opened with. -/
def open? (s : Site) (i : ClientId) : Option (String × Nat) :=
  s.clients[i]?.bind fun c => if c.isOpen then some (c.url, c.baud) else none

variable {s t : Site} {i : ClientId} {url : String} {rate : Nat}

theorem open?_eq_some :
    s.open? i = some (url, rate) ↔
      ∃ c, s.clients[i]? = some c ∧ c.isOpen ∧ c.url = url ∧ c.baud = rate := by
  unfold open?
  rw [Option.bind_eq_some_iff]
  simp

theorem change_of_ne_close {q : Request} (hq : q ≠ .close i) (c : Client) :
    (q.change i c).url = c.url ∧ (q.change i c).baud = c.baud ∧
      (q.change i c).isOpen = c.isOpen := by
  cases q with
  | lock j | unlock j | select j unit =>
    rw [Request.change]
    split_ifs <;> exact ⟨rfl, rfl, rfl⟩
  | close j =>
    have hne : j ≠ i := fun hj => hq (congrArg Request.close hj)
    rw [Request.change, if_neg hne]
    exact ⟨rfl, rfl, rfl⟩
  | _ => exact ⟨rfl, rfl, rfl⟩

theorem open?_answer (h : s.open? i = some (url, rate)) {q : Request} (hq : q ≠ .close i) :
    (s.answer q).2.open? i = some (url, rate) := by
  obtain ⟨c, hc, hopen, hurl, hrate⟩ := open?_eq_some.1 h
  obtain ⟨hurl', hbaud', hopen'⟩ := change_of_ne_close hq c
  exact open?_eq_some.2 ⟨_, getElem?_answer hc q, hopen'.trans hopen, hurl'.trans hurl,
    hbaud'.trans hrate⟩

/-- No client was closed. -/
def KeepsOpen (s t : Site) : Prop :=
  ∀ i url rate, s.open? i = some (url, rate) → t.open? i = some (url, rate)

theorem KeepsOpen.trans {u : Site} (h : s.KeepsOpen t) (h' : t.KeepsOpen u) : s.KeepsOpen u :=
  fun i url rate hi => h' i url rate (h i url rate hi)

theorem open?_connect {c : ClientId} (h : (s.connect url rate).1 = .ok c) :
    (s.connect url rate).2.open? c = some (url, rate) := by
  unfold connect at h ⊢
  split at h
  · cases h
  · dsimp only at h ⊢
    split at h
    · cases h
    · rename_i hopens
      cases h
      rw [if_neg hopens]
      exact open?_eq_some.2 ⟨_, List.getElem?_concat_length, rfl, rfl, rfl⟩

namespace Job

theorem keepsOpen_of_uses {α : Type} {x : Job α} {Q : α → Prop} (hx : x.All Request.IsUse Q)
    {s t : Site} {a : α} (h : x.Runs s a t) : s.KeepsOpen t := by
  intro i url rate hs
  refine h.keeps hx (I := fun u => u.open? i = some (url, rate)) (fun u other q hq hu => ?_) hs
  refine open?_answer (s := u.withHardware other) hu ?_
  rintro rfl
  exact hq

end Job

end Site

/-! ## How a bus behaves -/

/-- How a bus behaves at every rate: whether it opens, and what its units answer. -/
structure Conduct where
  opens : Nat → Bool
  registers : Nat → UInt8 → Block → Except BusError (List UInt16)
  written : Nat → UInt8 → UInt16 → UInt16 → Except BusError Unit

/-- The unit that is set after a request through one client. -/
def Site.Request.unitAfter : Request → UInt8 → UInt8
  | .select _ unit, _ => unit
  | _, unit => unit

namespace Conduct

variable {α β : Type}

/-- What is answered through an open client at a rate, while a unit is set. -/
def answer (b : Conduct) (rate : Nat) (unit : UInt8) : (q : Request) → q.Answer
  | .read _ block => b.registers rate unit block
  | .write _ address value => b.written rate unit address value
  | q => ((Site.new [] [] ⟨fun _ => .timeout, .notFound⟩).answer q).1

/-- What a job that goes through one open client ends with. -/
def outcome (b : Conduct) (rate : Nat) : UInt8 → Job α → α
  | _, .done a => a
  | unit, .ask q next => b.outcome rate (q.unitAfter unit) (next (b.answer rate unit q))

/-- Whatever a request asks of the bus at an address is answered so. -/
def Agrees (b : Conduct) (url : String) (s : Site) : Request → Prop
  | .connect u rate => u = url → (s.connect u rate).1.isOk = b.opens rate
  | .read i block => ∀ c, s.clients[i]? = some c → c.isOpen → c.url = url →
    (s.read i block).1 = b.registers c.baud c.unit block
  | .write i address value => ∀ c, s.clients[i]? = some c → c.isOpen → c.url = url →
    (s.write i address value).1 = b.written c.baud c.unit address value
  | _ => True

section

variable {b : Conduct} {rate : Nat} {unit set : UInt8} {client : ClientId}

theorem outcome_readBlock (block : Block) (f : Except BusError (List UInt16) → Job β) :
    b.outcome rate set (readBlock client unit block >>= f) =
      b.outcome rate unit (f (block.accept (b.registers rate unit block))) := rfl

theorem outcome_of_all {x : Job α} {P : Request → Prop} {Q : α → Prop} (hx : x.All P Q) :
    Q (b.outcome rate set x) := by
  induction x generalizing set with
  | done a => exact hx
  | ask q next ih => exact ih _ (hx.2 _)

theorem outcome_map (g : α → β) (x : Job α) :
    b.outcome rate set (x >>= fun a => pure (g a)) = g (b.outcome rate set x) := by
  induction x generalizing set with
  | done a => rfl
  | ask q next ih => exact ih _

end

variable {b : Conduct} {url : String} {s t : Site} {i : ClientId} {c : Client}

theorem answer_of_agrees {q : Request} (hq : q.IsOn i) (h : b.Agrees url s q)
    (hc : s.clients[i]? = some c) (hopen : c.isOpen) (hurl : c.url = url) :
    (s.answer q).1 = b.answer c.baud c.unit q := by
  cases q with
  | read j block | write j address value =>
    obtain rfl := hq
    exact h c hc hopen hurl
  | lock j | unlock j | select j unit => rfl
  | _ => exact hq.elim

theorem unit_change {q : Request} (hq : q.IsOn i) (c : Client) :
    (q.change i c).unit = q.unitAfter c.unit := by
  cases q with
  | lock j | unlock j | select j unit =>
    obtain rfl := hq
    rw [Request.change, if_pos rfl]
    rfl
  | read j block | write j address value => rfl
  | _ => exact hq.elim

/-- A job that goes through an open client ends as the conduct of its bus tells. -/
theorem outcome_of_runs {x : Job α} {Q : α → Prop} {a : α} (hx : x.All (Request.IsOn i) Q)
    (h : x.RunsUnder (b.Agrees url) s a t) (hc : s.clients[i]? = some c) (hopen : c.isOpen)
    (hurl : c.url = url) : a = b.outcome c.baud c.unit x := by
  induction x generalizing s c with
  | done a' =>
    obtain ⟨rfl, -⟩ := h
    rfl
  | ask q next ih =>
    obtain ⟨other, hagrees, h⟩ := h
    have hne : q ≠ .close i := by
      rintro rfl
      exact hx.1
    obtain ⟨hurl', hbaud', hopen'⟩ := change_of_ne_close hne c
    rw [answer_of_agrees hx.1 hagrees hc hopen hurl] at h
    have hend := ih _ (hx.2 _) h (getElem?_answer (s := s.withHardware other) hc q)
      (hopen'.trans hopen) (hurl'.trans hurl)
    rw [hbaud', unit_change hx.1] at hend
    exact hend

end Conduct

/-! ## A site left alone -/

/-- How the bus at an address behaves while nobody changes the devices. -/
def Site.conduct (s : Site) (url : String) : Conduct where
  opens rate := (s.connect url rate).1.isOk
  registers rate unit block := s.respond { Client.new url rate with unit } block
  written rate unit address value :=
    (s.reach { Client.new url rate with unit }).bind fun reached =>
      (reached.2.write address value).map fun _ => ()

namespace Site

variable {s t : Site} {url : String}

theorem reach_congr (h : t.buses = s.buses) {c c' : Client} (hurl : c'.url = c.url)
    (hbaud : c'.baud = c.baud) (hunit : c'.unit = c.unit) (hopen : c'.isOpen = c.isOpen) :
    t.reach c' = s.reach c := by
  unfold reach
  rw [h, hurl, hbaud, hunit, hopen]

theorem conduct_agrees (h : t.buses = s.buses) (q : Request) : (s.conduct url).Agrees url t q := by
  cases q with
  | connect u rate =>
    rintro rfl
    show (t.connect u rate).1.isOk = (s.connect u rate).1.isOk
    unfold connect
    rw [h]
    cases s.buses.lookup u with
    | none => rfl
    | some line =>
      dsimp only
      split_ifs <;> rfl
  | read i block =>
    intro c hc hopen hurl
    have hreach : t.reach c = s.reach { Client.new url c.baud with unit := c.unit } :=
      reach_congr h hurl rfl rfl hopen
    show (t.read i block).1 = (s.reach _).bind _
    unfold read
    rw [hc, ← hreach]
  | write i address value =>
    intro c hc hopen hurl
    have hreach : t.reach c = s.reach { Client.new url c.baud with unit := c.unit } :=
      reach_congr h hurl rfl rfl hopen
    show (t.write i address value).1 = (s.reach _).bind _
    unfold write
    rw [hc, ← hreach]
    have hrecord : (t.record (.wrote i c.unit address value)).reach c = t.reach c := rfl
    dsimp only
    rw [hrecord]
    cases t.reach c with
    | error e => rfl
    | ok reached =>
      obtain ⟨line, d⟩ := reached
      show _ = (d.write address value).map _
      dsimp only
      cases d.write address value <;> rfl
  | _ => trivial

theorem buses_answer (s : Site) {q : Request} (h : ∀ i address value, q ≠ .write i address value) :
    (s.answer q).2.buses = s.buses := by
  cases q with
  | write i address value => exact absurd rfl (h i address value)
  | connect u rate =>
    show (s.connect u rate).2.buses = s.buses
    unfold connect
    split
    · rfl
    · dsimp only
      split_ifs <;> rfl
  | read i block =>
    show (s.read i block).2.buses = s.buses
    unfold read
    split <;> rfl
  | close i =>
    show (s.close i).2.buses = s.buses
    unfold close
    split <;> rfl
  | openPort device rate =>
    show (s.openPort device rate).2.buses = s.buses
    unfold openPort
    dsimp only
    split <;> rfl
  | firstTelegram port timeout =>
    show (s.firstTelegram port timeout).2.buses = s.buses
    unfold firstTelegram
    split
    · rfl
    · split <;> rfl
  | _ => rfl

theorem buses_write (s : Site) {i : ClientId} {address value : UInt16} {e : BusError}
    (h : (s.write i address value).1 = .error e) : (s.write i address value).2.buses = s.buses := by
  unfold write at h ⊢
  split
  · rfl
  · dsimp only at h ⊢
    split
    · rfl
    · split
      · rfl
      · simp_all

end Site

/-- A request that asks nothing of a bus. -/
def Site.Request.IsIdle : Request → Prop
  | .connect _ _ | .read _ _ | .write _ _ _ => False
  | _ => True

namespace Site.Job

variable {α β : Type} {Q : α → Prop} {R : β → Prop}

/-- A job that asks nothing of a bus once a write got through, and what it ends with then. -/
def WritesLast (Q : α → Prop) : Job α → Prop
  | done _ => True
  | ask (.write _ _ _) next =>
    (∀ e, (next (.error e)).WritesLast Q) ∧ (next (.ok ())).All Request.IsIdle Q
  | ask _ next => ∀ answer, (next answer).WritesLast Q

theorem WritesLast.bind {x : Job α} {f : α → Job β} (hx : x.WritesLast Q)
    (hf : ∀ a, (f a).WritesLast R) (hQ : ∀ a, Q a → (f a).All Request.IsIdle R) :
    (x >>= f).WritesLast R := by
  induction x with
  | done a => exact hf a
  | ask q next ih =>
    cases q with
    | write i address value => exact ⟨fun e => ih _ (hx.1 e), hx.2.bind hQ⟩
    | _ => exact fun answer => ih answer (hx answer)

theorem WritesLast.after {x : Job α} {f : α → Job β} (hx : x.WritesLast fun _ => False)
    (hf : ∀ a, (f a).WritesLast R) : (x >>= f).WritesLast R :=
  hx.bind hf fun _ h => h.elim

theorem writesLast_readBlock (client : ClientId) (unit : UInt8) (block : Block) :
    (readBlock client unit block).WritesLast fun _ => False :=
  fun _ _ _ _ => trivial

theorem writesLast_writeRegister (client : ClientId) (unit : UInt8) (address value : UInt16) :
    (writeRegister client unit address value).WritesLast fun r => r = .ok () :=
  fun _ _ => ⟨fun _ _ => trivial, trivial, fun _ => rfl⟩

theorem runsUnder_of_idle {x : Job α} (hx : x.All Request.IsIdle Q) (b : Conduct) (url : String)
    (s : Site) : x.RunsUnder (b.Agrees url) s (x.run s).1 (x.run s).2 := by
  induction x generalizing s with
  | done a => exact ⟨rfl, rfl⟩
  | ask q next ih =>
    refine ⟨s, ?_, ih _ (hx.2 _) _⟩
    cases q with
    | connect u rate | read i block | write i address value => exact hx.1.elim
    | _ => trivial

/-- On a site that is left alone, such a job meets the bus as it was at first. -/
theorem WritesLast.runsUnder {x : Job α} (hx : x.WritesLast Q) {s t : Site} {url : String}
    (h : t.buses = s.buses) :
    x.RunsUnder ((s.conduct url).Agrees url) t (x.run t).1 (x.run t).2 := by
  induction x generalizing t with
  | done a => exact ⟨rfl, rfl⟩
  | ask q next ih =>
    refine ⟨t, conduct_agrees h q, ?_⟩
    by_cases hwrite : ∃ i address value, q = .write i address value
    · obtain ⟨i, address, value, rfl⟩ := hwrite
      show (next (t.write i address value).1).RunsUnder _ (t.write i address value).2
        ((next (t.write i address value).1).run (t.write i address value).2).1
        ((next (t.write i address value).1).run (t.write i address value).2).2
      cases hanswer : (t.write i address value).1 with
      | error e => exact ih _ (hx.1 e) ((buses_write t hanswer).trans h)
      | ok done => exact runsUnder_of_idle hx.2 ..
    · have hq : ∀ i address value, q ≠ .write i address value :=
        fun i address value heq => hwrite ⟨i, address, value, heq⟩
      refine ih _ ?_ ((buses_answer t hq).trans h)
      cases q with
      | write i address value => exact absurd rfl (hq i address value)
      | _ => exact hx _

end Site.Job

end HomeMetering
