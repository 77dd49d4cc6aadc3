import HomeMetering.Proofs.Meter.OneWrite
import HomeMetering.Proofs.Site.Courses
import HomeMetering.Proofs.Site.Reading

/-!
# Requests and the units they are meant for

The unit that requests go to is set in the client, which all meters of a bus share. A job keeps
others from the client between setting its unit and asking, so its request reaches that unit, and
what it ends with is what that unit answered.
-/

namespace HomeMetering

open Modbus Site Site.Job

namespace Site

/-! ## Accesses -/

/-- What a unit behind a client answers to a write. -/
def acceptanceOf (s : Site) (client : ClientId) (unit : UInt8) (address value : UInt16) :
    Except BusError Unit :=
  match s.clients[client]? with
  | none => .error .notConnected
  | some c => (s.reach { c with unit }).bind fun reached =>
      (reached.2.write address value).map fun _ => ()

theorem fst_write {s : Site} {i : ClientId} {c : Client} (hclient : s.clients[i]? = some c)
    (address value : UInt16) :
    (s.write i address value).1 = s.acceptanceOf i c.unit address value := by
  unfold write acceptanceOf
  rw [hclient]
  have hreach : (s.record (.wrote i c.unit address value)).reach c = s.reach c := rfl
  dsimp only
  rw [hreach]
  cases s.reach c with
  | error e => rfl
  | ok reached =>
    dsimp only [Except.bind]
    cases reached.2.write address value <;> rfl

/-- A call that reads or writes registers of one unit. -/
inductive Access where
  | read (client : ClientId) (unit : UInt8) (block : Block)
  | write (client : ClientId) (unit : UInt8) (address value : UInt16)

namespace Access

abbrev Answer : Access → Type
  | read _ _ _ => Except BusError (List UInt16)
  | write _ _ _ _ => Except BusError Unit

def client : Access → ClientId
  | read client _ _ | write client _ _ _ => client

def unit : Access → UInt8
  | read _ unit _ | write _ unit _ _ => unit

def job : (x : Access) → Job x.Answer
  | read client unit block => readBlock client unit block
  | write client unit address value => writeRegister client unit address value

/-- The request that reaches the unit. -/
def request : Access → Request
  | read client _ block => .read client block
  | write client _ address value => .write client address value

/-- What the call makes of the answer. -/
def accept : (x : Access) → x.request.Answer → x.Answer
  | read _ _ block, answer => block.accept answer
  | write _ _ _ _, answer => answer

/-- What is noted when the client performs the request as it is meant. -/
def entry : Access → Entry
  | read client unit block => .read client unit block
  | write client unit address value => .wrote client unit address value

/-- What the call gives when its unit answers, whichever unit is set. -/
def answerOn (s : Site) : (x : Access) → x.Answer
  | read client unit block => block.accept (s.registersOf client unit block)
  | write client unit address value => s.acceptanceOf client unit address value

variable {α : Type} {s : Site} {c : Client}

/-- A job that makes the call and ends with what it gives. -/
def issue (x : Access) (f : x.Answer → α) : Job α := x.job >>= fun answer => pure (f answer)

theorem issue_eq (x : Access) (f : x.Answer → α) :
    x.issue f = ask (.lock x.client) fun _ => ask (.select x.client x.unit) fun _ =>
      ask x.request fun answer => ask (.unlock x.client) fun _ => done (f (x.accept answer)) := by
  cases x <;> rfl

theorem perform (x : Access) (hclient : s.clients[x.client]? = some c) (hunit : c.unit = x.unit) :
    (s.answer x.request).2.journal = x.entry :: s.journal ∧
      x.accept (s.answer x.request).1 = x.answerOn s := by
  cases x with
  | read client unit block =>
    obtain rfl : c.unit = unit := hunit
    constructor
    · show (s.read client block).2.journal = _
      unfold Site.read
      rw [show s.clients[client]? = some c from hclient]
      rfl
    · refine congrArg block.accept (s.read_eq block fun c' hc' => ?_).1
      obtain rfl : c = c' := Option.some.inj (hclient.symm.trans hc')
      rfl
  | write client unit address value =>
    obtain rfl : c.unit = unit := hunit
    exact ⟨journal_write hclient address value, fst_write hclient address value⟩

/-! ## What a call has said -/

/-- How far a call has come: what it has said, and what it asks for next. -/
def Asks (x : Access) (d : Dialogue) (q : Request) : Prop :=
  (d = [] ∧ q = .lock x.client) ∨
    (d = [⟨.lock x.client, ()⟩] ∧ q = .select x.client x.unit) ∨
    (d = [⟨.select x.client x.unit, ()⟩, ⟨.lock x.client, ()⟩] ∧ q = x.request) ∨
    ((∃ answer, d = [⟨x.request, answer⟩, ⟨.select x.client x.unit, ()⟩, ⟨.lock x.client, ()⟩]) ∧
      q = .unlock x.client)

/-- What a call that has ended was told. -/
def Gives (x : Access) (f : x.Answer → α) (d : Dialogue) (a : α) : Prop :=
  ∃ answer, a = f (x.accept answer) ∧
    d = [⟨.unlock x.client, ()⟩, ⟨x.request, answer⟩, ⟨.select x.client x.unit, ()⟩,
      ⟨.lock x.client, ()⟩]

theorem since_issue (x : Access) (f : x.Answer → α) :
    (x.issue f).Since x.Asks (x.Gives f) [] := by
  rw [issue_eq]
  refine ⟨Or.inl ⟨rfl, rfl⟩, fun _ => ⟨Or.inr (Or.inl ⟨rfl, rfl⟩), fun _ => ?_⟩⟩
  refine ⟨Or.inr (Or.inr (Or.inl ⟨rfl, rfl⟩)), fun answer => ?_⟩
  exact ⟨Or.inr (Or.inr (Or.inr ⟨⟨answer, rfl⟩, rfl⟩)), fun _ => ⟨answer, rfl, rfl⟩⟩

theorem since_due (x : Access) (f : x.Answer → α) {n : Nat} (hclient : x.client < n) :
    (x.issue f).Since (Request.Due n fun _ _ _ _ => True) (fun _ _ => True) [] := by
  rw [issue_eq]
  refine ⟨⟨rfl, Or.inl hclient⟩, fun _ => ⟨rfl, fun _ => ⟨?_, fun answer => ⟨?_, fun _ =>
    trivial⟩⟩⟩⟩
  · cases x with
    | read client unit block => exact rfl
    | write client unit address value => exact ⟨rfl, trivial⟩
  · cases x <;> rfl

end Access

/-! ## Calls side by side -/

namespace Pool

variable {α : Type} {start p q : Pool α} {ms : List (Move α)}

/-- A move that begins only jobs that drive clients in turn with others. -/
def DrivesInTurn (p : Pool α) : Move α → Prop
  | .spawn job =>
    job.Since (Request.Due p.site.clients.length fun _ _ _ _ => True) (fun _ _ => True) []
  | .resume _ _ => False
  | .step _ | .drift _ => True

/-- Every job drives clients in turn with the others, and the clients are kept accordingly. -/
structure InTurn (start : Pool α) (ms : List (Move α)) (p : Pool α) : Prop where
  guarded : p.Guarded fun i => dialogue i start ms
  jobs : ∀ (i : Nat) (job : Job α), p.jobs[i]? = some job → ∃ n ≤ p.site.clients.length,
    job.Since (Request.Due n fun _ _ _ _ => True) (fun _ _ => True) (dialogue i start ms)

theorem InTurn.step (h : InTurn start ms p) (hp : start.course? ms = some p) {i : Nat}
    (hq : p.step? i = some q) : InTurn start (ms ++ [.step i]) q := by
  obtain ⟨request, next, hjob, hadmits, rfl⟩ := step?_eq_some hq
  obtain ⟨n, hn, hdue, hnext⟩ := h.jobs i _ hjob
  have hi : dialogue i start (ms ++ [.step i]) =
      ⟨request, (p.site.answer request).1⟩ :: dialogue i start ms := dialogue_step hp hjob
  have hothers : ∀ j, j ≠ i → dialogue j start (ms ++ [.step i]) = dialogue j start ms :=
    fun j hj => dialogue_of_silent hp (told_step_of_ne (Ne.symm hj))
  have hgrown : p.site.clients.length ≤ (p.site.answer request).2.clients.length :=
    length_clients_answer ..
  refine ⟨h.guarded.step hn hadmits hdue hi hothers _, fun j job hj => ?_⟩
  by_cases hji : j = i
  · subst hji
    obtain ⟨hlt, -⟩ := List.getElem?_eq_some_iff.1 hjob
    rw [List.getElem?_set_self hlt] at hj
    obtain rfl := Option.some.inj hj
    exact ⟨n, Nat.le_trans hn hgrown, hi ▸ hnext _⟩
  · rw [List.getElem?_set_ne (Ne.symm hji)] at hj
    obtain ⟨k, hk, hsince⟩ := h.jobs j job hj
    exact ⟨k, Nat.le_trans hk hgrown, hothers j hji ▸ hsince⟩

theorem InTurn.spawn (h : InTurn start ms p) (hfollows : Follows start ms p)
    (hp : start.course? ms = some p) {job : Job α} (hjob : p.DrivesInTurn (.spawn job)) :
    InTurn start (ms ++ [.spawn job]) (p.spawn job) := by
  have hsame : ∀ j, dialogue j start (ms ++ [.spawn job]) = dialogue j start ms :=
    fun _ => dialogue_of_silent hp rfl
  refine ⟨?_, fun j job' hj => ?_⟩
  · rw [funext hsame]
    exact h.guarded.of_clients rfl rfl
  · rw [hsame]
    change (p.jobs ++ [job])[j]? = some job' at hj
    by_cases hlt : j < p.jobs.length
    · rw [List.getElem?_append_left hlt] at hj
      exact h.jobs j job' hj
    · -- A job that begins has heard nothing yet.
      rw [hfollows.unheard j (Nat.le_of_not_lt hlt)]
      rw [List.getElem?_append_right (Nat.le_of_not_lt hlt)] at hj
      obtain rfl := List.mem_singleton.1 (List.mem_of_getElem? hj)
      exact ⟨_, Nat.le_refl _, hjob⟩

theorem InTurn.drift (h : InTurn start ms p) (hp : start.course? ms = some p) (other : Site) :
    InTurn start (ms ++ [.drift other]) { p with site := p.site.withHardware other } := by
  have hsame : ∀ j, dialogue j start (ms ++ [.drift other]) = dialogue j start ms :=
    fun _ => dialogue_of_silent hp rfl
  refine ⟨?_, fun j job hj => ?_⟩
  · rw [funext hsame]
    exact h.guarded.of_clients rfl rfl
  · rw [hsame]
    exact h.jobs j job hj

/-- All jobs that begin in a course drive clients in turn with others. -/
def TakesTurns : Pool α → List (Move α) → Prop
  | _, [] => True
  | p, m :: ms => p.DrivesInTurn m ∧ ∀ q, p.move? m = some q → q.TakesTurns ms

theorem takesTurns_append {ms' : List (Move α)} :
    start.TakesTurns (ms ++ ms') ↔
      start.TakesTurns ms ∧ ∀ p, start.course? ms = some p → p.TakesTurns ms' := by
  induction ms generalizing start with
  | nil => simp [TakesTurns, course?]
  | cons m ms ih =>
    simp only [List.cons_append, TakesTurns, ih, course?, Option.bind_eq_some_iff]
    constructor
    · rintro ⟨hm, hms⟩
      refine ⟨⟨hm, fun q hq => (hms q hq).1⟩, ?_⟩
      rintro p ⟨q, hq, hp⟩
      exact (hms q hq).2 p hp
    · rintro ⟨⟨hm, hms⟩, hms'⟩
      exact ⟨hm, fun q hq => ⟨hms q hq, fun p hp => hms' p ⟨q, hq, hp⟩⟩⟩

theorem takesTurns_steps (p : Pool α) (is : List Nat) : p.TakesTurns (is.map .step) := by
  induction is generalizing p with
  | nil => exact trivial
  | cons i is ih => exact ⟨trivial, fun q _ => ih q⟩

theorem TakesTurns.drives {before after : List (Move α)} {m : Move α}
    (h : start.TakesTurns (before ++ m :: after)) (hp : start.course? before = some p) :
    p.DrivesInTurn m :=
  ((takesTurns_append.1 h).2 p hp).1

theorem TakesTurns.leavesEnded (h : start.TakesTurns ms) (hp : start.course? ms = some p) :
    ∀ m ∈ ms, m.LeavesEnded := by
  intro m hm
  obtain ⟨before, after, rfl⟩ := List.append_of_mem hm
  rw [course?_append] at hp
  obtain ⟨q, hq, -⟩ := Option.bind_eq_some_iff.1 hp
  have hdrives := h.drives hq
  cases m with
  | resume i next => exact hdrives.elim
  | step i | spawn job | drift other => trivial

theorem inTurn_new (buses : List (String × Segment))
    (streams : List (String × List (Nat × List Telegram.Delivery))) (absence : Absence) :
    InTurn (α := α) (new (Site.new buses streams absence)) []
      (new (Site.new buses streams absence)) :=
  ⟨guarded_new .., nofun⟩

theorem inTurn_of_course (hstart : InTurn start [] start) (hms : start.TakesTurns ms)
    (hp : start.course? ms = some p) : InTurn start ms p := by
  refine induction_of_course (InTurn start) hp hstart ?_
  rintro before m after rfl a b ha hturn hb
  have hm := hms.drives ha
  cases m with
  | step i => exact hturn.step ha hb
  | spawn job =>
    obtain rfl := Option.some.inj hb
    have hfollows := follows_of_course ((takesTurns_append.1 hms).1.leavesEnded ha) ha
    exact hturn.spawn hfollows ha hm
  | resume i next => exact hm.elim
  | drift other =>
    obtain rfl := Option.some.inj hb
    exact hturn.drift ha other

/-- A step of a call: its request is performed as it is meant, and every other step is noted
nowhere. -/
theorem InTurn.access_step (h : InTurn start ms p) {i : Nat} {x : Access} {f : x.Answer → α}
    {job : Job α} (hjob : p.jobs[i]? = some job)
    (htalks : (x.issue f).Talks (dialogue i start ms) job)
    (hq : p.step? i = some q) :
    ((dialogue i start ms).length ≠ 2 ∧ q.site.journal = p.site.journal) ∨
      (dialogue i start ms).length = 2 ∧ q.site.journal = x.entry :: p.site.journal ∧
        ∀ answer, p.told i (.step i) = [⟨x.request, answer⟩] →
          x.accept answer = x.answerOn p.site := by
  obtain ⟨request, next, hnext, -, rfl⟩ := step?_eq_some hq
  obtain rfl := Option.some.inj (hjob.symm.trans hnext)
  obtain ⟨hasks, -⟩ := (x.since_issue f).talks_nil htalks
  rcases hasks with ⟨hd, rfl⟩ | ⟨hd, rfl⟩ | ⟨hd, rfl⟩ | ⟨⟨answer, hd⟩, rfl⟩
  · exact Or.inl ⟨by simp [hd], rfl⟩
  · exact Or.inl ⟨by simp [hd], rfl⟩
  · -- The unit was set just before, and is still set.
    obtain ⟨-, client, hclient, hunit⟩ := h.guarded.selected i _ _ _ hd
    obtain ⟨hjournal, hanswer⟩ := x.perform hclient hunit
    refine Or.inr ⟨by simp [hd], hjournal, fun answer htold => ?_⟩
    rw [told_step hjob] at htold
    obtain ⟨hexchange, -⟩ := List.cons.inj htold
    cases hexchange
    exact hanswer
  · exact Or.inl ⟨by simp [hd], rfl⟩

section

variable {early late : List (Move α)} {a b : Pool α} {i : Nat} {x : Access} {f : x.Answer → α}
  (hstart : InTurn start [] start) (hms : start.TakesTurns ms)

include hstart hms

theorem inTurn_on_the_way (hsplit : ms = early ++ late) (ha : start.course? early = some a) :
    InTurn start early a ∧ Follows start early a := by
  rw [hsplit] at hms
  have hearly := (takesTurns_append.1 hms).1
  exact ⟨inTurn_of_course hstart hearly ha, follows_of_course (hearly.leavesEnded ha) ha⟩

theorem noted_by_call {m : Move α} (hsplit : ms = early ++ m :: late)
    (ha : start.course? early = some a) (hb : a.move? m = some b)
    (hnoted : b.site.journal ≠ a.site.journal) :
    ∃ i job, m = .step i ∧ (start.jobs ++ begun ms)[i]? = some job ∧
      ∀ (x : Access) f, job = x.issue f → b.site.journal = x.entry :: a.site.journal := by
  obtain ⟨hturn, hfollows⟩ := inTurn_on_the_way hstart hms hsplit ha
  cases m with
  | step i =>
    obtain ⟨request, next, hjob, -⟩ := step?_eq_some hb
    obtain ⟨job, hbegun, htalks⟩ := hfollows.exists_begun hsplit hjob
    refine ⟨i, job, rfl, hbegun, ?_⟩
    rintro x f rfl
    rcases hturn.access_step hjob htalks hb with ⟨-, hsame⟩ | ⟨-, hentry, -⟩
    · exact absurd hsame hnoted
    · exact hentry
  | resume i next =>
    obtain ⟨r, -, rfl⟩ := resume?_eq_some hb
    exact absurd rfl hnoted
  | spawn job | drift other =>
    obtain rfl := Option.some.inj hb
    exact absurd rfl hnoted

theorem talks_of_call (hcall : (start.jobs ++ begun ms)[i]? = some (x.issue f)) {job : Job α}
    (hsplit : ms = early ++ late) (ha : start.course? early = some a)
    (hjob : a.jobs[i]? = some job) : (x.issue f).Talks (dialogue i start early) job := by
  obtain ⟨y, hy, htalks⟩ := (inTurn_on_the_way hstart hms hsplit ha).2.exists_begun hsplit hjob
  obtain rfl := Option.some.inj (hy.symm.trans hcall)
  exact htalks

theorem call_step (hcall : (start.jobs ++ begun ms)[i]? = some (x.issue f))
    (hsplit : ms = early ++ .step i :: late) (ha : start.course? early = some a)
    (hb : a.step? i = some b) :
    ((dialogue i start early).length ≠ 2 ∧ b.site.journal = a.site.journal) ∨
      (dialogue i start early).length = 2 ∧ b.site.journal = x.entry :: a.site.journal ∧
        ∀ answer, a.told i (.step i) = [⟨x.request, answer⟩] →
          x.accept answer = x.answerOn a.site := by
  obtain ⟨request, next, hjob, -⟩ := step?_eq_some hb
  exact (inTurn_on_the_way hstart hms hsplit ha).1.access_step hjob
    (talks_of_call hstart hms hcall hsplit ha hjob) hb

/-- A call that has ended was performed once, and gives what its unit answered then. -/
theorem performed_once (hcall : (start.jobs ++ begun ms)[i]? = some (x.issue f))
    (hp : start.course? ms = some p) {r : α} (hended : p.jobs[i]? = some (.done r)) :
    ∃! early, ∃ late a b, ms = early ++ .step i :: late ∧ start.course? early = some a ∧
      a.step? i = some b ∧ b.site.journal = x.entry :: a.site.journal ∧
      r = f (x.answerOn a.site) := by
  have hlast := talks_of_call hstart hms hcall (List.append_nil ms).symm hp hended
  obtain ⟨answer, rfl, hd⟩ := (x.since_issue f).talks_nil hlast
  have hheard : dialogue i start ms = [⟨.unlock x.client, ()⟩] ++
      ⟨x.request, answer⟩ :: [⟨.select x.client x.unit, ()⟩, ⟨.lock x.client, ()⟩] := hd
  obtain ⟨early, late, a, b, hsplit, ha, hb, hearly, htold⟩ := exists_step_of_dialogue hp hheard
  rcases call_step hstart hms hcall hsplit ha hb with ⟨hlength, -⟩ | ⟨hlength, hentry, hgives⟩
  · rw [hearly] at hlength
    exact absurd rfl hlength
  refine ⟨early, ⟨late, a, b, hsplit, ha, hb, hentry, congrArg f (hgives answer htold)⟩, ?_⟩
  -- Only after two exchanges does the call reach its unit, and it comes there once.
  rintro early' ⟨late', a', b', hsplit', ha', hb', hentry', -⟩
  rcases call_step hstart hms hcall hsplit' ha' hb' with ⟨-, hsame⟩ | ⟨hlength', -⟩
  · rw [hsame] at hentry'
    exact absurd hentry'.symm (List.cons_ne_self _ _)
  · exact split_unique (hsplit'.symm.trans hsplit) ha' hb' ha hb (hlength'.trans hlength.symm)

end

/-- Whatever other jobs do with the client meanwhile, all that a call makes it perform is the call's
own request, addressed to the call's own unit. A call that has ended was performed exactly once, and
gives what its unit answered at that moment. -/
theorem accesses_reach_units {buses : List (String × Segment)}
    {streams : List (String × List (Nat × List Telegram.Delivery))} {absence : Absence}
    (hms : (new (Site.new buses streams absence)).TakesTurns ms)
    (hp : (new (Site.new buses streams absence)).course? ms = some p) :
    (∀ early m late a b, ms = early ++ m :: late →
      (new (Site.new buses streams absence)).course? early = some a → a.move? m = some b →
      b.site.journal ≠ a.site.journal →
        ∃ i job, m = .step i ∧ (begun ms)[i]? = some job ∧
          ∀ (x : Access) f, job = x.issue f → b.site.journal = x.entry :: a.site.journal) ∧
    ∀ i (x : Access) f r, (begun ms)[i]? = some (x.issue f) → p.jobs[i]? = some (.done r) →
      ∃! early, ∃ late a b, ms = early ++ .step i :: late ∧
        (new (Site.new buses streams absence)).course? early = some a ∧ a.step? i = some b ∧
        b.site.journal = x.entry :: a.site.journal ∧ r = f (x.answerOn a.site) := by
  have hstart := inTurn_new (α := α) buses streams absence
  constructor
  · intro early m late a b hsplit ha hb hnoted
    exact noted_by_call hstart hms hsplit ha hb hnoted
  · intro i x f r hcall hended
    exact performed_once hstart hms hcall hp hended

/-- A gateway with a device at each of two units. -/
def twoUnits : Site :=
  let device (value : UInt16) : Device :=
    { Device.new with holding := Registers.empty.put 11 [value] }
  .new [("tcp://gw", { Segment.new with devices := [(1, device 7), (100, device 9)] })] []
    ⟨fun _ => .timeout, .notFound⟩

def doorman : Job (Except BusError (List UInt16)) :=
  getOrOpen "tcp://gw" 9600 >>= fun _ => pure (.ok [])

def glance (unit : UInt8) : Access := .read 0 unit (.holding 11 1)

/-- Two jobs read the same register of two units; the second one waits while the first one has the
client. -/
def glances : List (Move (Except BusError (List UInt16))) :=
  .spawn doorman :: ([0, 0, 0].map .step ++
    .spawn ((glance 1).issue id) :: .spawn ((glance 100).issue id) ::
      [1, 1, 1, 1, 2, 2, 2, 2].map .step)

theorem glances_takeTurns : (new twoUnits).TakesTurns glances := by
  have hdoorman : doorman.Since (Request.Due 0 fun _ _ _ _ => True) (fun _ _ => True) [] :=
    ((since_getOrOpen rfl "tcp://gw" 9600).imp (fun _ _ h => h) fun _ _ _ => trivial).bind
      fun _ _ _ => trivial
  refine ⟨hdoorman, fun q hq => takesTurns_append.2 ⟨takesTurns_steps q [0, 0, 0], fun p hp => ?_⟩⟩
  have hopen : p.site.clients.length = 1 := by
    obtain rfl := Option.some.inj hq
    obtain rfl := Option.some.inj hp
    rfl
  have hglance : ∀ unit, (glance unit).client < p.site.clients.length :=
    fun _ => hopen ▸ Nat.one_pos
  refine ⟨Access.since_due _ _ (hglance 1), fun r hr => ⟨?_, fun _ _ => takesTurns_steps _ _⟩⟩
  obtain rfl := Option.some.inj hr
  exact Access.since_due _ _ (hglance 100)

theorem glances_get_their_own :
    ∃ p, (new twoUnits).course? glances = some p ∧
      p.site.journal.take 2 = [(glance 100).entry, (glance 1).entry] ∧
      (∃ a b : Pool (Except BusError (List UInt16)), a.step? 1 = some b ∧
        b.site.journal = (glance 1).entry :: a.site.journal ∧
        Except.ok [7] = (glance 1).answerOn a.site) ∧
      ∃ a b : Pool (Except BusError (List UInt16)), a.step? 2 = some b ∧
        b.site.journal = (glance 100).entry :: a.site.journal ∧
        Except.ok [9] = (glance 100).answerOn a.site := by
  obtain ⟨p, hp, hjournal, hfirst, hsecond⟩ : ∃ p, (new twoUnits).course? glances = some p ∧
      p.site.journal.take 2 = [(glance 100).entry, (glance 1).entry] ∧
      p.jobs[1]? = some (.done (.ok [7])) ∧ p.jobs[2]? = some (.done (.ok [9])) :=
    ⟨_, rfl, rfl, rfl, rfl⟩
  have hreached := (accesses_reach_units glances_takeTurns hp).2
  obtain ⟨-, ⟨-, a, b, -, -, hb, hentry, hgives⟩, -⟩ := hreached 1 (glance 1) id _ rfl hfirst
  obtain ⟨-, ⟨-, a', b', -, -, hb', hentry', hgives'⟩, -⟩ :=
    hreached 2 (glance 100) id _ rfl hsecond
  exact ⟨p, hp, hjournal, ⟨a, b, hb, hentry, hgives⟩, a', b', hb', hentry', hgives'⟩

end Pool

end Site

end HomeMetering
