import HomeMetering.Site.Basic

/-!
# Jobs side by side

A pool holds jobs that share one site. At any moment one of them makes its next request; only a job
that waits for a client which another job keeps to itself has to stand by. Jobs begin and go on at
any time, and the hardware changes under them. A course is a list of such moves.
-/

namespace HomeMetering.Site

variable {α : Type}

/-- Whether a request can be answered now. -/
def admits (s : Site) : Request → Bool
  | .lock client => !((s.clients[client]?.map Client.isLocked).getD false)
  | _ => true

/-- The site with the hardware of another one, and the connections of its own. -/
def withHardware (s other : Site) : Site :=
  { other with registry := s.registry, clients := s.clients, journal := s.journal }

/-- Jobs on one site. -/
structure Pool (α : Type) where
  site : Site
  jobs : List (Job α)

/-- What can happen to a pool. -/
inductive Move (α : Type) where
  /-- A job makes its next request. -/
  | step (i : Nat)
  /-- A job begins. -/
  | spawn (job : Job α)
  /-- A job that has ended goes on from what it gave. -/
  | resume (i : Nat) (next : α → Job α)
  /-- Buses, ports and time change by themselves. -/
  | drift (other : Site)

namespace Pool

def new (site : Site) : Pool α := ⟨site, []⟩

def spawn (p : Pool α) (job : Job α) : Pool α := { p with jobs := p.jobs ++ [job] }

/-- The pool after the next request of a job, if it can be answered now. -/
def step? (p : Pool α) (i : Nat) : Option (Pool α) :=
  match p.jobs[i]? with
  | some (.ask q next) =>
    if p.site.admits q then
      let (answer, site) := p.site.answer q
      some ⟨site, p.jobs.set i (next answer)⟩
    else none
  | _ => none

/-- The pool after a job that has ended goes on. -/
def resume? (p : Pool α) (i : Nat) (next : α → Job α) : Option (Pool α) :=
  match p.jobs[i]? with
  | some (.done a) => some { p with jobs := p.jobs.set i (next a) }
  | _ => none

/-- The pool after a move, if it is possible. -/
def move? (p : Pool α) : Move α → Option (Pool α)
  | .step i => p.step? i
  | .spawn job => some (p.spawn job)
  | .resume i next => p.resume? i next
  | .drift other => some { p with site := p.site.withHardware other }

/-- The pool after some moves, if they are possible. -/
def course? (p : Pool α) : List (Move α) → Option (Pool α)
  | [] => some p
  | m :: ms => (p.move? m).bind fun q => q.course? ms

def isIdle (p : Pool α) : Bool := p.jobs.all Job.isDone

theorem course?_append (p : Pool α) (ms ms' : List (Move α)) :
    p.course? (ms ++ ms') = (p.course? ms).bind fun q => q.course? ms' := by
  induction ms generalizing p with
  | nil => rfl
  | cons m ms ih =>
    simp only [List.cons_append, course?, Option.bind_assoc]
    exact Option.bind_congr fun q _ => ih q

theorem step?_eq_some {p q : Pool α} {i : Nat} (h : p.step? i = some q) :
    ∃ request next, p.jobs[i]? = some (.ask request next) ∧ p.site.admits request ∧
      q = ⟨(p.site.answer request).2, p.jobs.set i (next (p.site.answer request).1)⟩ := by
  unfold step? at h
  split at h
  · rename_i request next hjob
    split at h
    · rename_i hadmits
      exact ⟨request, next, hjob, hadmits, (Option.some.inj h).symm⟩
    · cases h
  · cases h

theorem resume?_eq_some {p q : Pool α} {i : Nat} {next : α → Job α}
    (h : p.resume? i next = some q) :
    ∃ a, p.jobs[i]? = some (.done a) ∧ q = ⟨p.site, p.jobs.set i (next a)⟩ := by
  unfold resume? at h
  split at h
  · rename_i a hjob
    exact ⟨a, hjob, (Option.some.inj h).symm⟩
  · cases h

/-- What every move of a course keeps holds of the pool it leads to. -/
theorem invariant_of_course {p q : Pool α} {ms : List (Move α)} (Inv : Pool α → Prop)
    (h : p.course? ms = some q) (start : Inv p)
    (move : ∀ before m after, ms = before ++ m :: after → ∀ a b, p.course? before = some a →
      Inv a → a.move? m = some b → Inv b) : Inv q := by
  induction ms generalizing p with
  | nil => exact Option.some.inj h ▸ start
  | cons m ms ih =>
    obtain ⟨r, hr, hq⟩ := Option.bind_eq_some_iff.1 h
    refine ih hq (move [] m ms rfl p r rfl start hr) ?_
    intro before m' after hms a b ha
    refine move (m :: before) m' after (congrArg (m :: ·) hms) a b ?_
    rw [course?, hr]
    exact ha

end Pool

end HomeMetering.Site
