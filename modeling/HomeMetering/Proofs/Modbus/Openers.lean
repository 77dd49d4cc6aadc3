import HomeMetering.Proofs.Modbus.Entries
import HomeMetering.Proofs.Modbus.Whereabouts
import HomeMetering.Proofs.Site.Courses

/-!
# Who opens a connection first

Any number of jobs may find an address without a client and open one each. The first one that is
entered stays: the others close theirs and take that one, and only who entered it hears that it was
not there before.
-/

namespace HomeMetering

open Modbus Site Site.Job

namespace Site

/-! ## The client of an address -/

/-- A request that neither enters a client under an address nor takes one out. -/
def Request.Spares (url : String) : Request → Prop
  | .adopt u _ | .evict u | .giveBack u => u ≠ url
  | _ => True

/-- A request that takes no client out from under an address. -/
def Request.Keeps (url : String) : Request → Prop
  | .evict u | .giveBack u => u ≠ url
  | _ => True

theorem Request.Spares.keeps {q : Request} {url : String} (h : q.Spares url) : q.Keeps url := by
  cases q <;> first | exact h | trivial

/-- The client that a job is told to be the one of an address. -/
def Exchange.finds? (url : String) : Exchange → Option ClientId
  | ⟨.cached u, client⟩ => if u = url then client else none
  | ⟨.adopt u _, winner⟩ => if u = url then winner else none
  | _ => none

/-- The client that a job enters under an address. -/
def Exchange.enters? (url : String) : Exchange → Option ClientId
  | ⟨.adopt u client, none⟩ => if u = url then some client else none
  | _ => none

def Dialogue.Finds (d : Dialogue) (url : String) (c : ClientId) : Prop :=
  ∃ e ∈ d, e.finds? url = some c

def Dialogue.Enters (d : Dialogue) (url : String) (c : ClientId) : Prop :=
  ∃ e ∈ d, e.enters? url = some c

theorem Dialogue.finds_cons {d : Dialogue} {url : String} {c : ClientId} {e : Exchange} :
    Dialogue.Finds (e :: d) url c ↔ e.finds? url = some c ∨ d.Finds url c := by
  simp [Finds]

theorem Dialogue.enters_cons {d : Dialogue} {url : String} {c : ClientId} {e : Exchange} :
    Dialogue.Enters (e :: d) url c ↔ e.enters? url = some c ∨ d.Enters url c := by
  simp [Enters]

theorem Request.Spares.enters?_eq {q : Request} {url : String} (h : q.Spares url)
    (answer : q.Answer) : Exchange.enters? url ⟨q, answer⟩ = none := by
  cases q with
  | adopt u client =>
    cases answer with
    | none => exact if_neg h
    | some winner => rfl
  | _ => rfl

variable {url : String} {c : ClientId}

theorem cached?_of_finds {s : Site} {q : Request}
    (h : Exchange.finds? url ⟨q, (s.answer q).1⟩ = some c) : s.registry.cached? url = some c := by
  cases q with
  | cached u =>
    change (if u = url then s.registry.cached? u else none) = some c at h
    split at h
    · subst u
      exact h
    · cases h
  | adopt u client =>
    change (if u = url then (s.registry.adopt u client).1 else none) = some c at h
    split at h
    · subst u
      unfold Registry.adopt at h
      unfold Registry.cached?
      split at h
      · rw [‹s.registry.find? url = _›]
        exact h
      · cases h
    · cases h
  | _ => cases h

theorem cached?_answer (s : Site) {q : Request} (h : q.Keeps url) :
    (∃ c, Exchange.enters? url ⟨q, (s.answer q).1⟩ = some c ∧ s.registry.cached? url = none ∧
        (s.answer q).2.registry.cached? url = some c) ∨
      (Exchange.enters? url ⟨q, (s.answer q).1⟩ = none ∧
        (s.answer q).2.registry.cached? url = s.registry.cached? url) := by
  have hother : q.entry? ≠ some url →
      (s.answer q).2.registry.cached? url = s.registry.cached? url := fun hq =>
    congrArg (Option.map Shared.client) (find?_answer_of_ne s hq)
  have hne : ∀ {u}, u ≠ url → some u ≠ some url := fun hu heq => hu (Option.some.inj heq)
  cases q with
  | adopt u client =>
    by_cases hu : u = url
    · subst hu
      show (∃ c, Exchange.enters? u ⟨.adopt u client, (s.registry.adopt u client).1⟩ = some c ∧
          _ ∧ (s.registry.adopt u client).2.cached? u = some c) ∨
        (Exchange.enters? u ⟨.adopt u client, (s.registry.adopt u client).1⟩ = none ∧
          (s.registry.adopt u client).2.cached? u = _)
      rcases s.registry.adopt_cases u client with ⟨winner, hadopt⟩ | ⟨hnone, hadopt⟩
      · rw [hadopt]
        exact Or.inr ⟨rfl, rfl⟩
      · rw [hadopt]
        refine Or.inl ⟨client, if_pos rfl, ?_, ?_⟩
        · rw [Registry.cached?, hnone]
          rfl
        · rw [Registry.cached?, Registry.find?_put, if_pos rfl]
          rfl
    · have hspares : (Request.adopt u client).Spares url := hu
      exact Or.inr ⟨hspares.enters?_eq _, hother (hne hu)⟩
  | lease u => exact Or.inr ⟨rfl, Registry.cached?_lease ..⟩
  | evict u | giveBack u => exact Or.inr ⟨rfl, hother (hne h)⟩
  | _ => exact Or.inr ⟨rfl, hother (by rintro ⟨⟩)⟩

/-! ## What all jobs are told -/

namespace Pool

variable {α : Type} {start p q : Pool α} {ms : List (Move α)}

/-- Whatever a job was told of an address still holds; the client that was there first is there, or
else the one that a single job has entered. -/
structure Agreed (url : String) (start : Pool α) (ms : List (Move α)) (p : Pool α) : Prop where
  found : ∀ i c, (dialogue i start ms).Finds url c → p.site.registry.cached? url = some c
  entered : ∀ i c, (dialogue i start ms).Enters url c →
    start.site.registry.cached? url = none ∧ p.site.registry.cached? url = some c
  once : ∀ i j c c', (dialogue i start ms).Enters url c → (dialogue j start ms).Enters url c' →
    i = j
  kept : ∀ c, start.site.registry.cached? url = some c → p.site.registry.cached? url = some c
  origin : ∀ c, p.site.registry.cached? url = some c →
    start.site.registry.cached? url = some c ∨ ∃ i, (dialogue i start ms).Enters url c

theorem agreed_refl (url : String) (start : Pool α) : Agreed url start [] start where
  found := by rintro i c ⟨e, ⟨⟩, -⟩
  entered := by rintro i c ⟨e, ⟨⟩, -⟩
  once := by rintro i j c c' ⟨e, ⟨⟩, -⟩
  kept _ h := h
  origin _ h := Or.inl h

theorem Agreed.of_silent (h : Agreed url start ms p) (hp : start.course? ms = some p) {m : Move α}
    (htold : ∀ i, p.told i m = []) (hregistry : q.site.registry = p.site.registry) :
    Agreed url start (ms ++ [m]) q := by
  have hsame : ∀ i, dialogue i start (ms ++ [m]) = dialogue i start ms :=
    fun i => dialogue_of_silent hp (htold i)
  constructor
  · simpa only [hsame, hregistry] using h.found
  · simpa only [hsame, hregistry] using h.entered
  · simpa only [hsame] using h.once
  · simpa only [hregistry] using h.kept
  · simpa only [hsame, hregistry] using h.origin

theorem Agreed.step (h : Agreed url start ms p) (hp : start.course? ms = some p) {j : Nat}
    (hkeeps : ∀ request next, p.jobs[j]? = some (.ask request next) → request.Keeps url)
    (hq : p.step? j = some q) : Agreed url start (ms ++ [.step j]) q := by
  obtain ⟨request, next, hjob, -, rfl⟩ := step?_eq_some hq
  have hj : dialogue j start (ms ++ [.step j]) =
      ⟨request, (p.site.answer request).1⟩ :: dialogue j start ms := dialogue_step hp hjob
  have hothers : ∀ i, i ≠ j → dialogue i start (ms ++ [.step j]) = dialogue i start ms :=
    fun i hi => dialogue_of_silent hp (told_step_of_ne (Ne.symm hi))
  have hfinds : ∀ i c, (dialogue i start (ms ++ [.step j])).Finds url c →
      p.site.registry.cached? url = some c := by
    intro i c hi
    by_cases hij : i = j
    · subst hij
      rw [hj, Dialogue.finds_cons] at hi
      exact hi.elim cached?_of_finds (h.found i c)
    · rw [hothers i hij] at hi
      exact h.found i c hi
  rcases cached?_answer p.site (hkeeps request next hjob) with
    ⟨c₀, hnew, hnone, hsome⟩ | ⟨hold, hsame⟩
  · -- The job enters a client: nobody has heard of one before.
    have hnobody : ∀ i c, ¬ (dialogue i start ms).Enters url c := by
      intro i c hi
      rw [(h.entered i c hi).2] at hnone
      cases hnone
    have honly : ∀ i c, (dialogue i start (ms ++ [.step j])).Enters url c → i = j ∧ c = c₀ := by
      intro i c hi
      by_cases hij : i = j
      · subst hij
        rw [hj, Dialogue.enters_cons, hnew] at hi
        exact ⟨rfl, hi.elim (fun heq => (Option.some.inj heq).symm) fun hold =>
          absurd hold (hnobody i c)⟩
      · rw [hothers i hij] at hi
        exact absurd hi (hnobody i c)
    have hstart : start.site.registry.cached? url = none := by
      cases hc : start.site.registry.cached? url with
      | none => rfl
      | some c =>
        rw [h.kept c hc] at hnone
        cases hnone
    refine ⟨fun i c hi => ?_, fun i c hi => ?_, fun i k c c' hi hk => ?_, fun c hc => ?_,
      fun c hc => ?_⟩
    · rw [hfinds i c hi] at hnone
      cases hnone
    · rw [(honly i c hi).2]
      exact ⟨hstart, hsome⟩
    · rw [(honly i c hi).1, (honly k c' hk).1]
    · rw [hstart] at hc
      cases hc
    · obtain rfl : c₀ = c := Option.some.inj (hsome.symm.trans hc)
      refine Or.inr ⟨j, ?_⟩
      rw [hj, Dialogue.enters_cons]
      exact Or.inl hnew
  · have henters : ∀ i c, (dialogue i start (ms ++ [.step j])).Enters url c ↔
        (dialogue i start ms).Enters url c := by
      intro i c
      by_cases hij : i = j
      · subst hij
        rw [hj, Dialogue.enters_cons, hold]
        simp
      · rw [hothers i hij]
    refine ⟨fun i c hi => ?_, fun i c hi => ?_, fun i k c c' hi hk => ?_, fun c hc => ?_,
      fun c hc => ?_⟩
    · rw [hsame]
      exact hfinds i c hi
    · rw [hsame]
      exact h.entered i c ((henters i c).1 hi)
    · exact h.once i k c c' ((henters i c).1 hi) ((henters k c').1 hk)
    · rw [hsame]
      exact h.kept c hc
    · rw [hsame] at hc
      exact (h.origin c hc).imp_right fun ⟨i, hi⟩ => ⟨i, (henters i c).2 hi⟩

theorem agreed_of_course (hms : ∀ m ∈ ms, m.LeavesEnded)
    (hkeeps : ∀ x ∈ start.jobs ++ begun ms, x.All (Request.Keeps url) fun _ => True)
    (hp : start.course? ms = some p) : Agreed url start ms p := by
  refine induction_of_course (Agreed url start) hp (agreed_refl url start) ?_
  rintro before m after rfl a b ha hagreed hb
  have hm : m.LeavesEnded := hms m (by simp)
  cases m with
  | step j =>
    refine hagreed.step ha (fun request next hjob => ?_) hb
    have hfollows := follows_of_course (fun m' hm' => hms m' (by simp [hm'])) ha
    obtain ⟨x, hx, htalks⟩ := hfollows.talks j _ hjob
    refine ((hkeeps x ?_).talks htalks).1.1
    rw [begun_append, ← List.append_assoc]
    exact List.mem_append_left _ (List.mem_of_getElem? hx)
  | spawn job =>
    obtain rfl := Option.some.inj hb
    exact hagreed.of_silent ha (fun _ => rfl) rfl
  | resume j next => exact hm.elim
  | drift other =>
    obtain rfl := Option.some.inj hb
    exact hagreed.of_silent ha (fun _ => rfl) rfl

end Pool

/-! ## What a call reports -/

/-- What a call that opens a connection ends with. -/
abbrev Opened := Except BusError (ClientId × Bool)

/-- A call that opens the connection of an address, among jobs that end with something else. -/
def Job.opener {β : Type} (url : String) (baud : Nat) : Job (Opened ⊕ β) :=
  getOrOpen url baud >>= fun opened => pure (.inl opened)

/-- What a call ends with is what it was told. -/
structure Reports (url : String) (d : Dialogue) (opened : Opened) : Prop where
  entered : ∀ c, d.Enters url c ↔ opened = .ok (c, false)
  found : ∀ c, opened = .ok (c, true) → d.Finds url c
  failed : ∀ baud e, ⟨.connect url baud, .error e⟩ ∈ d → opened = .error e
  unchanged : ∀ e, opened = .error e → ∀ x ∈ d, x.request.LeavesRegistry

/-- As long as a call goes on, it has neither entered a client nor failed to open one. -/
structure Undecided (url : String) (d : Dialogue) : Prop where
  notEntered : ∀ c, ¬ d.Enters url c
  notFailed : ∀ baud e, ⟨.connect url baud, .error e⟩ ∉ d

section

variable {d : Dialogue} {winner client : ClientId}

theorem Undecided.cons {e : Exchange} (h : Undecided url d) (henters : e.enters? url = none)
    (hfails : ∀ baud err, e ≠ ⟨.connect url baud, .error err⟩) : Undecided url (e :: d) := by
  refine ⟨fun c hc => ?_, fun baud err he => ?_⟩
  · rw [Dialogue.enters_cons, henters] at hc
    exact hc.elim nofun (h.notEntered c)
  · exact (List.mem_cons.1 he).elim (fun heq => hfails baud err heq.symm) (h.notFailed baud err)

theorem Undecided.reports_found (h : Undecided url d) (hfound : d.Finds url winner) :
    Reports url d (.ok (winner, true)) where
  entered c := iff_of_false (h.notEntered c) (by simp)
  found := by
    rintro _ ⟨⟩
    exact hfound
  failed baud e he := absurd he (h.notFailed baud e)
  unchanged := nofun

theorem Undecided.reports_entered (h : Undecided url d) :
    Reports url (⟨.adopt url client, none⟩ :: d) (.ok (client, false)) where
  entered c := by
    have hnew : Exchange.enters? url ⟨.adopt url client, none⟩ = some client := if_pos rfl
    rw [Dialogue.enters_cons, hnew, or_iff_left (h.notEntered c)]
    simp
  found := nofun
  failed baud e he := absurd ((List.mem_cons.1 he).resolve_left nofun) (h.notFailed baud e)
  unchanged := nofun

theorem Undecided.reports_failed (h : Undecided url d) (baud : Nat) (e : BusError)
    (hregistry : ∀ x ∈ d, x.request.LeavesRegistry) :
    Reports url (⟨.connect url baud, .error e⟩ :: d) (.error e) where
  entered c := by
    refine iff_of_false (fun hc => ?_) nofun
    exact (Dialogue.enters_cons.1 hc).elim nofun (h.notEntered c)
  found := nofun
  failed baud' e' he := by
    rcases List.mem_cons.1 he with heq | hold
    · cases heq
      rfl
    · exact absurd hold (h.notFailed baud' e')
  unchanged _ _ := List.forall_mem_cons.2 ⟨trivial, hregistry⟩

end

theorem since_opener {β : Type} (url : String) (baud : Nat) :
    (opener url baud : Job (Opened ⊕ β)).Since (fun d _ => Undecided url d)
      (fun d r => ∃ opened, r = .inl opened ∧ Reports url d opened) [] := by
  have hstart : Undecided url [] := ⟨by rintro c ⟨e, ⟨⟩, -⟩, by simp⟩
  refine ⟨hstart, fun cached => ?_⟩
  have hasked : Undecided url [⟨.cached url, cached⟩] := hstart.cons rfl nofun
  cases cached with
  | some client =>
    refine ⟨_, rfl, hasked.reports_found ?_⟩
    exact Dialogue.finds_cons.2 (Or.inl (if_pos rfl))
  | none =>
    refine ⟨hasked, fun opened => ?_⟩
    cases opened with
    | error e =>
      refine ⟨_, rfl, hasked.reports_failed baud e ?_⟩
      exact List.forall_mem_singleton.2 trivial
    | ok client =>
      have hopened : Undecided url [⟨.connect url baud, .ok client⟩, ⟨.cached url, none⟩] :=
        hasked.cons rfl (by rintro _ _ ⟨⟩)
      refine ⟨hopened, fun winner => ?_⟩
      cases winner with
      | none => exact ⟨_, rfl, hopened.reports_entered⟩
      | some winner =>
        -- Another call was faster: the duplicate is closed, and the dialogue goes on.
        have hlost := hopened.cons (e := ⟨.adopt url client, some winner⟩) rfl nofun
        refine ⟨hlost, fun _ => ?_⟩
        have hlocked := hlost.cons (e := ⟨.lock client, ()⟩) rfl nofun
        refine ⟨hlocked, fun result => ?_⟩
        have hclosed := hlocked.cons (e := ⟨.close client, result⟩) rfl nofun
        have hunlocked := hclosed.cons (e := ⟨.unlock client, ()⟩) rfl nofun
        refine ⟨hclosed, fun _ => ⟨_, rfl, hunlocked.reports_found ?_⟩⟩
        simp only [Dialogue.finds_cons]
        exact Or.inr (Or.inr (Or.inr (Or.inl (if_pos rfl))))

/-! ## Calls side by side -/

section

variable {β : Type}

/-- A move that begins calls for an address, and other jobs that spare it. -/
def Move.OpensOrSpares (url : String) : Move (Opened ⊕ β) → Prop
  | .spawn job =>
    (∃ baud, job = opener url baud) ∨
      job.Orderly ∧ job.All (Request.Spares url) fun r => r.isRight
  | .resume _ _ => False
  | .step _ | .drift _ => True

theorem orderly_opener (url : String) (baud : Nat) :
    (opener url baud : Job (Opened ⊕ β)).Orderly :=
  .getOrOpen url baud _ fun opened => .done (Sum.inl opened)

theorem keeps_getOrOpen (url : String) (baud : Nat) :
    (getOrOpen url baud).All (Request.Keeps url) fun _ => True := by
  have hclose : ∀ client, (closeClient client).All (Request.Keeps url) fun _ => True :=
    fun client => ⟨trivial, fun _ => ⟨trivial, fun _ => ⟨trivial, fun _ => trivial⟩⟩⟩
  refine ⟨trivial, fun cached => ?_⟩
  cases cached with
  | some client => exact trivial
  | none =>
    refine ⟨trivial, fun opened => ?_⟩
    cases opened with
    | error e => exact trivial
    | ok client =>
      refine ⟨trivial, fun winner => ?_⟩
      cases winner with
      | none => exact trivial
      | some winner => exact (hclose client).bind fun _ _ => trivial

theorem Move.OpensOrSpares.isOrderly {m : Move (Opened ⊕ β)} (h : m.OpensOrSpares url) :
    m.IsOrderly := by
  cases m with
  | spawn job =>
    rcases h with ⟨baud, rfl⟩ | ⟨horderly, -⟩
    · exact orderly_opener url baud
    · exact horderly
  | resume i next => exact h.elim
  | step i | drift other => trivial

theorem Move.OpensOrSpares.leavesEnded {m : Move (Opened ⊕ β)} (h : m.OpensOrSpares url) :
    m.LeavesEnded := by
  cases m with
  | resume i next => exact h.elim
  | step i | spawn job | drift other => trivial

namespace Pool

variable {start p : Pool (Opened ⊕ β)} {ms : List (Move (Opened ⊕ β))}

/-- A job is a call that has ended. -/
def Ended (p : Pool (Opened ⊕ β)) (i : Nat) (opened : Opened) : Prop :=
  p.jobs[i]? = some (.done (.inl opened))

section

variable (hspare : ∀ x ∈ start.jobs, x.All (Request.Spares url) fun r => r.isRight)
  (hms : ∀ m ∈ ms, m.OpensOrSpares url) (hp : start.course? ms = some p)

include hms hp

theorem follows_of_openers : Follows start ms p :=
  follows_of_course (fun m hm => (hms m hm).leavesEnded) hp

theorem ended_of_fails {k baud : Nat} {e : BusError}
    (hcall : (begun ms)[k]? = some (opener url baud))
    (hfails : ⟨.connect url baud, .error e⟩ ∈ dialogue (start.jobs.length + k) start ms) :
    p.Ended (start.jobs.length + k) (.error e) := by
  have hfollows := follows_of_openers hms hp
  obtain ⟨hk, -⟩ := List.getElem?_eq_some_iff.1 hcall
  have hi : start.jobs.length + k < p.jobs.length := by
    rw [hfollows.length, List.length_append]
    omega
  have hjob := List.getElem?_eq_getElem hi
  obtain ⟨x, hx, htalks⟩ := hfollows.talks _ _ hjob
  rw [List.getElem?_append_right (Nat.le_add_right ..), Nat.add_sub_cancel_left, hcall] at hx
  obtain rfl := Option.some.inj hx
  rw [Ended, hjob]
  generalize p.jobs[start.jobs.length + k] = job at htalks
  have hsince := (since_opener url baud).talks_nil htalks
  cases job with
  | ask q next => exact absurd hfails (hsince.1.notFailed baud e)
  | done r =>
    obtain ⟨opened, rfl, hreports⟩ := hsince
    rw [hreports.failed baud e hfails]

include hspare

omit hp in
theorem opens_or_spares :
    ∀ x ∈ start.jobs ++ begun ms,
      (∃ baud, x = opener url baud) ∨ x.All (Request.Spares url) fun r => r.isRight := by
  intro x hx
  rcases List.mem_append.1 hx with hold | hnew
  · exact Or.inr (hspare x hold)
  · obtain ⟨m, hm, hspawn⟩ := List.mem_filterMap.1 hnew
    cases m with
    | spawn job =>
      obtain rfl := Option.some.inj hspawn
      exact (hms _ hm).imp_right And.right
    | step i | resume i next | drift other => cases hspawn

theorem agreed_of_openers : Agreed url start ms p := by
  refine agreed_of_course (fun m hm => (hms m hm).leavesEnded) (fun x hx => ?_) hp
  rcases opens_or_spares hspare hms x hx with ⟨baud, rfl⟩ | hspares
  · exact (keeps_getOrOpen url baud).bind fun _ _ => trivial
  · exact hspares.imp (fun _ => Request.Spares.keeps) fun _ _ => trivial

theorem reports_of_ended {i : Nat} {opened : Opened} (hended : p.Ended i opened) :
    Reports url (dialogue i start ms) opened := by
  obtain ⟨x, hx, htalks⟩ := (follows_of_openers hms hp).talks i _ hended
  rcases opens_or_spares hspare hms x (List.mem_of_getElem? hx) with ⟨baud, rfl⟩ | hspares
  · obtain ⟨opened', heq, hreports⟩ := (since_opener url baud).talks_nil htalks
    obtain rfl := Sum.inl.inj heq
    exact hreports
  · cases (hspares.talks htalks).1

theorem ended_of_enters {i : Nat} (henters : (dialogue i start ms).Enters url c) :
    p.Ended i (.ok (c, false)) := by
  have hfollows := follows_of_openers hms hp
  have hi : i < p.jobs.length := by
    by_contra hi
    rw [hfollows.unheard i (Nat.le_of_not_lt hi)] at henters
    obtain ⟨e, ⟨⟩, -⟩ := henters
  obtain ⟨job, hjob⟩ : ∃ job, p.jobs[i]? = some job := ⟨_, List.getElem?_eq_getElem hi⟩
  obtain ⟨x, hx, htalks⟩ := hfollows.talks i _ hjob
  rcases opens_or_spares hspare hms x (List.mem_of_getElem? hx) with ⟨baud, rfl⟩ | hspares
  · have hsince := (since_opener url baud).talks_nil htalks
    cases job with
    | ask q next => exact absurd henters (hsince.1.notEntered c)
    | done r =>
      obtain ⟨opened, rfl, hreports⟩ := hsince
      rw [Ended, hjob, (hreports.entered c).1 henters]
  · -- A job that spares the address enters nothing under it.
    obtain ⟨e, he, hc⟩ := henters
    obtain ⟨request, answer⟩ := e
    rw [((hspares.talks htalks).2 _ he).enters?_eq answer] at hc
    cases hc

end

/-- However many calls open the connection of an address side by side, while others lease it and
nobody drops it or gives it back: every call that succeeds has the same client, which stays shared
and open; when there was none before, exactly one of them is told so; and a call whose connection
cannot be opened leaves the registry as it is. -/
theorem openers_agree {buses : List (String × Segment)}
    {streams : List (String × List (Nat × List Telegram.Delivery))} {absence : Absence}
    {before : List (Move (Opened ⊕ β))} (hbefore : ∀ m ∈ before, m.IsOrderly)
    (hstart : (new (Site.new buses streams absence)).course? before = some start)
    (hspare : ∀ x ∈ start.jobs, x.All (Request.Spares url) fun r => r.isRight)
    (hms : ∀ m ∈ ms, m.OpensOrSpares url) (hp : start.course? ms = some p) :
    (∀ early late q i c wasOpen, ms = early ++ late → start.course? early = some q →
      q.Ended i (.ok (c, wasOpen)) →
        p.site.registry.cached? url = some c ∧ p.site.openings c = 1 ∧ p.site.closings c = 0) ∧
    (start.site.registry.cached? url = none →
      (∃ i c wasOpen, p.Ended i (.ok (c, wasOpen))) → ∃! i, ∃ c, p.Ended i (.ok (c, false))) ∧
    (∀ c, start.site.registry.cached? url = some c → ∀ i c', ¬ p.Ended i (.ok (c', false))) ∧
    ∀ k baud e, (begun ms)[k]? = some (opener url baud) →
      ⟨.connect url baud, .error e⟩ ∈ dialogue (start.jobs.length + k) start ms →
        p.Ended (start.jobs.length + k) (.error e) ∧
          ∀ early late a b, ms = early ++ .step (start.jobs.length + k) :: late →
            start.course? early = some a → a.step? (start.jobs.length + k) = some b →
              b.site.registry = a.site.registry := by
  have hagreed := agreed_of_openers hspare hms hp
  have hcached : ∀ i c wasOpen, p.Ended i (.ok (c, wasOpen)) →
      p.site.registry.cached? url = some c := by
    intro i c wasOpen hended
    have hreports := reports_of_ended hspare hms hp hended
    cases wasOpen with
    | true => exact hagreed.found i c (hreports.found c rfl)
    | false => exact (hagreed.entered i c ((hreports.entered c).2 rfl)).2
  refine ⟨?_, ?_, ?_, ?_⟩
  · intro early late q i c wasOpen hsplit hq hended
    have hlate : q.course? late = some p := by
      rw [hsplit, course?_append, hq] at hp
      exact hp
    have hlast := done_of_course (fun m hm => (hms m (by simp [hsplit, hm])).leavesEnded) hlate
      hended
    -- Every client is accounted for, from the start of the process on.
    have horderly : ∀ m ∈ before ++ ms, m.IsOrderly := fun m hm =>
      (List.mem_append.1 hm).elim (hbefore m) fun hm => (hms m hm).isOrderly
    have hwhole : (new (Site.new buses streams absence)).course? (before ++ ms) = some p := by
      rw [course?_append, hstart]
      exact hp
    have haccounted := accounted_of_course horderly hwhole
    have hshared := hcached i c wasOpen hlast
    exact ⟨hshared, haccounted.balanced.closings_of_shared hshared⟩
  · rintro hnone ⟨i, c, wasOpen, hended⟩
    -- The client was not there before, so a call has entered it.
    obtain ⟨j, hj⟩ := (hagreed.origin c (hcached i c wasOpen hended)).resolve_left
      (by rw [hnone]; nofun)
    refine ⟨j, ⟨c, ended_of_enters hspare hms hp hj⟩, ?_⟩
    rintro k ⟨c', hk⟩
    exact hagreed.once k j c' c (((reports_of_ended hspare hms hp hk).entered c').2 rfl) hj
  · intro c hc i c' hi
    have henters := ((reports_of_ended hspare hms hp hi).entered c').2 rfl
    rw [(hagreed.entered i c' henters).1] at hc
    cases hc
  · intro k baud e hcall hfails
    have hended := ended_of_fails hms hp hcall hfails
    refine ⟨hended, fun early late a b hsplit ha hb => ?_⟩
    obtain ⟨request, hheard, hsite⟩ := mem_dialogue_of_step hsplit ha hb
    rw [hsite]
    exact registry_answer _ _
      ((reports_of_ended hspare hms hp hended).unchanged e rfl _ hheard)

/-- A gateway that cannot be opened at one rate. -/
def frontDoor : Site :=
  .new [("tcp://gw", { Segment.new with openFailures := [1200] })] [] ⟨fun _ => .timeout, .notFound⟩

def lodger (url : String) : Job (Opened ⊕ Unit) := request (.lease url) >>= fun _ => pure (.inr ())

/-- Three jobs find the gateway closed; one cannot open it, and one is second. -/
def rush : List (Move (Opened ⊕ Unit)) :=
  [.spawn (opener "tcp://gw" 9600), .spawn (opener "tcp://gw" 9600),
    .spawn (opener "tcp://gw" 1200), .spawn (lodger "tcp://gw")] ++
    [0, 1, 2, 0, 1, 2, 0, 3, 1, 1, 1, 1].map .step

theorem rush_agrees :
    ∃ p, (new frontDoor).course? rush = some p ∧ p.Ended 0 (.ok (0, false)) ∧
      p.Ended 1 (.ok (0, true)) ∧ p.Ended 2 (.error .timeout) ∧
      (p.site.registry.cached? "tcp://gw" = some 0 ∧ p.site.openings 0 = 1 ∧
        p.site.closings 0 = 0) ∧
      (∃! i, ∃ c, p.Ended i (.ok (c, false))) ∧ p.site.closings 1 = 1 := by
  have hlodger : (lodger "tcp://gw").All (Request.Spares "tcp://gw") fun r => r.isRight :=
    ⟨trivial, fun _ => rfl⟩
  have hms : ∀ m ∈ rush, m.OpensOrSpares "tcp://gw" := by
    intro m hm
    rcases List.mem_append.1 hm with hspawn | hstep
    · simp only [List.mem_cons, List.not_mem_nil, or_false] at hspawn
      rcases hspawn with rfl | rfl | rfl | rfl
      · exact Or.inl ⟨9600, rfl⟩
      · exact Or.inl ⟨9600, rfl⟩
      · exact Or.inl ⟨1200, rfl⟩
      · exact Or.inr ⟨.lease "tcp://gw" _ fun _ => .done (Sum.inr ()), hlodger⟩
    · obtain ⟨i, -, rfl⟩ := List.mem_map.1 hstep
      trivial
  obtain ⟨p, hp, hfirst, hsecond, hthird, hclosed⟩ : ∃ p, (new frontDoor).course? rush = some p ∧
      p.Ended 0 (.ok (0, false)) ∧ p.Ended 1 (.ok (0, true)) ∧ p.Ended 2 (.error .timeout) ∧
      p.site.closings 1 = 1 := ⟨_, rfl, rfl, rfl, rfl, rfl⟩
  have hbefore : ∀ m ∈ ([] : List (Move (Opened ⊕ Unit))), m.IsOrderly := nofun
  have hspare : ∀ x ∈ (new frontDoor : Pool (Opened ⊕ Unit)).jobs,
      x.All (Request.Spares "tcp://gw") fun r => r.isRight := nofun
  obtain ⟨hopen, hone, -⟩ := openers_agree hbefore rfl hspare hms hp
  exact ⟨p, hp, hfirst, hsecond, hthird, hopen rush [] p 1 0 true (by simp) hp hsecond,
    hone rfl ⟨1, 0, true, hsecond⟩, hclosed⟩

end Pool

end

end Site

end HomeMetering
