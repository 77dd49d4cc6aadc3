import HomeMetering.Proofs.Modbus.Orderly

/-!
# No client is lost and none is closed twice

Any number of jobs open, drop, lease and give back connections, one request of one of them at a
time. A client that was opened is always in exactly one place: in the hands of one job, shared under
one address, or closed for good.
-/

namespace HomeMetering

open Modbus Site

/-! ## The account of a pool -/

namespace Site

variable {α : Type}

def heldBy (jobs : List (Job α)) (client : ClientId) : Nat :=
  jobs.countP fun job => job.custody.client? = some client

theorem heldBy_cons (job : Job α) (jobs : List (Job α)) (c : ClientId) :
    heldBy (job :: jobs) c = heldBy jobs c + job.custody.count c := by
  unfold heldBy Custody.count
  rw [List.countP_cons]
  simp

theorem heldBy_perm {jobs jobs' : List (Job α)} (h : jobs.Perm jobs') :
    heldBy jobs = heldBy jobs' :=
  funext fun _ => h.countP_eq _

theorem heldBy_pos_iff {jobs : List (Job α)} {c : ClientId} :
    0 < heldBy jobs c ↔ ∃ i : Nat, (jobs[i]?.bind fun job => job.custody.client?) = some c := by
  unfold heldBy
  rw [List.countP_pos_iff]
  constructor
  · rintro ⟨job, hmem, hc⟩
    obtain ⟨i, hi⟩ := List.getElem?_of_mem hmem
    exact ⟨i, by simpa [hi] using hc⟩
  · rintro ⟨i, hi⟩
    obtain ⟨job, hjob, hc⟩ := Option.bind_eq_some_iff.1 hi
    exact ⟨job, List.mem_of_getElem? hjob, by simpa using hc⟩

theorem holder_unique {jobs : List (Job α)} {c : ClientId} {i k : Nat} (hone : heldBy jobs c ≤ 1)
    (hi : (jobs[i]?.bind fun job => job.custody.client?) = some c)
    (hk : (jobs[k]?.bind fun job => job.custody.client?) = some c) : i = k := by
  obtain ⟨job, hjob, hc⟩ := Option.bind_eq_some_iff.1 hi
  obtain ⟨hlt, rfl⟩ := List.getElem?_eq_some_iff.1 hjob
  rw [← heldBy_perm (List.getElem_cons_eraseIdx_perm hlt), heldBy_cons,
    Custody.count_of_client? hc] at hone
  -- A second holder would be among the jobs other than i.
  by_contra hne
  obtain ⟨other, hother, hc'⟩ := Option.bind_eq_some_iff.1 hk
  have hrest : 0 < heldBy (jobs.eraseIdx i) c := by
    refine List.countP_pos_iff.2 ⟨other, ?_, by simpa using hc'⟩
    exact List.mem_eraseIdx_iff_getElem?.2 ⟨k, Ne.symm hne, hother⟩
  omega

/-- A move that begins orderly jobs only, and goes on with orderly ones. -/
def Move.IsOrderly : Move α → Prop
  | .step _ => True
  | .spawn job => job.Orderly
  | .resume _ next => ∀ a, (next a).Orderly
  | .drift _ => True

namespace Pool

/-- Every job is careful with what it has in its hands, and every client is accounted for. -/
structure Accounted (p : Pool α) : Prop where
  careful : ∀ job ∈ p.jobs, job.Careful job.custody
  balanced : p.site.Balanced (heldBy p.jobs)

variable {p q : Pool α}

theorem accounted_new (buses : List (String × Segment))
    (streams : List (String × List (Nat × List Telegram.Delivery))) (absence : Absence) :
    (new (Site.new buses streams absence) : Pool α).Accounted :=
  ⟨by simp [new], balanced_new buses streams absence⟩

theorem Accounted.set {i : Nat} {job next : Job α} {site : Site} {k : Custody}
    (hp : p.Accounted) (hjob : p.jobs[i]? = some job) (hnext : next.Careful k)
    (hsite : site.Balanced fun c => heldBy (p.jobs.eraseIdx i) c + k.count c) :
    (⟨site, p.jobs.set i next⟩ : Pool α).Accounted := by
  obtain ⟨hi, -⟩ := List.getElem?_eq_some_iff.1 hjob
  have hk := hnext.custody_eq
  refine ⟨fun j hj => ?_, ?_⟩
  · rcases List.mem_or_eq_of_mem_set hj with hold | rfl
    · exact hp.careful j hold
    · exact hk ▸ hnext
  · show site.Balanced (heldBy (p.jobs.set i next))
    rw [heldBy_perm (List.set_perm_cons_eraseIdx hi next), funext (heldBy_cons _ _), hk]
    exact hsite

theorem Accounted.apart {i : Nat} {job : Job α} (hp : p.Accounted)
    (hjob : p.jobs[i]? = some job) :
    p.site.Balanced fun c => heldBy (p.jobs.eraseIdx i) c + job.custody.count c := by
  obtain ⟨hi, rfl⟩ := List.getElem?_eq_some_iff.1 hjob
  have hbalanced := hp.balanced
  rw [← heldBy_perm (List.getElem_cons_eraseIdx_perm hi), funext (heldBy_cons _ _)] at hbalanced
  exact hbalanced

theorem Accounted.step {i : Nat} (hp : p.Accounted) (h : p.step? i = some q) : q.Accounted := by
  obtain ⟨request, next, hjob, -, rfl⟩ := step?_eq_some h
  obtain ⟨hpermits, hnext⟩ := hp.careful _ (List.mem_of_getElem? hjob)
  exact hp.set hjob (hnext _) ((hp.apart hjob).answer hpermits)

theorem Accounted.spawn {job : Job α} (hp : p.Accounted) (hjob : job.Orderly) :
    (p.spawn job).Accounted := by
  have hcareful := hjob.careful
  have hk := hcareful.custody_eq
  refine ⟨fun j hj => ?_, ?_⟩
  · rcases List.mem_append.1 hj with hold | hnew
    · exact hp.careful j hold
    · obtain rfl := List.mem_singleton.1 hnew
      exact hk.symm ▸ hcareful
  · show p.site.Balanced (heldBy (p.jobs ++ [job]))
    rw [heldBy_perm (List.perm_append_singleton job p.jobs), funext (heldBy_cons _ _), hk]
    exact hp.balanced

theorem Accounted.resume {i : Nat} {next : α → Job α} (hp : p.Accounted)
    (hnext : ∀ a, (next a).Orderly) (h : p.resume? i next = some q) : q.Accounted := by
  obtain ⟨a, hjob, rfl⟩ := resume?_eq_some h
  exact hp.set hjob (hnext a).careful (hp.apart hjob)

theorem Accounted.move {m : Move α} (hp : p.Accounted) (hm : m.IsOrderly)
    (h : p.move? m = some q) : q.Accounted := by
  cases m with
  | step i => exact hp.step h
  | spawn job =>
    obtain rfl := Option.some.inj h
    exact hp.spawn hm
  | resume i next => exact hp.resume hm h
  | drift other =>
    obtain rfl := Option.some.inj h
    exact ⟨hp.careful, hp.balanced.of_sameBooks (sameBooks_withHardware ..)⟩

theorem accounted_of_course {buses : List (String × Segment)}
    {streams : List (String × List (Nat × List Telegram.Delivery))} {absence : Absence}
    {ms : List (Move α)} (hms : ∀ m ∈ ms, m.IsOrderly)
    (hp : (new (Site.new buses streams absence)).course? ms = some p) : p.Accounted := by
  refine invariant_of_course Accounted hp (accounted_new buses streams absence) ?_
  rintro before m after rfl a b - ha hb
  exact ha.move (hms m (by simp)) hb

/-! ## Where a client is -/

/-- A place where a client can be. -/
inductive Place where
  /-- A job has opened it and not entered it in the registry. -/
  | opened (job : Nat)
  | shared (url : String)
  /-- A job is about to close it. -/
  | doomed (job : Nat)
  | closed
  deriving Repr, DecidableEq

/-- Whether a client is in a place. -/
def Has (p : Pool α) (client : ClientId) : Place → Prop
  | .opened job => ∃ url, p.jobs[job]?.map Job.custody = some (.opened url client)
  | .shared url => p.site.registry.cached? url = some client
  | .doomed job =>
    p.jobs[job]?.map Job.custody = some (.doomed client) ∨
      p.jobs[job]?.map Job.custody = some (.locked client)
  | .closed => 0 < p.site.closings client

/-- How often a client is in places of a kind. -/
def tally (p : Pool α) (client : ClientId) : Place → Nat
  | .opened _ | .doomed _ => heldBy p.jobs client
  | .shared _ => p.site.registry.shares client
  | .closed => p.site.closings client

variable {c : ClientId} {w w' : Place}

theorem holder_of_opened {i : Nat} (h : p.Has c (.opened i)) :
    (p.jobs[i]?.bind fun job => job.custody.client?) = some c := by
  obtain ⟨url, h⟩ := h
  obtain ⟨job, hjob, hk⟩ := Option.map_eq_some_iff.1 h
  simp [hjob, hk, Custody.client?]

theorem holder_of_doomed {i : Nat} (h : p.Has c (.doomed i)) :
    (p.jobs[i]?.bind fun job => job.custody.client?) = some c := by
  rcases h with h | h
  all_goals
    obtain ⟨job, hjob, hk⟩ := Option.map_eq_some_iff.1 h
    simp [hjob, hk, Custody.client?]

theorem has_of_holder {i : Nat}
    (h : (p.jobs[i]?.bind fun job => job.custody.client?) = some c) :
    p.Has c (.opened i) ∨ p.Has c (.doomed i) := by
  obtain ⟨job, hjob, hc⟩ := Option.bind_eq_some_iff.1 h
  simp only [Has, hjob, Option.map_some]
  cases hk : job.custody with
  | nothing => simp [hk, Custody.client?] at hc
  | opened url client =>
    obtain rfl : client = c := by simpa [hk, Custody.client?] using hc
    exact Or.inl ⟨url, rfl⟩
  | doomed client =>
    obtain rfl : client = c := by simpa [hk, Custody.client?] using hc
    exact Or.inr (Or.inl rfl)
  | locked client =>
    obtain rfl : client = c := by simpa [hk, Custody.client?] using hc
    exact Or.inr (Or.inr rfl)

theorem not_doomed_of_opened {i : Nat} (h : p.Has c (.opened i)) : ¬ p.Has c (.doomed i) := by
  obtain ⟨url, h⟩ := h
  rintro (h' | h') <;> rw [h] at h' <;> cases h'

theorem Accounted.tally_pos (hp : p.Accounted) (h : p.Has c w) : 0 < p.tally c w := by
  cases w with
  | opened i => exact heldBy_pos_iff.2 ⟨i, holder_of_opened h⟩
  | shared url => exact (Registry.shares_pos_iff hp.balanced.wellKeyed).2 ⟨url, h⟩
  | doomed i => exact heldBy_pos_iff.2 ⟨i, holder_of_doomed h⟩
  | closed => exact h

theorem Accounted.place_unique (hp : p.Accounted)
    (hone : heldBy p.jobs c + p.site.registry.shares c + p.site.closings c = 1)
    (hw : p.Has c w) (hw' : p.Has c w') : w = w' := by
  have hpos := hp.tally_pos hw
  have hpos' := hp.tally_pos hw'
  -- Places of two kinds would count the client twice.
  cases w <;> cases w' <;> simp only [tally] at hpos hpos' <;> try omega
  case opened.opened i k =>
    rw [holder_unique (by omega) (holder_of_opened hw) (holder_of_opened hw')]
  case opened.doomed i k =>
    obtain rfl := holder_unique (by omega) (holder_of_opened hw) (holder_of_doomed hw')
    exact absurd hw' (not_doomed_of_opened hw)
  case doomed.opened i k =>
    obtain rfl := holder_unique (by omega) (holder_of_doomed hw) (holder_of_opened hw')
    exact absurd hw (not_doomed_of_opened hw')
  case doomed.doomed i k =>
    rw [holder_unique (by omega) (holder_of_doomed hw) (holder_of_doomed hw')]
  case shared.shared url url' =>
    rw [Registry.url_unique hp.balanced.wellKeyed (by omega) hw' hw]
  case closed.closed => rfl

theorem Accounted.exists_place (hp : p.Accounted)
    (hone : heldBy p.jobs c + p.site.registry.shares c + p.site.closings c = 1) :
    ∃ w, p.Has c w := by
  by_cases hheld : 0 < heldBy p.jobs c
  · obtain ⟨i, hi⟩ := heldBy_pos_iff.1 hheld
    rcases has_of_holder hi with h | h
    · exact ⟨_, h⟩
    · exact ⟨_, h⟩
  by_cases hshared : 0 < p.site.registry.shares c
  · obtain ⟨url, hurl⟩ := (Registry.shares_pos_iff hp.balanced.wellKeyed).1 hshared
    exact ⟨.shared url, hurl⟩
  exact ⟨.closed, by show 0 < p.site.closings c; omega⟩

theorem Accounted.counted_once (hp : p.Accounted) (hc : 0 < p.site.openings c) :
    heldBy p.jobs c + p.site.registry.shares c + p.site.closings c = 1 := by
  have hbalance := hp.balanced.balance c
  have hnumber := hp.balanced.numbered c
  split at hnumber <;> omega

/-- No job has a client in its hands. -/
def IsQuiet (p : Pool α) : Prop := ∀ job ∈ p.jobs, job.custody = .nothing

theorem isQuiet_of_isIdle (h : p.isIdle) : p.IsQuiet := by
  intro job hjob
  have hdone := List.all_eq_true.1 h job hjob
  cases job with
  | done a => rfl
  | ask q next => cases hdone

theorem IsQuiet.not_held (h : p.IsQuiet) (c : ClientId) : heldBy p.jobs c = 0 := by
  refine List.countP_eq_zero.2 fun job hjob => ?_
  rw [h job hjob]
  simp [Custody.client?]

/-- Whatever orderly jobs do side by side, a client that was opened is in exactly one place at any
moment and was closed at most once. When no job has a client in its hands, as when all of them have
ended, it is either shared and open, or closed once and shared no longer. -/
theorem client_has_one_place {buses : List (String × Segment)}
    {streams : List (String × List (Nat × List Telegram.Delivery))} {absence : Absence}
    {ms : List (Move α)} (hms : ∀ m ∈ ms, m.IsOrderly)
    (hp : (new (Site.new buses streams absence)).course? ms = some p)
    (hc : 0 < p.site.openings c) :
    (∃! w, p.Has c w) ∧ p.site.closings c ≤ 1 ∧
      (p.IsQuiet →
        ((∃! url, p.site.registry.cached? url = some c) ∧ p.site.closings c = 0) ∨
          ((∀ url, p.site.registry.cached? url ≠ some c) ∧ p.site.closings c = 1)) := by
  have haccounted := accounted_of_course hms hp
  have hone := haccounted.counted_once hc
  have hkeys := haccounted.balanced.wellKeyed
  refine ⟨?_, by omega, fun hquiet => ?_⟩
  · obtain ⟨w, hw⟩ := haccounted.exists_place hone
    exact ⟨w, hw, fun w' hw' => haccounted.place_unique hone hw' hw⟩
  · have hheld := hquiet.not_held c
    by_cases hshared : 0 < p.site.registry.shares c
    · obtain ⟨url, hurl⟩ := (Registry.shares_pos_iff hkeys).1 hshared
      have hunique := fun u hu => Registry.url_unique (u := u) hkeys (by omega) hurl hu
      exact Or.inl ⟨⟨url, hurl, hunique⟩, by omega⟩
    · refine Or.inr ⟨fun url hurl => hshared ?_, by omega⟩
      exact (Registry.shares_pos_iff hkeys).2 ⟨url, hurl⟩

def gateway : Site := .new [("tcp://gw", .new)] [] ⟨fun _ => .timeout, .notFound⟩

def opening : Job Unit := getOrOpen "tcp://gw" 9600 >>= fun _ => pure ()

/-- Two jobs find the gateway closed and open it both. -/
def race : List (Move Unit) :=
  [.spawn opening, .spawn opening] ++ [0, 1, 0, 1, 0, 1, 1, 1, 1].map .step

theorem orderly_opening : opening.Orderly := .getOrOpen "tcp://gw" 9600 _ fun _ => .done ()

/-- The client that came second is closed once when both jobs have ended. -/
theorem second_client_has_one_place :
    ∃ p, (new gateway).course? race = some p ∧ p.isIdle ∧ 0 < p.site.openings 1 ∧
      (∃! w, p.Has 1 w) ∧ p.site.closings 1 ≤ 1 ∧
        (((∃! url, p.site.registry.cached? url = some 1) ∧ p.site.closings 1 = 0) ∨
          ((∀ url, p.site.registry.cached? url ≠ some 1) ∧ p.site.closings 1 = 1)) := by
  have hrace : ∀ m ∈ race, m.IsOrderly := by
    simp [race, Move.IsOrderly, orderly_opening]
  have hopened : ∀ p, (new gateway).course? race = some p → 0 < p.site.openings 1 := by
    rintro p hp
    obtain rfl := Option.some.inj hp
    decide
  obtain ⟨p, hp, hidle⟩ : ∃ p, (new gateway).course? race = some p ∧ p.isIdle := ⟨_, rfl, rfl⟩
  obtain ⟨hone, hclosed, hquiet⟩ := client_has_one_place hrace hp (hopened p hp)
  exact ⟨p, hp, hidle, hopened p hp, hone, hclosed, hquiet (isQuiet_of_isIdle hidle)⟩

end Pool

end Site

end HomeMetering
