import HomeMetering.Proofs.Meter.Leasing
import HomeMetering.Proofs.Meter.Life

/-!
# Searches side by side

A search takes its lease at the very end, and others can close its client until then. All meters
keep their clients exactly when each of these clients was still shared at that moment.
-/

namespace HomeMetering

open Modbus Site Site.Job

variable {K : Type}

/-! ## Leases in a pool -/

/-- A move of a process that looks for meters side by side and lets go of the ones it found. -/
def Site.Move.IsProbing [Quantity K] : Move (Option (Meter K)) → Prop
  | .step _ => True
  | .spawn job => ∃ (slot : Slot) (timeout : Nat), job = slot.probe timeout
  | .resume _ next => next = letGo
  | .drift _ => True

theorem orderly_letGo (found : Option (Meter K)) : (letGo found).Orderly := by
  cases found with
  | none => exact .done none
  | some m => exact m.orderly_shutdown.bind fun m' => .done (some m')

theorem Site.Move.IsProbing.isOrderly [Quantity K] {m : Move (Option (Meter K))}
    (h : m.IsProbing) : m.IsOrderly := by
  cases m with
  | step i => trivial
  | spawn job =>
    obtain ⟨slot, timeout, rfl⟩ := h
    exact slot.orderly_probe timeout
  | resume i next =>
    obtain rfl : next = letGo := h
    exact orderly_letGo
  | drift other => trivial

namespace Site.Pool

variable {p q : Pool (Option (Meter K))}

def tenants (jobs : List (Job (Option (Meter K)))) (url : String) : Nat :=
  jobs.countP fun job => job.leased? leaseOfFound = some url

/-- Every meter that was returned and not let go of has its client shared and open, with a lease for
every meter that has one. -/
def Housed (p : Pool (Option (Meter K))) : Prop :=
  ∀ m l, .done (some m) ∈ p.jobs → m.link? = some l → l.released = false →
    p.site.registry.cached? l.url = some l.client ∧ p.site.closings l.client = 0 ∧
      p.site.registry.leases l.url = tenants p.jobs l.url

/-- When the next move takes a lease for a meter, the client of the meter is still shared. -/
def LeasesOwn (p : Pool (Option (Meter K))) : Move (Option (Meter K)) → Prop
  | .step i => ∀ url next m l, p.jobs[i]? = some (.ask (.lease url) next) →
      next () = .done (some m) → m.link? = some l →
      p.site.registry.cached? l.url = some l.client
  | _ => True

def Minding (p : Pool (Option (Meter K))) : Prop :=
  ∀ job ∈ p.jobs, job.MindsLeases leaseOfFound

/-- Every lease is counted, and every meter has a lease on its own client. -/
structure Tenanted (p : Pool (Option (Meter K))) : Prop where
  counted : ∀ url, p.site.registry.leases url = tenants p.jobs url
  own : ∀ m l, .done (some m) ∈ p.jobs → m.link? = some l → l.released = false →
    p.site.registry.cached? l.url = some l.client

theorem Minding.move [Quantity K] {m : Move (Option (Meter K))} (hp : p.Minding)
    (hm : m.IsProbing) (h : p.move? m = some q) : q.Minding := by
  cases m with
  | step i =>
    obtain ⟨request, next, hjob, -, rfl⟩ := step?_eq_some h
    intro job hmem
    rcases List.mem_or_eq_of_mem_set hmem with hold | rfl
    · exact hp job hold
    · exact (hp _ (List.mem_of_getElem? hjob) _).1
  | spawn job =>
    obtain rfl := Option.some.inj h
    obtain ⟨slot, timeout, rfl⟩ := hm
    intro job hmem
    rcases List.mem_append.1 hmem with hold | hnew
    · exact hp job hold
    · obtain rfl := List.mem_singleton.1 hnew
      exact (slot.unleased_probe timeout).1
  | resume i next =>
    obtain rfl : next = letGo := hm
    obtain ⟨found, hjob, rfl⟩ := resume?_eq_some h
    intro job hmem
    rcases List.mem_or_eq_of_mem_set hmem with hold | rfl
    · exact hp job hold
    · exact (givesBackFirst_letGo found).minds
  | drift other =>
    obtain rfl := Option.some.inj h
    exact hp

theorem LeasesOwn.find?_ne_none {i : Nat} {url : String} {next : Unit → Job (Option (Meter K))}
    (hown : p.LeasesOwn (.step i)) (hjob : p.jobs[i]? = some (.ask (.lease url) next))
    (hminds : (Job.ask (.lease url) next).MindsLeases leaseOfFound) :
    p.site.registry.find? url ≠ none := by
  obtain ⟨-, hleased, hends⟩ := hminds ()
  cases hnext : next () with
  | ask q' next' =>
    rw [hnext] at hends
    cases hends rfl
  | done found =>
    rw [hnext] at hleased
    cases found with
    | none => cases hleased
    | some m =>
      obtain ⟨l, hl, hurl, -⟩ := Meter.leased?_eq_some.1 hleased
      have hcached := hown url next m l hjob hnext hl
      rw [hurl] at hcached
      intro hnone
      rw [Registry.cached?, hnone] at hcached
      cases hcached

theorem Tenanted.step {i : Nat} (hp : p.Tenanted) (hminding : p.Minding)
    (hown : p.LeasesOwn (.step i)) (h : p.step? i = some q) : q.Tenanted := by
  obtain ⟨request, next, hjob, -, rfl⟩ := step?_eq_some h
  have hjob_minds := hminding _ (List.mem_of_getElem? hjob)
  obtain ⟨-, hleased, -⟩ := hjob_minds (p.site.answer request).1
  have hfind : ∀ url, request = .lease url → p.site.registry.find? url ≠ none := by
    rintro url rfl
    exact hown.find?_ne_none hjob hjob_minds
  have hcounted : ∀ url, (p.site.answer request).2.registry.leases url =
      tenants (p.jobs.set i (next (p.site.answer request).1)) url := by
    intro url
    have hset := countP_set_add hjob (next (p.site.answer request).1)
      fun job => job.leased? leaseOfFound = some url
    rw [hleased, leased?_ask] at hset
    simp only [decide_eq_true_eq] at hset
    -- Only the job that made the request can have won or lost a lease by it.
    have hleases := leases_answer p.site request hfind url
    rw [hp.counted url] at hleases
    unfold tenants at hleases ⊢
    omega
  refine ⟨hcounted, fun m l hmem hl hfresh => ?_⟩
  have hlease : m.leased? = some l.url := Meter.leased?_eq_some.2 ⟨l, hl, rfl, hfresh⟩
  -- The meter has a lease after the request, so its client was not taken out by it.
  have hpos : 0 < (p.site.answer request).2.registry.leases l.url := by
    rw [hcounted]
    exact List.countP_pos_iff.2 ⟨_, hmem, decide_eq_true hlease⟩
  refine cached?_answer_of_leased _ _ ?_ hpos
  rcases List.mem_or_eq_of_mem_set hmem with hold | hnew
  · exact hp.own m l hold hl hfresh
  · -- A job that ends with a lease has just taken it.
    rw [← hnew] at hleased
    have hrequest : request.leased? = some l.url := hleased.symm.trans hlease
    cases request with
    | lease url => exact hown url next m l hjob hnew.symm hl
    | _ => cases hrequest

theorem Tenanted.spawn {job : Job (Option (Meter K))} (hp : p.Tenanted)
    (hjob : job.Unleased leaseOfFound) : (p.spawn job).Tenanted := by
  refine ⟨fun url => ?_, fun m l hmem hl hfresh => ?_⟩
  · rw [show (p.spawn job).site = p.site from rfl, hp.counted url]
    unfold tenants Pool.spawn
    rw [List.countP_append, List.countP_singleton, hjob.2]
    rfl
  · rcases List.mem_append.1 hmem with hold | hnew
    · exact hp.own m l hold hl hfresh
    · have hnone := hjob.2
      rw [← List.mem_singleton.1 hnew] at hnone
      have hlease : m.leased? = some l.url := Meter.leased?_eq_some.2 ⟨l, hl, rfl, hfresh⟩
      cases hlease.symm.trans hnone

theorem Tenanted.resume {i : Nat} (hp : p.Tenanted) (h : p.resume? i letGo = some q) :
    q.Tenanted := by
  obtain ⟨found, hjob, rfl⟩ := resume?_eq_some h
  obtain ⟨-, hleased, hbusy⟩ := givesBackFirst_letGo found
  refine ⟨fun url => ?_, fun m l hmem hl hfresh => ?_⟩
  · have hset := countP_set_add hjob (letGo found)
      fun job => job.leased? leaseOfFound = some url
    rw [hleased] at hset
    have hcounted := hp.counted url
    unfold tenants at hcounted ⊢
    exact hcounted.trans (Nat.add_right_cancel hset).symm
  · rcases List.mem_or_eq_of_mem_set hmem with hold | hnew
    · exact hp.own m l hold hl hfresh
    · have hlease : m.leased? = some l.url := Meter.leased?_eq_some.2 ⟨l, hl, rfl, hfresh⟩
      rw [← hnew] at hleased hbusy
      have hfound : leaseOfFound found = some l.url := hleased.symm.trans hlease
      cases hbusy (by rw [hfound]; rfl)

theorem Tenanted.move [Quantity K] {m : Move (Option (Meter K))} (hp : p.Tenanted)
    (hminding : p.Minding) (hm : m.IsProbing) (hown : p.LeasesOwn m)
    (h : p.move? m = some q) : q.Tenanted := by
  cases m with
  | step i => exact hp.step hminding hown h
  | spawn job =>
    obtain rfl := Option.some.inj h
    obtain ⟨slot, timeout, rfl⟩ := hm
    exact hp.spawn (slot.unleased_probe timeout)
  | resume i next =>
    obtain rfl : next = letGo := hm
    exact hp.resume h
  | drift other =>
    obtain rfl := Option.some.inj h
    exact ⟨hp.counted, hp.own⟩

theorem minding_new (site : Site) : (new site : Pool (Option (Meter K))).Minding := by
  rintro job ⟨⟩

theorem tenanted_new (buses : List (String × Segment))
    (streams : List (String × List (Nat × List Telegram.Delivery))) (absence : Absence) :
    (new (Site.new buses streams absence) : Pool (Option (Meter K))).Tenanted :=
  ⟨fun _ => rfl, by rintro m l ⟨⟩⟩

theorem minding_of_course [Quantity K] {site : Site} {ms : List (Move (Option (Meter K)))}
    (hms : ∀ m ∈ ms, m.IsProbing) (hp : (new site).course? ms = some p) : p.Minding := by
  refine invariant_of_course Minding hp (minding_new site) ?_
  rintro before m after rfl a b - ha hb
  exact ha.move (hms m (by simp)) hb

theorem tenanted_of_course [Quantity K] {buses : List (String × Segment)}
    {streams : List (String × List (Nat × List Telegram.Delivery))} {absence : Absence}
    {ms : List (Move (Option (Meter K)))} (hms : ∀ m ∈ ms, m.IsProbing)
    (hown : ∀ before m after p, ms = before ++ m :: after →
      (new (Site.new buses streams absence)).course? before = some p → p.LeasesOwn m)
    (hp : (new (Site.new buses streams absence)).course? ms = some p) : p.Tenanted := by
  refine invariant_of_course Tenanted hp (tenanted_new buses streams absence) ?_
  rintro before m after rfl a b ha htenanted hb
  have hbefore : ∀ m' ∈ before, m'.IsProbing := fun m' hm' => hms m' (by simp [hm'])
  exact htenanted.move (minding_of_course hbefore ha) (hms m (by simp))
    (hown before m after a rfl ha) hb

theorem Tenanted.housed (hp : p.Tenanted) (haccounted : p.Accounted) : p.Housed := by
  intro m l hmem hl hfresh
  have hcached := hp.own m l hmem hl hfresh
  exact ⟨hcached, (haccounted.balanced.closings_of_shared hcached).2, hp.counted l.url⟩

theorem LeasesOwn.of_housed {m : Move (Option (Meter K))} (hp : p.Minding)
    (h : ∀ q, p.move? m = some q → q.Housed) : p.LeasesOwn m := by
  cases m with
  | step i =>
    intro url next m l hjob hnext hl
    obtain ⟨-, hleased, -⟩ := hp _ (List.mem_of_getElem? hjob) ()
    rw [hnext] at hleased
    obtain ⟨l', hl', -, hfresh⟩ := Meter.leased?_eq_some.1 hleased
    obtain rfl : l' = l := Option.some.inj (hl'.symm.trans hl)
    have hstep : p.step? i = some ⟨(p.site.answer (.lease url)).2, p.jobs.set i (next ())⟩ := by
      unfold step?
      rw [hjob]
      rfl
    obtain ⟨hi, -⟩ := List.getElem?_eq_some_iff.1 hjob
    have hmem : Job.done (some m) ∈ p.jobs.set i (next ()) := hnext ▸ List.mem_set hi _
    obtain ⟨hcached, -⟩ := h _ hstep m l' hmem hl hfresh
    exact (Registry.cached?_lease p.site.registry url l'.url).symm.trans hcached
  | _ => trivial

/-- Searches and shutdowns side by side keep every returned meter housed at all times exactly when
every lease is taken while the client of its meter is still shared. -/
theorem housed_iff_leasesOwn [Quantity K] {buses : List (String × Segment)}
    {streams : List (String × List (Nat × List Telegram.Delivery))} {absence : Absence}
    {ms : List (Move (Option (Meter K)))} (hms : ∀ m ∈ ms, m.IsProbing) :
    (∀ before after p, ms = before ++ after →
        (new (Site.new buses streams absence)).course? before = some p → p.Housed) ↔
      ∀ before m after p, ms = before ++ m :: after →
        (new (Site.new buses streams absence)).course? before = some p → p.LeasesOwn m := by
  constructor
  · intro hhoused before m after p hsplit hp
    have hbefore : ∀ m' ∈ before, m'.IsProbing := fun m' hm' => hms m' (by simp [hsplit, hm'])
    -- A lease on anything else would leave the meter without its client at once.
    refine .of_housed (minding_of_course hbefore hp) fun q hq => ?_
    refine hhoused (before ++ [m]) after q (by simp [hsplit]) ?_
    rw [course?_append, hp]
    show (p.move? m).bind _ = _
    rw [hq]
    rfl
  · intro hown before after p hsplit hp
    have hbefore : ∀ m ∈ before, m.IsProbing := fun m hm => hms m (by simp [hsplit, hm])
    have haccounted := accounted_of_course (fun m hm => (hbefore m hm).isOrderly) hp
    refine (tenanted_of_course hbefore ?_ hp).housed haccounted
    intro b m a r hb hr
    exact hown b m (a ++ after) r (by simp [hsplit, hb]) hr

/-- Two slots of the house are searched at once, one waiting for the client while the other uses it.
The search that opened the gateway finds nothing, takes the client out while the other one reads the
serial number of the analyzer, and closes it afterwards. -/
def overlap : List (Move (Option (Meter Rat))) :=
  let opens := List.replicate 10 0
  let identifies := [1, 0, 1, 1, 1, 1]
  let fails := List.replicate 5 0
  let leases := List.replicate 5 1
  let closes := List.replicate 4 0
  [.spawn ((houseSlot 9).probe 0), .spawn ((houseSlot 1).probe 0)] ++
    (opens ++ identifies ++ fails ++ leases ++ closes).map .step

theorem overlap_isProbing : ∀ m ∈ overlap, m.IsProbing := by
  intro m hm
  rcases List.mem_append.1 hm with hsearch | hstep
  · rcases List.mem_pair.1 hsearch with rfl | rfl
    · exact ⟨houseSlot 9, 0, rfl⟩
    · exact ⟨houseSlot 1, 0, rfl⟩
  · obtain ⟨i, -, rfl⟩ := List.mem_map.1 hstep
    trivial

/-- So one of the leases was taken on a client that was no longer shared. -/
theorem overlap_not_leasesOwn :
    ¬ ∀ before m after p, overlap = before ++ m :: after →
      (new house).course? before = some p → p.LeasesOwn m := by
  intro hown
  obtain ⟨p, hp, m, l, hm, hl, hfresh, hgone⟩ : ∃ p, (new house).course? overlap = some p ∧
      ∃ m l, p.jobs[1]? = some (.done (some m)) ∧ m.link? = some l ∧ l.released = false ∧
        p.site.registry.cached? l.url = none := ⟨_, rfl, _, _, rfl, rfl, rfl, rfl⟩
  have hhoused := (housed_iff_leasesOwn overlap_isProbing).2 hown overlap [] p (by simp) hp
  obtain ⟨hcached, -⟩ := hhoused m l (List.mem_of_getElem? hm) hl hfresh
  rw [hgone] at hcached
  cases hcached

/-- The analyzer is returned with a client that was closed and is not shared. -/
theorem overlap_strands_meter :
    (∀ m ∈ overlap, m.IsProbing) ∧
      ∃ p m l, (new house).course? overlap = some p ∧ .done (some m) ∈ p.jobs ∧
        m.link? = some l ∧ l.released = false ∧
        p.site.registry.cached? l.url = none ∧ p.site.closings l.client = 1 :=
  ⟨overlap_isProbing, _, _, _, rfl, List.mem_of_getElem? (i := 1) rfl, rfl, rfl, rfl, rfl⟩

end Site.Pool

end HomeMetering
