import HomeMetering.Proofs.Meter.Identify
import HomeMetering.Proofs.Modbus.Undisturbed
import HomeMetering.Proofs.Modbus.Whereabouts

/-!
# What looking for a meter does to the registry

Looking for a meter and letting go of one are orderly jobs. When nobody interrupts, a search leaves
the registry as it was, apart from one more lease for the meter that it found.
-/

namespace HomeMetering

open Modbus Site Site.Job

/-! ## Orderly jobs -/

namespace Slot

variable {K : Type} [Quantity K]

theorem orderly_tryBrands (s : Slot) (client : ClientId) (baud : Nat) (brands : List Brand) :
    (s.tryBrands client baud brands : Job (Option (Meter K))).Orderly := by
  induction brands with
  | nil => exact .done none
  | cons brand rest ih =>
    refine (Orderly.of_all (all_probeBrand brand _ _)).bind fun found => ?_
    cases found with
    | ok meter => exact .lease _ _ fun _ => .done _
    | error e => exact ih

theorem orderly_tryRates (s : Slot) (isSerial : Bool) (brands : List Brand) (rates : List Nat) :
    (s.tryRates isSerial brands rates : Job (Option (Meter K))).Orderly := by
  induction rates with
  | nil => exact .done none
  | cons baud rest ih =>
    refine .getOrOpen _ _ _ fun opened => ?_
    rcases opened with e | ⟨client, wasOpen⟩
    · exact ih
    · refine (orderly_tryBrands ..).bind fun found => ?_
      cases found with
      | some meter => exact .done _
      | none =>
        cases wasOpen with
        | true => exact ih
        | false => exact .removeUnused _ _ fun _ => ih

theorem orderly_probeBus (s : Slot) : (s.probeBus : Job (Option (Meter K))).Orderly := by
  unfold probeBus
  split
  · exact (Orderly.of_all (all_warn _)).bind fun _ => .done none
  · split
    · exact (Orderly.of_all (all_warn _)).bind fun _ => .done none
    · exact (Orderly.of_all (s.all_rates _)).bind fun rates => s.orderly_tryRates _ _ rates

/-- Looks for a meter, and leaves no warning when there is none. -/
def search (s : Slot) (timeout : Nat) : Job (Option (Meter K)) :=
  match s.transport with
  | .modbus => s.probeBus
  | .serial => s.probePort timeout

def report {K : Type} (s : Slot) (found : Option (Meter K)) : Job (Option (Meter K)) := do
  if found.isNone then
    warn ("No meter detected at " ++ s.connect ++ " unit " ++ toString s.unit.toNat ++
      ", slot stays empty")
  return found

theorem probe_eq (s : Slot) (timeout : Nat) :
    (s.probe timeout : Job (Option (Meter K))) = s.search timeout >>= s.report := by
  unfold probe search
  cases s.transport <;> rfl

theorem all_report {K : Type} (s : Slot) (found : Option (Meter K)) :
    (s.report found).All Request.IsUse fun r => r = found := by
  cases found with
  | none => exact .bind (all_warn _) fun _ _ => .done rfl
  | some meter => exact .done rfl

/-- Looking for a meter opens, drops and leases connections in order. -/
theorem orderly_probe (s : Slot) (timeout : Nat) :
    (s.probe timeout : Job (Option (Meter K))).Orderly := by
  rw [probe_eq]
  refine Orderly.bind ?_ fun found => .of_all (s.all_report found)
  unfold search
  cases s.transport with
  | modbus => exact s.orderly_probeBus
  | serial => exact .of_all (s.all_probePort timeout)

end Slot

theorem Modbus.Link.orderly_release (l : Link) : l.release.Orderly := by
  unfold Link.release
  split
  · exact .done l
  · exact .release l.url _ fun _ => .done _

theorem Meter.orderly_shutdown {K : Type} (m : Meter K) : m.shutdown.Orderly := by
  cases m with
  | abb m | carloGavazzi m | victron m => exact m.link.orderly_release.bind fun _ => .done _
  | dsmr m => exact .use (.unfollow m.port) trivial _ fun _ => .done _
  | playback m => exact .done _

/-! ## Undisturbed runs -/

/-- The address that a meter has a lease on, until it gives it back. -/
def Meter.leased? {K : Type} (m : Meter K) : Option String :=
  m.link?.bind fun l => if l.released then none else some l.url

theorem Meter.leased?_eq_some {K : Type} {m : Meter K} {url : String} :
    m.leased? = some url ↔ ∃ l, m.link? = some l ∧ l.url = url ∧ l.released = false := by
  unfold Meter.leased?
  rw [Option.bind_eq_some_iff]
  simp [and_comm]

namespace Slot

variable {K : Type} [Quantity K] {a b : Site}

theorem tryBrands_runs {s : Slot} {client : ClientId} {baud : Nat} {brands : List Brand}
    {found : Option (Meter K)} (h : (s.tryBrands client baud brands).Runs a found b) :
    (found = none ∧ b.registry = a.registry) ∨
      ∃ m, found = some m ∧ m.leased? = some s.connect ∧
        b.registry = a.registry.lease s.connect := by
  induction brands generalizing a with
  | nil =>
    obtain ⟨rfl, rfl⟩ := h
    exact Or.inl ⟨rfl, rfl⟩
  | cons brand rest ih =>
    obtain ⟨answer, u, hprobe, h⟩ := runs_bind.1 h
    obtain ⟨hsame, hlink⟩ := registry_of_uses (all_probeBrand ..) hprobe
    cases answer with
    | error e => exact hsame ▸ ih h
    | ok m =>
      obtain ⟨_, v, hlease, h⟩ := runs_bind.1 h
      obtain ⟨rfl, rfl⟩ := h
      refine Or.inr ⟨m, rfl, Meter.leased?_eq_some.2 ⟨_, hlink m rfl, rfl, rfl⟩, ?_⟩
      rw [lease_runs hlease, hsame]

theorem tryRates_runs {s : Slot} {isSerial : Bool} {brands : List Brand} {rates : List Nat}
    {found : Option (Meter K)} (h : (s.tryRates isSerial brands rates).Runs a found b) :
    (found = none ∧ b.registry = a.registry) ∨
      ∃ m, found = some m ∧ m.leased? = some s.connect ∧
        a.registry.Joins b.registry s.connect := by
  induction rates generalizing a with
  | nil =>
    obtain ⟨rfl, rfl⟩ := h
    exact Or.inl ⟨rfl, rfl⟩
  | cons baud rest ih =>
    obtain ⟨opened, u, hopen, h⟩ := runs_bind.1 h
    rcases getOrOpen_runs hopen with ⟨⟨e, rfl⟩, hu⟩ | ⟨c, rfl, hcached, hu⟩ | ⟨c, rfl, hnone, hu⟩
    · rw [← hu]
      exact ih h
    · obtain ⟨shared, hfind, -⟩ := Option.map_eq_some_iff.1 hcached
      obtain ⟨tried, v, htry, h⟩ := runs_bind.1 h
      rcases tryBrands_runs htry with ⟨rfl, hv⟩ | ⟨m, rfl, hm, hv⟩
      · rw [← hu, ← hv]
        exact ih h
      · obtain ⟨rfl, rfl⟩ := h
        refine Or.inr ⟨m, rfl, hm, ?_⟩
        rw [hv, hu]
        exact Registry.joins_lease hfind
    · obtain ⟨tried, v, htry, h⟩ := runs_bind.1 h
      rcases tryBrands_runs htry with ⟨rfl, hv⟩ | ⟨m, rfl, hm, hv⟩
      · obtain ⟨_, w, hremove, h⟩ := runs_bind.1 h
        have hw : w.registry = a.registry := by
          rw [removeUnused_runs hremove, hv, hu, Registry.evict_put hnone]
        rw [← hw]
        exact ih h
      · obtain ⟨rfl, rfl⟩ := h
        refine Or.inr ⟨m, rfl, hm, ?_⟩
        rw [hv, hu]
        exact Registry.joins_put_lease hnone c

theorem probeBus_runs {s : Slot} {found : Option (Meter K)} (h : s.probeBus.Runs a found b) :
    (found = none ∧ b.registry = a.registry) ∨
      ∃ m, found = some m ∧ m.leased? = some s.connect ∧
        a.registry.Joins b.registry s.connect := by
  unfold probeBus at h
  split at h
  · obtain ⟨_, u, hwarn, h⟩ := runs_bind.1 h
    obtain ⟨rfl, rfl⟩ := h
    exact Or.inl ⟨rfl, (registry_of_uses (all_warn _) hwarn).1⟩
  · split at h
    · obtain ⟨_, u, hwarn, h⟩ := runs_bind.1 h
      obtain ⟨rfl, rfl⟩ := h
      exact Or.inl ⟨rfl, (registry_of_uses (all_warn _) hwarn).1⟩
    · obtain ⟨rates, u, hrates, h⟩ := runs_bind.1 h
      rw [← (registry_of_uses (s.all_rates _) hrates).1]
      exact tryRates_runs h

/-- A search that nobody interrupts leaves the registry as it was, unless it finds a meter on the
bus: that one holds one more lease. -/
theorem probe_runs {s : Slot} {timeout : Nat} {found : Option (Meter K)}
    (h : (s.probe timeout).Runs a found b) :
    ((∀ m ∈ found, m.link? = none) ∧ b.registry = a.registry) ∨
      ∃ m, found = some m ∧ m.leased? = some s.connect ∧
        a.registry.Joins b.registry s.connect := by
  rw [probe_eq] at h
  obtain ⟨searched, u, hsearch, hreport⟩ := runs_bind.1 h
  obtain ⟨hsame, rfl⟩ := registry_of_uses (s.all_report searched) hreport
  rw [hsame]
  unfold search at hsearch
  cases htransport : s.transport with
  | modbus =>
    rw [htransport] at hsearch
    rcases probeBus_runs hsearch with ⟨rfl, hu⟩ | hfound
    · exact Or.inl ⟨by simp, hu⟩
    · exact Or.inr hfound
  | serial =>
    rw [htransport] at hsearch
    obtain ⟨hu, hlink⟩ := registry_of_uses (s.all_probePort timeout) hsearch
    exact Or.inl ⟨hlink, hu⟩

end Slot

theorem Meter.shutdown_runs {K : Type} {m m' : Meter K} {a b : Site}
    (h : m.shutdown.Runs a m' b) :
    (m.link? = none ∧ m'.link? = none ∧ b.registry = a.registry) ∨
      ∃ l, m.link? = some l ∧ m'.link? = some { l with released := true } ∧
        b.registry = if l.released then a.registry else (a.registry.giveBack l.url).2 := by
  cases m with
  | abb m | carloGavazzi m | victron m =>
    obtain ⟨l, u, hrelease, h⟩ := runs_bind.1 h
    obtain ⟨rfl, rfl⟩ := h
    obtain ⟨rfl, hu⟩ := Link.release_runs hrelease
    exact Or.inr ⟨m.link, rfl, rfl, hu⟩
  | dsmr m =>
    obtain ⟨other, h⟩ := h
    obtain ⟨rfl, rfl⟩ := h
    exact Or.inl ⟨rfl, rfl, rfl⟩
  | playback m =>
    obtain ⟨rfl, rfl⟩ := h
    exact Or.inl ⟨rfl, rfl, rfl⟩

end HomeMetering
