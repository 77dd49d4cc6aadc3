import HomeMetering.Proofs.Meter.Writing
import HomeMetering.Proofs.Site.Panels

/-!
# What a meter counts

A meter on a bus keeps the counters of its last successful read and contributes those. A poll leaves
them as they are or replaces them by what the registers show.
-/

namespace HomeMetering.Meter

open Electricity Modbus Site Site.Job

variable {K : Type} [Quantity K]

/-! ## Counters on a panel -/

/-- The counters that a successful read gives. -/
def Abb.usageOn (p : Panel) (m : Abb K) : Usage K :=
  let registers := p m.link.client m.link.unit
  if m.family.isSinglePhase then singleUsage m.link.encoding (registers totalsBlock)
  else threePhaseUsage m.link.encoding m.phases (registers totalsBlock) (registers phasesBlock)

/-- The counters that a successful read gives. -/
def CarloGavazzi.usageOn (p : Panel) (m : CarloGavazzi K) : Usage K :=
  let data : CounterData K := counterData m.family.isSinglePhase
  CarloGavazzi.usageOf data m.link.encoding m.phases (p m.link.client m.link.unit data.block)

theorem Abb.eq_usageOn {p : Panel} {m : Abb K} {s t : Site} {usage : Usage K}
    (h : m.readTotals.RunsAmid (Site.Shows p) s (.ok usage) t) : usage = m.usageOn p := by
  unfold Abb.usageOn
  obtain ⟨totals, u, htotals, h⟩ := runsAmid_bind.1 h
  cases totals with
  | error e => cases (runsAmid_pure.1 h).1
  | ok totals =>
    obtain rfl := eq_panel_of_runsAmid htotals
    dsimp only at h
    split at h
    · rename_i hsingle
      obtain rfl := Except.ok.inj (runsAmid_pure.1 h).1
      exact (if_pos hsingle).symm
    · rename_i hsingle
      obtain ⟨registers, v, hregisters, h⟩ := runsAmid_bind.1 h
      cases registers with
      | error e => cases (runsAmid_pure.1 h).1
      | ok registers =>
        obtain rfl := eq_panel_of_runsAmid hregisters
        obtain rfl := Except.ok.inj (runsAmid_pure.1 h).1
        exact (if_neg hsingle).symm

theorem CarloGavazzi.eq_usageOn {p : Panel} {m : CarloGavazzi K} {s t : Site} {usage : Usage K}
    (h : m.readTotals.RunsAmid (Site.Shows p) s (.ok usage) t) : usage = m.usageOn p := by
  obtain ⟨registers, u, hregisters, h⟩ := runsAmid_bind.1 h
  cases registers with
  | error e => cases (runsAmid_pure.1 h).1
  | ok registers =>
    obtain rfl := eq_panel_of_runsAmid hregisters
    exact Except.ok.inj (runsAmid_pure.1 h).1

/-! ## Polls -/

omit [Quantity K] in
theorem usage_poll {p : Panel} {setup : Setup} {now : Instant} {cache c : Cache K}
    {instant : Job (Except BusError State)} {totals : Job (Except BusError (Usage K))} {u : Usage K}
    (htotals : ∀ {s t usage}, totals.RunsAmid (Site.Shows p) s (.ok usage) t → usage = u)
    {s t : Site} {changed : Bool}
    (h : (poll setup now cache instant totals).RunsAmid (Site.Shows p) s (changed, c) t) :
    c.usage = cache.usage ∨ c.usage = u := by
  obtain ⟨⟨c1, cache1⟩, v, hstate, h⟩ := runsAmid_bind.1 h
  obtain ⟨cache2, w, husage, h⟩ := runsAmid_bind.1 h
  obtain ⟨-, rfl⟩ := Prod.mk.inj (runsAmid_pure.1 h).1
  have hkept : (pollState setup cache instant).All (fun _ => True)
      fun x => x.2.usage = cache.usage := by
    unfold pollState
    split
    · refine .bind (.any _) fun answer _ => ?_
      cases answer <;> exact .done rfl
    · exact .done rfl
  have hkept : cache1.usage = cache.usage := hkept.runsAmid hstate
  unfold pollUsage at husage
  split at husage
  · split at husage
    · obtain ⟨answer, _, hanswer, husage⟩ := runsAmid_bind.1 husage
      cases answer with
      | error e =>
        obtain rfl := (runsAmid_pure.1 husage).1
        exact Or.inl hkept
      | ok usage =>
        obtain rfl := (runsAmid_pure.1 husage).1
        exact Or.inr (htotals hanswer)
    · obtain rfl := (runsAmid_pure.1 husage).1
      exact Or.inl hkept
  · obtain rfl := (runsAmid_pure.1 husage).1
    exact Or.inl hkept

/-! ## Contributions -/

/-- A meter with counters on a bus that says what it counts at any time: one of ABB's or of Carlo
Gavazzi's, set up to contribute them. -/
def CountsEnergy {K : Type} : Meter K → Prop
  | abb m => m.setup.has .usage
  | carloGavazzi m => m.setup.has .usage
  | _ => False

/-- The counters that a successful read gives. -/
def usageOn (p : Panel) : Meter K → Usage K
  | abb m => m.usageOn p
  | carloGavazzi m => m.usageOn p
  | _ => .zero

/-- What the meter keeps. -/
def kept : Meter K → Cache K
  | abb m => m.cache
  | carloGavazzi m => m.cache
  | victron m => m.cache
  | dsmr m => m.cache
  | playback _ => .empty

/-- The meter when it keeps something else. -/
def keeping {K : Type} (c : Cache K) : Meter K → Meter K
  | abb m => .abb { m with cache := c }
  | carloGavazzi m => .carloGavazzi { m with cache := c }
  | victron m => .victron { m with cache := c }
  | dsmr m => .dsmr { m with cache := c }
  | playback m => .playback m

/-- The energy consumed that a meter contributes. -/
def share (m : Meter K) : K := (m.write .zero).usage.totalConsumed

/-- The energy consumed that a meter would contribute after a successful read. -/
def importOn (m : Meter K) (p : Panel) : K := (m.keeping { m.kept with usage := m.usageOn p }).share

/-- A poll changes what is kept, and of the counters only to what the registers show. -/
def Polled (p : Panel) (m m' : Meter K) : Prop :=
  ∃ c, m' = m.keeping c ∧ (c.usage = m.kept.usage ∨ c.usage = m.usageOn p)

theorem polled_of_refresh {p : Panel} {now : Instant} {m m' : Meter K} (hm : m.CountsEnergy)
    {s t : Site} {changed : Bool}
    (h : (m.refresh now).RunsAmid (Site.Shows p) s (changed, m') t) : m.Polled p m' := by
  cases m with
  | abb m =>
    obtain ⟨⟨changed', c⟩, u, hpoll, h⟩ := runsAmid_bind.1 h
    obtain ⟨-, rfl⟩ := Prod.mk.inj (runsAmid_pure.1 h).1
    exact ⟨c, rfl, usage_poll Abb.eq_usageOn hpoll⟩
  | carloGavazzi m =>
    obtain ⟨⟨changed', c⟩, u, hpoll, h⟩ := runsAmid_bind.1 h
    obtain ⟨-, rfl⟩ := Prod.mk.inj (runsAmid_pure.1 h).1
    exact ⟨c, rfl, usage_poll CarloGavazzi.eq_usageOn hpoll⟩
  | victron m | dsmr m | playback m => exact hm.elim

omit [Quantity K] in
theorem CountsEnergy.isDevice {m : Meter K} (h : m.CountsEnergy) : m.IsDevice := by
  cases m <;> first | exact trivial | exact h.elim

theorem share_congr {m : Meter K} (h : m.CountsEnergy) {c c' : Cache K} (hc : c.usage = c'.usage) :
    (m.keeping c).share = (m.keeping c').share := by
  have hfill : ∀ (setup : Setup) (singlePhase : Bool),
      (c.fill setup singlePhase .zero).usage = (c'.fill setup singlePhase .zero).usage := by
    intro setup singlePhase
    rw [Cache.usage_fill, Cache.usage_fill, hc]
  cases m with
  | abb m => exact congrArg Usage.totalConsumed (hfill _ _)
  | carloGavazzi m => exact congrArg Usage.totalConsumed (hfill _ _)
  | victron m | dsmr m | playback m => exact h.elim

namespace Polled

variable {p : Panel} {m m' : Meter K}

theorem setup_eq (h : m.Polled p m') : m'.setup = m.setup := by
  obtain ⟨c, rfl, -⟩ := h
  cases m <;> rfl

theorem countsEnergy_eq (h : m.Polled p m') : m'.CountsEnergy = m.CountsEnergy := by
  obtain ⟨c, rfl, -⟩ := h
  cases m <;> rfl

/-- What a meter would contribute depends on the registers and not on what it keeps. -/
theorem importOn_eq (h : m.Polled p m') (hm : m.CountsEnergy) : m'.importOn = m.importOn := by
  funext q
  obtain ⟨c, rfl, -⟩ := h
  unfold importOn
  cases m with
  | abb m => exact share_congr (m := .abb m) hm rfl
  | carloGavazzi m => exact share_congr (m := .carloGavazzi m) hm rfl
  | victron m | dsmr m | playback m => exact hm.elim

theorem share_eq (h : m.Polled p m') (hm : m.CountsEnergy) :
    m'.share = m.share ∨ m'.share = m.importOn p := by
  obtain ⟨c, rfl, hkept | hread⟩ := h
  · left
    have hself : m = m.keeping m.kept := by cases m <;> rfl
    conv_rhs => rw [hself]
    exact share_congr hm hkept
  · exact Or.inr (share_congr hm hread)

end Polled

end HomeMetering.Meter
