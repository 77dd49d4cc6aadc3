import HomeMetering.Proofs.Source.Totals

/-!
# A source that ticks

A run of a source whose meters count energy: every tick polls each of them on hardware that shows
what the registers hold at the time, as far as reads succeed at all, and publishes what they keep.
-/

namespace HomeMetering

open Electricity Modbus Site Site.Job

namespace Source

variable {K : Type} [Quantity K]

theorem polled_of_pollAll {p : Panel} {now : Instant} {ms ms' : List (Meter K)}
    (hcounts : ∀ m ∈ ms, m.CountsEnergy) {changed c : Bool} {r r' : Readings K} {s t : Site}
    (h : (pollAll now ms changed r).RunsAmid (Site.Shows p) s (c, r', ms') t) :
    List.Forall₂ (Meter.Polled p) ms ms' ∧ r' = Meter.writeAll ms' r := by
  induction ms generalizing changed r r' ms' s t with
  | nil =>
    obtain ⟨-, hrest⟩ := Prod.mk.inj (runsAmid_pure.1 h).1
    obtain ⟨rfl, rfl⟩ := Prod.mk.inj hrest
    exact ⟨.nil, rfl⟩
  | cons m ms ih =>
    have hm := hcounts m List.mem_cons_self
    rw [pollAll, Meter.update_eq now hm.isDevice] at h
    obtain ⟨⟨c1, r1, m1⟩, u, hupdate, h⟩ := runsAmid_bind.1 h
    obtain ⟨⟨c2, m2⟩, v, hrefresh, hwrite⟩ := runsAmid_bind.1 hupdate
    obtain ⟨-, hwritten⟩ := Prod.mk.inj (runsAmid_pure.1 hwrite).1
    obtain ⟨rfl, rfl⟩ := Prod.mk.inj hwritten
    obtain ⟨⟨c3, r3, ms3⟩, w, hrest, h⟩ := runsAmid_bind.1 h
    obtain ⟨rfl, hall⟩ := Prod.mk.inj (runsAmid_pure.1 h).1
    obtain ⟨rfl, rfl⟩ := Prod.mk.inj hall
    obtain ⟨hpolled, hmerged⟩ := ih (fun m' hm' => hcounts m' (List.mem_cons_of_mem _ hm')) hrest
    exact ⟨.cons (Meter.polled_of_refresh hm hrefresh) hpolled, hmerged⟩

theorem polled_of_tick {p : Panel} {now : Instant} {s s' : Source K}
    (hcounts : ∀ m ∈ s.meters, m.CountsEnergy) {published : Publication K} {site t : Site}
    (h : (s.tick now).RunsAmid (Site.Shows p) site (published, s') t) :
    List.Forall₂ (Meter.Polled p) s.meters s'.meters ∧
      (published = .nothing ∨ published = .ofReadings (Meter.writeAll s'.meters .zero)) := by
  obtain ⟨⟨changed, readings, meters⟩, u, hpoll, h⟩ := runsAmid_bind.1 h
  obtain ⟨rfl, rfl⟩ := Prod.mk.inj (runsAmid_pure.1 h).1
  obtain ⟨hpolled, rfl⟩ := polled_of_pollAll hcounts hpoll
  refine ⟨hpolled, ?_⟩
  split
  · exact Or.inr rfl
  · exact Or.inl rfl

end Source

/-- A tick: when it was, what the registers held, what it published, and the meters after it. -/
structure Tick where
  now : Instant
  panel : Panel
  published : Publication Rat
  meters : List (Meter Rat)

namespace Source

/-- Ticks of a source one after the other. Each runs on any site and on hardware that may change all
the time, as long as it shows the panel of the tick wherever a read succeeds. -/
inductive Ticks (s : Source Rat) : List Tick → Source Rat → Prop
  | nil : s.Ticks [] s
  | snoc {ts : List Tick} {before after : Source Rat} {now : Instant} {panel : Panel}
      {published : Publication Rat} {site site' : Site} (earlier : s.Ticks ts before)
      (tick : (before.tick now).RunsAmid (Site.Shows panel) site (published, after) site') :
      s.Ticks (ts ++ [⟨now, panel, published, after.meters⟩]) after

end Source

namespace Meter

/-! ## What a poll leaves as it is -/

variable {ms ms' : List (Meter Rat)}

/-- Meters that feed lines and count energy, and of which no two claim the same cell. -/
structure Sound (ms : List (Meter Rat)) : Prop where
  feeds : ∀ m ∈ ms, m.FeedsLines
  counts : ∀ m ∈ ms, m.CountsEnergy
  claims : (ms.flatMap fun m => m.setup.claims).Nodup

theorem sound_of_holds {cfg : SourceConfig} (h : cfg.Holds ms) (hfault : cfg.fault? = none)
    (hrole : cfg.role ≠ .battery) (hcounts : ∀ m ∈ ms, m.CountsEnergy) : Sound ms where
  feeds m hm := ⟨h.2 m hm, fun hbattery => hrole (h.role hm ▸ hbattery)⟩
  counts := hcounts
  claims := h.nodup_claims hfault hrole

theorem map_eq_of_polled {β : Type} {p : Panel} (f : Meter Rat → β)
    (hf : ∀ m m' : Meter Rat, m.CountsEnergy → m.Polled p m' → f m' = f m)
    (hcounts : ∀ m ∈ ms, m.CountsEnergy) (h : List.Forall₂ (Polled p) ms ms') :
    ms'.map f = ms.map f := by
  induction h with
  | nil => rfl
  | cons hm _ ih =>
    rw [List.map_cons, List.map_cons, hf _ _ (hcounts _ List.mem_cons_self) hm,
      ih fun m' hm' => hcounts m' (List.mem_cons_of_mem _ hm')]

theorem Sound.setup_eq (hms : Sound ms) {p : Panel} (h : List.Forall₂ (Polled p) ms ms') :
    ms'.map setup = ms.map setup :=
  map_eq_of_polled setup (fun _ _ _ hm => hm.setup_eq) hms.counts h

theorem Sound.importOn_eq (hms : Sound ms) {p : Panel} (h : List.Forall₂ (Polled p) ms ms') :
    ms'.map importOn = ms.map importOn :=
  map_eq_of_polled importOn (fun _ _ hcounts hm => hm.importOn_eq hcounts) hms.counts h

theorem Sound.polled (hms : Sound ms) {p : Panel} (h : List.Forall₂ (Polled p) ms ms') :
    Sound ms' := by
  have hsetup := hms.setup_eq h
  have hcounted : ms'.map CountsEnergy = ms.map CountsEnergy :=
    map_eq_of_polled CountsEnergy (fun _ _ _ hm => hm.countsEnergy_eq) hms.counts h
  have hcounts : ∀ m' ∈ ms', m'.CountsEnergy := by
    intro m' hm'
    obtain ⟨m, hm, heq⟩ := List.mem_map.1 (hcounted ▸ List.mem_map_of_mem hm')
    exact heq ▸ hms.counts m hm
  refine ⟨fun m' hm' => ⟨(hcounts m' hm').isDevice, ?_⟩, hcounts, ?_⟩
  · obtain ⟨m, hm, heq⟩ := List.mem_map.1 (hsetup ▸ List.mem_map_of_mem hm')
    rw [← heq]
    exact (hms.feeds m hm).2
  · have hclaims : ∀ l : List (Meter Rat),
        l.flatMap (fun m => m.setup.claims) = (l.map setup).flatMap Setup.claims := fun l =>
      (List.flatMap_map ..).symm
    rw [hclaims, hsetup, ← hclaims]
    exact hms.claims

end Meter

/-! ## Undisturbed ticks -/

namespace Source

theorem reads_pollAll {K : Type} [Quantity K] (now : Instant) {ms : List (Meter K)}
    (h : ∀ m ∈ ms, m.IsDevice) (changed : Bool) (r : Readings K) :
    (pollAll now ms changed r).Reads := by
  induction ms generalizing changed r with
  | nil => exact .done _
  | cons m ms ih =>
    rw [pollAll, Meter.update_eq now (h m List.mem_cons_self)]
    refine ((m.reads_refresh now).bind fun _ => .done _).bind fun x => ?_
    exact (ih (fun m' hm' => h m' (List.mem_cons_of_mem _ hm')) _ _).bind fun _ => .done _

/-- The tick that runs on a site without being disturbed. -/
def tickOn (now : Instant) (site : Site) (panel : Panel) (s : Source Rat) : Tick :=
  ⟨now, panel, ((s.tick now).run site).1.1, ((s.tick now).run site).1.2.meters⟩

/-- The source after a tick that runs on a site without being disturbed. -/
def ticked (now : Instant) (site : Site) (s : Source Rat) : Source Rat :=
  ((s.tick now).run site).1.2

/-- Undisturbed ticks one after the other, on sites that show panels. -/
def ticksOn : List (Instant × Site × Panel) → Source Rat → List Tick
  | [], _ => []
  | (now, site, panel) :: rest, s => s.tickOn now site panel :: (s.ticked now site).ticksOn rest

theorem Ticks.run {s before : Source Rat} {ts : List Tick} (h : s.Ticks ts before)
    (hsound : Meter.Sound before.meters) {schedule : List (Instant × Site × Panel)}
    (hshows : ∀ x ∈ schedule, x.2.1.Shows x.2.2) :
    ∃ after, s.Ticks (ts ++ before.ticksOn schedule) after := by
  induction schedule generalizing ts before with
  | nil => exact ⟨before, (List.append_nil ts).symm ▸ h⟩
  | cons x schedule ih =>
    obtain ⟨now, site, p⟩ := x
    obtain ⟨hfirst, hrest⟩ := List.forall_mem_cons.1 hshows
    have hreads : (before.tick now).Reads :=
      (reads_pollAll now (fun m hm => (hsound.feeds m hm).1) false .zero).bind fun _ => .done _
    have hrun := runsAmid_run hreads.all hfirst
    have hnext : s.Ticks (ts ++ [before.tickOn now site p]) (before.ticked now site) :=
      .snoc h hrun
    obtain ⟨after, hafter⟩ := ih hnext (hsound.polled (polled_of_tick hsound.counts hrun).1) hrest
    exact ⟨after, List.append_cons .. ▸ hafter⟩

theorem kept_ticked (now : Instant) (site : Site) (s : Source Rat) :
    (s.ticked now site).name = s.name ∧ (s.ticked now site).role = s.role ∧
      (s.ticked now site).policy = s.policy := by
  unfold ticked tick
  rw [run_seq]
  exact ⟨rfl, rfl, rfl⟩

theorem published_tickOn {s : Source Rat} (h : s.policy = .always) (now : Instant) (site : Site)
    (p : Panel) : (s.tickOn now site p).published = .ofReadings (s.ticked now site).readings := by
  unfold tickOn ticked tick
  rw [run_seq, h]
  rfl

end Source

end HomeMetering
