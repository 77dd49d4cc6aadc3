import HomeMetering.Proofs.Meter.Noticing
import HomeMetering.Proofs.Source.Merging

/-!
# A source that publishes on change

Each meter compares what it reads with what it kept, before any of it is written to lines. Over a
run of ticks that is as good as a comparison of the merged instant values with those of the tick
before: a source whose meters are all of ABB's or Carlo Gavazzi's publishes just when these differ.
-/

namespace HomeMetering

open Electricity Site Site.Job

namespace Meter

variable {K : Type} [Quantity K]

/-! ## Meters side by side -/

/-- Meters whose cells are their own. -/
structure Apart (ms : List (Meter K)) : Prop where
  settled : ∀ m ∈ ms, m.Settled
  feeds : ∀ m ∈ ms, m.FeedsLines
  lines : ∀ m ∈ ms, m.setup.lines ≠ [] ∧ ∀ line ∈ m.setup.lines, line < lineCount
  claims : (ms.flatMap fun m => m.setup.claims).Nodup

omit [Quantity K] in
theorem IsEnergyMeter.isDevice {m : Meter K} (h : m.IsEnergyMeter) : m.IsDevice := by
  cases m <;> first | exact h.elim | trivial

variable {ps : List (Meter K × Meter K)}

theorem Apart.next (h : Apart (ps.map Prod.fst)) (hnext : ∀ p ∈ ps, p.1.Next p.2) :
    Apart (ps.map Prod.snd) := by
  have hfst : ∀ p ∈ ps, p.1 ∈ ps.map Prod.fst := fun p hp => List.mem_map_of_mem hp
  refine ⟨?_, ?_, ?_, ?_⟩
  · rintro _ hm
    obtain ⟨p, hp, rfl⟩ := List.mem_map.1 hm
    exact (hnext p hp).settled
  · rintro _ hm
    obtain ⟨p, hp, rfl⟩ := List.mem_map.1 hm
    refine ⟨(hnext p hp).settled.energyMeter.isDevice, ?_⟩
    rw [(hnext p hp).setup_eq]
    exact (h.feeds _ (hfst p hp)).2
  · rintro _ hm
    obtain ⟨p, hp, rfl⟩ := List.mem_map.1 hm
    rw [(hnext p hp).setup_eq]
    exact h.lines _ (hfst p hp)
  · have hclaims := h.claims
    rw [List.flatMap_map] at hclaims ⊢
    rwa [List.flatMap_congr fun p hp => congrArg Setup.claims (hnext p hp).setup_eq]

/-- The merged instant values differ just where those that some meter keeps do. -/
theorem beq_writeAll_iff (h : Apart (ps.map Prod.fst)) (hnext : ∀ p ∈ ps, p.1.Next p.2) :
    ((writeAll (ps.map Prod.fst) .zero).state == (writeAll (ps.map Prod.snd) .zero).state) =
        true ↔ ∀ p ∈ ps, (p.1.kept.state == p.2.kept.state) = true := by
  have h' := h.next hnext
  have hold := merges_writeAll h.feeds h.claims
  have hnew := merges_writeAll h'.feeds h'.claims
  -- A line that is claimed shows its meter alone, before the tick and after it.
  have hcells : ∀ p ∈ ps, ∀ line, (.state, line) ∈ p.1.setup.claims →
      (writeAll (ps.map Prod.fst) .zero).state.at line = (p.1.write .zero).state.at line ∧
        (writeAll (ps.map Prod.snd) .zero).state.at line = (p.2.write .zero).state.at line := by
    intro p hp line hclaim
    have hclaim' := (hnext p hp).setup_eq ▸ hclaim
    exact ⟨Readings.Cell.state.inj (hold.claimed _ (List.mem_map_of_mem hp) _ line hclaim),
      Readings.Cell.state.inj (hnew.claimed _ (List.mem_map_of_mem hp) _ line hclaim')⟩
  have hkept : ∀ p ∈ ps, (p.1.kept.state == p.2.kept.state) = true ↔
      ∀ line, (.state, line) ∈ p.1.setup.claims →
        ((p.1.write .zero).state.at line == (p.2.write .zero).state.at line) = true := by
    intro p hp
    have hfst : p.1 ∈ ps.map Prod.fst := List.mem_map_of_mem hp
    exact (hnext p hp).beq_kept_iff (h.settled _ hfst) (h.lines _ hfst).1 (h.lines _ hfst).2
  rw [State.beq_iff_at]
  constructor
  · intro hmerged p hp
    rw [hkept p hp]
    intro line hclaim
    have hline := (h.lines _ (List.mem_map_of_mem hp)).2 line (Setup.mem_claims.1 hclaim).2
    rw [← (hcells p hp line hclaim).1, ← (hcells p hp line hclaim).2]
    exact hmerged line hline
  · intro hsame line hline
    by_cases hclaimed : ∃ p ∈ ps, (.state, line) ∈ p.1.setup.claims
    · obtain ⟨p, hp, hclaim⟩ := hclaimed
      rw [(hcells p hp line hclaim).1, (hcells p hp line hclaim).2]
      exact (hkept p hp).1 (hsame p hp) line hclaim
    · have hnot : ∀ p ∈ ps, (.state, line) ∉ p.1.setup.claims :=
        fun p hp hclaim => hclaimed ⟨p, hp, hclaim⟩
      have hold := hold.unclaimed .state line (List.forall_mem_map.2 hnot)
      have hnew := hnew.unclaimed .state line
        (List.forall_mem_map.2 fun p hp => (hnext p hp).setup_eq ▸ hnot p hp)
      rw [Readings.Cell.state.inj hold, Readings.Cell.state.inj hnew]
      exact State.beq_iff_at.1 State.isNumber_zero.beq_self line hline

variable {ms : List (Meter K)}

theorem state_writeAll_of_zero (henergy : ∀ m ∈ ms, m.IsEnergyMeter)
    (hzero : ∀ m ∈ ms, m.kept.state = .zero) :
    (writeAll ms (.zero : Readings K)).state = .zero := by
  have hcopy : ∀ phase line, State.zero.copyLine .zero phase line = .zero := by
    intro phase line
    rcases phase with _ | _ | _ | phase <;> rcases line with _ | _ | _ | line <;> rfl
  have hmerge : ∀ pairs, mergeState .zero .zero pairs = .zero := fun pairs =>
    List.foldlRecOn pairs _ (motive := fun s : State => s = .zero) rfl
      fun s hs pair _ => hs ▸ hcopy pair.1 pair.2
  refine List.foldlRecOn ms _ (motive := fun r : Readings K => r.state = .zero) rfl ?_
  intro r hr m hm
  rw [(henergy m hm).state_write, hr, hzero m hm, hmerge, ite_self]

theorem others_writeAll (henergy : ∀ m ∈ ms, m.IsEnergyMeter) :
    (writeAll ms (.zero : Readings K)).battery = .zero ∧
      (writeAll ms (.zero : Readings K)).gas = .zero ∧
      (writeAll ms (.zero : Readings K)).water = .zero := by
  refine ⟨?_, ?_, ?_⟩
  · exact view_writeAll_of_kept Readings.battery (fun m hm r => ((henergy m hm).others_write r).1) _
  · exact view_writeAll_of_kept Readings.gas (fun m hm r => ((henergy m hm).others_write r).2.1) _
  · exact view_writeAll_of_kept Readings.water (fun m hm r => ((henergy m hm).others_write r).2.2) _

end Meter

namespace Source

variable {K : Type} [Quantity K]

/-! ## Ticks -/

theorem all_pollAll (now : Instant) {ms : List (Meter K)} (h : ∀ m ∈ ms, m.Settled)
    (changed : Bool) (r : Readings K) :
    (pollAll now ms changed r).All (fun _ => True) fun x =>
      ∃ ps : List (Meter K × Meter K), ps.map Prod.fst = ms ∧ ps.map Prod.snd = x.2.2 ∧
        (∀ p ∈ ps, p.1.Next p.2) ∧
        x.1 = (changed || ps.any fun p => p.1.kept.state != p.2.kept.state) ∧
        x.2.1 = Meter.writeAll x.2.2 r := by
  induction ms generalizing changed r with
  | nil =>
    refine All.done ?_
    exact ⟨[], rfl, rfl, by simp, by simp, rfl⟩
  | cons m ms ih =>
    obtain ⟨hm, hms⟩ := List.forall_mem_cons.1 h
    have hupdate : (m.update now r).All (fun _ => True) fun x =>
        m.Next x.2.2 ∧ x.1 = (m.kept.state != x.2.2.kept.state) ∧ x.2.1 = x.2.2.write r := by
      rw [Meter.update_eq now hm.energyMeter.isDevice]
      exact (hm.all_refresh now).bind fun x hx => .done ⟨hx.1, hx.2, rfl⟩
    refine hupdate.bind fun x hx => (ih hms (changed || x.1) x.2.1).bind fun y hy => .done ?_
    obtain ⟨hnext, hchanged, hwritten⟩ := hx
    obtain ⟨ps, hfst, hsnd, hnexts, hany, hmerged⟩ := hy
    refine ⟨(m, x.2.2) :: ps, ?_, ?_, List.forall_mem_cons.2 ⟨hnext, hnexts⟩, ?_, ?_⟩
    · rw [List.map_cons, hfst]
    · rw [List.map_cons, hsnd]
    · rw [hany, hchanged, List.any_cons, Bool.or_assoc]
    · rw [hmerged, hwritten]
      rfl

theorem isSome_electricity_iff {r : Readings K} :
    (Publication.ofReadings r).electricity.isSome = true ↔
      ¬ (r.state.isZero = true ∧ r.usage.isZero = true) := by
  simp [Publication.ofReadings]

theorem eq_of_electricity {r : Readings K} {e : Energy K}
    (h : (Publication.ofReadings r).electricity = some e) : e = ⟨r.state, r.usage⟩ := by
  unfold Publication.ofReadings at h
  dsimp only at h
  split_ifs at h
  exact (Option.some.inj h).symm

theorem isEmpty_ofReadings {r : Readings K} (hbattery : r.battery = .zero) (hgas : r.gas = .zero)
    (hwater : r.water = .zero) :
    (Publication.ofReadings r).isEmpty = !(Publication.ofReadings r).electricity.isSome := by
  have hcharge : BatteryState.zero.isZero = true := by decide +kernel
  have hvolume : Volume.zero.isZero = true := by decide +kernel
  simp [Publication.isEmpty, Publication.ofReadings, hbattery, hgas, hwater, hcharge, hvolume]

/-- What a source keeps from tick to tick. -/
structure Abreast (s : Source K) : Prop where
  policy : s.policy = .onChange
  apart : Meter.Apart s.meters
  merged : s.readings.state = (Meter.writeAll s.meters .zero).state
  signal : s.signal = s.tickCount

/-- What a tick publishes, and what it leaves. -/
structure PublishesChange (now : Instant) (before : Source K) (published : Publication K)
    (after : Source K) : Prop where
  /-- An event is published just when the merged instant values changed and not all is zero. -/
  electricity : published.electricity.isSome = true ↔
    (before.readings.state != after.readings.state) = true ∧
      ¬ (after.readings.state.isZero = true ∧ after.readings.usage.isZero = true)
  values : ∀ e, published.electricity = some e →
    e = ⟨after.readings.state, after.readings.usage⟩
  /-- No other event is published. -/
  only : published.isEmpty = !published.electricity.isSome
  readings : after.readings = Meter.writeAll after.meters .zero
  updated : after.updated = some now
  tickCount : after.tickCount = before.tickCount + 1
  signal : after.signal = before.signal + 1

theorem all_tick (now : Instant) {s : Source K} (h : s.Abreast) :
    (s.tick now).All (fun _ => True) fun x => x.2.Abreast ∧ s.PublishesChange now x.1 x.2 := by
  refine (all_pollAll now h.apart.settled false .zero).bind fun x hx => .done ?_
  obtain ⟨ps, hfst, hsnd, hnext, hchanged, hmerged⟩ := hx
  have hapart := h.apart
  rw [← hfst] at hapart
  have hafter : Meter.Apart x.2.2 := hsnd ▸ hapart.next hnext
  have hstates : x.1 = (s.readings.state != x.2.1.state) := by
    rw [hchanged, hmerged, h.merged, ← hfst, ← hsnd, Bool.false_or, Bool.eq_iff_iff, bne,
      Bool.not_eq_true', ← Bool.not_eq_true, Meter.beq_writeAll_iff hapart hnext]
    simp [bne]
  obtain ⟨hbattery, hgas, hwater⟩ :=
    Meter.others_writeAll fun m hm => (hafter.settled m hm).energyMeter
  rw [← hmerged] at hbattery hgas hwater
  refine ⟨⟨h.policy, hafter, congrArg Readings.state hmerged, rfl⟩, ?_⟩
  rw [h.policy]
  refine ⟨?_, ?_, ?_, hmerged, rfl, rfl, congrArg (· + 1) h.signal.symm⟩
  · rw [← hstates]
    cases hx : x.1
    · exact iff_of_false nofun fun h => nomatch h.1
    · exact isSome_electricity_iff.trans (and_iff_right rfl).symm
  · cases hx : x.1
    · exact nofun
    · exact fun e => eq_of_electricity
  · cases hx : x.1
    · rfl
    · exact isEmpty_ofReadings hbattery hgas hwater

/-! ## Runs -/

/-- Ticks one after the other, at any times and on any hardware, which may change between any two
requests. -/
inductive Reaches (s : Source K) : Source K → Prop
  | refl : s.Reaches s
  | tick {before after : Source K} {now : Instant} {published : Publication K} {site site' : Site}
      (earlier : s.Reaches before) (run : (before.tick now).Runs site (published, after) site') :
      s.Reaches after

theorem Abreast.reaches {s t : Source K} (h : s.Abreast) (hrun : s.Reaches t) : t.Abreast := by
  induction hrun with
  | refl => exact h
  | tick _ run ih => exact ((all_tick _ ih).runs run).1

theorem abreast_new {cfg : SourceConfig} (hfault : cfg.fault? = none) (hrole : cfg.role ≠ .battery)
    (hpolicy : cfg.publish = .onChange) {ms : List (Meter K)} (hmeters : cfg.Holds ms)
    (hfound : ∀ m ∈ ms, m.FoundFor m.setup) :
    (Source.new cfg.name cfg.role cfg.publish ms).Abreast where
  policy := hpolicy
  apart :=
    { settled := fun m hm => (hfound m hm).settled
      feeds := fun m hm => ⟨hmeters.2 m hm, fun hbattery => hrole (hmeters.role hm ▸ hbattery)⟩
      lines := fun m hm => hmeters.lines hfault hrole hm
      claims := hmeters.nodup_claims hfault hrole }
  merged := by
    refine (Meter.state_writeAll_of_zero (fun m hm => (hfound m hm).settled.energyMeter) ?_).symm
    intro m hm
    rw [(hfound m hm).kept_eq]
    rfl
  signal := rfl

/-- A source whose meters are all of ABB's or Carlo Gavazzi's publishes a tick just when its merged
instant values differ from those of the tick before, and state or usage is not zero. Before the
first tick all values are zero. -/
theorem publishes_changes {cfg : SourceConfig} (hfault : cfg.fault? = none)
    (hrole : cfg.role ≠ .battery) (hpolicy : cfg.publish = .onChange) {ms : List (Meter K)}
    (hmeters : cfg.Holds ms) (hfound : ∀ m ∈ ms, m.FoundFor m.setup) {before after : Source K}
    (hrun : (Source.new cfg.name cfg.role cfg.publish ms).Reaches before) {now : Instant}
    {published : Publication K} {site site' : Site}
    (htick : (before.tick now).Runs site (published, after) site') :
    before.PublishesChange now published after :=
  ((all_tick now ((abreast_new hfault hrole hpolicy hmeters hfound).reaches hrun)).runs htick).2

end Source

/-! ## A quiet connection -/

/-- A connection to the grid that one analyzer measures. -/
def quietGrid : SourceConfig := ⟨"grid", .grid, .onChange, true, [Meter.analyzerSlot]⟩

def quietSource : Source Rat :=
  .new quietGrid.name quietGrid.role quietGrid.publish [.carloGavazzi Meter.analyzer]

def quietSite : Site :=
  { Site.new [("tcp://a", Meter.analyzerBus)] [] ⟨fun _ => .timeout, .endOfStream⟩ with
    clients := [.new "tcp://a" 0] }

/-- The first tick publishes what it reads; the second one reads the same. -/
theorem quiet_publishes_once :
    let first := (quietSource.tick ⟨0⟩).run quietSite
    let second := (first.1.2.tick ⟨1000000⟩).run first.2
    quietGrid.fault? = none ∧ quietGrid.role ≠ .battery ∧ quietGrid.publish = .onChange ∧
      quietGrid.Holds quietSource.meters ∧ (∀ m ∈ quietSource.meters, m.FoundFor m.setup) ∧
      quietSource.Reaches first.1.2 ∧ first.1.1.electricity.isSome = true ∧
      second.1.1.electricity.isSome = false ∧ second.1.1.isEmpty = true ∧
      second.1.2.signal = 2 := by
  intro first second
  have hfault : quietGrid.fault? = none := by decide +kernel
  have hmeters : quietGrid.Holds quietSource.meters :=
    ⟨(List.Perm.refl _).subperm, fun m hm => List.mem_singleton.1 hm ▸ trivial⟩
  have hfound : ∀ m ∈ quietSource.meters, m.FoundFor m.setup := fun m hm =>
    List.mem_singleton.1 hm ▸ Meter.analyzer_found
  have hfirst := runs_run (quietSource.tick ⟨0⟩) quietSite
  have hsecond := runs_run (first.1.2.tick ⟨1000000⟩) first.2
  have hreaches : quietSource.Reaches first.1.2 := .tick .refl hfirst
  have hchange : quietSource.PublishesChange ⟨0⟩ first.1.1 first.1.2 :=
    Source.publishes_changes hfault (by decide) rfl hmeters hfound .refl hfirst
  have hsame : first.1.2.PublishesChange ⟨1000000⟩ second.1.1 second.1.2 :=
    Source.publishes_changes hfault (by decide) rfl hmeters hfound hreaches hsecond
  have hsome : first.1.1.electricity.isSome = true := hchange.electricity.2 (by decide +kernel)
  have hnone : second.1.1.electricity.isSome = false := by
    rw [← Bool.not_eq_true, hsame.electricity]
    decide +kernel
  refine ⟨hfault, by decide, rfl, hmeters, hfound, hreaches, hsome, hnone, ?_, ?_⟩
  · rw [hsame.only, hnone]
    rfl
  · rw [hsame.signal, hchange.signal]
    rfl

end HomeMetering
