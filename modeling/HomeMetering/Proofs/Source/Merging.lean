import HomeMetering.Proofs.Config.Claims
import HomeMetering.Proofs.Site.Reading
import HomeMetering.Source

/-!
# Merging the meters of a source

Where no cell is claimed twice, the readings of a tick hold in every cell what the meter that claims
it writes alone. So it makes no difference in which order the meters are polled.
-/

namespace HomeMetering

open Electricity Modbus Site Site.Job

variable {K : Type} [Quantity K]

/-! ## Polls only read -/

namespace Meter

theorem reads_read (l : Link) (block : Block) : (l.read block).Reads :=
  reads_readBlock l.client l.unit block

theorem Abb.reads_readTotals (m : Abb K) : m.readTotals.Reads := by
  refine (reads_read _ _).bind fun totals => ?_
  cases totals with
  | error e => exact .done _
  | ok totals =>
    dsimp only
    split
    · exact .done _
    · exact (reads_read _ _).bind fun _ => .done _

omit [Quantity K] in
theorem Victron.reads_identified (m : Victron K) : m.identified.Reads := by
  unfold Victron.identified
  split
  · refine (reads_read _ _).bind fun serial => ?_
    cases serial with
    | error e => exact .done _
    | ok registers =>
      refine (reads_read _ _).bind fun phaseCount => ?_
      cases phaseCount <;> exact .done _
  · exact .done _

omit [Quantity K] in
theorem reads_poll (setup : Setup) (now : Instant) (cache : Cache K)
    {instant : Job (Except BusError State)} {totals : Job (Except BusError (Usage K))}
    (hinstant : instant.Reads) (htotals : totals.Reads) :
    (poll setup now cache instant totals).Reads := by
  have hstate : (pollState setup cache instant).Reads := by
    unfold pollState
    split
    · refine hinstant.bind fun answer => ?_
      cases answer <;> exact .done _
    · exact .done _
  have husage : ∀ cache, (pollUsage setup now cache totals).Reads := by
    intro cache
    unfold pollUsage
    split
    · split
      · refine htotals.bind fun answer => ?_
        cases answer <;> exact .done _
      · exact .done _
    · exact .done _
  exact hstate.bind fun _ => (husage _).bind fun _ => .done _

theorem reads_refresh (now : Instant) (m : Meter K) : (m.refresh now).Reads := by
  have hread : ∀ {α : Type} (l : Link) (block : Block) (decode : List UInt16 → α),
      (do return (← l.read block).map decode : Job (Except BusError α)).Reads :=
    fun l block decode => (reads_read l block).bind fun _ => .done _
  cases m with
  | abb m =>
    exact (reads_poll _ _ _ (hread _ _ _) m.reads_readTotals).bind fun _ => .done _
  | carloGavazzi m =>
    exact (reads_poll _ _ _ (hread _ _ _) (hread _ _ _)).bind fun _ => .done _
  | victron m =>
    show Job.Reads (ite _ _ _)
    split
    · refine Reads.bind ?_ fun answer => ?_
      · refine (reads_read _ _).bind fun registers => ?_
        cases registers with
        | error e => exact .done _
        | ok registers => exact (reads_read _ _).bind fun _ => .done _
      · cases answer <;> exact .done _
    · exact m.reads_identified.bind fun m =>
        (reads_poll _ _ _ (hread _ _ _) (hread _ _ _)).bind fun _ => .done _
  | dsmr m => exact (reads_latest _).bind fun _ => .done _
  | playback m => exact .done _

/-- The meter after its device was asked. -/
def refreshed (now : Instant) (site : Site) (m : Meter K) : Meter K :=
  ((m.refresh now).run site).1.2

/-- What a meter writes to fresh readings when it is polled alone. -/
def alone (now : Instant) (site : Site) (m : Meter K) : Readings K :=
  ((m.update now .zero).run site).1.2.1

end Meter

/-! ## One after the other -/

namespace Meter

theorem refreshed_spec (now : Instant) (site : Site) {m : Meter K} (h : m.IsDevice) :
    (m.refreshed now site).setup = m.setup ∧ (m.refreshed now site).IsDevice :=
  (all_refresh now h).run site

theorem alone_eq (now : Instant) (site : Site) {m : Meter K} (h : m.IsDevice) :
    m.alone now site = (m.refreshed now site).write .zero := by
  unfold alone refreshed
  rw [update_eq now h, run_seq]
  rfl

/-- Writes what meters keep, one after the other. -/
def writeAll (ms : List (Meter K)) (r : Readings K) : Readings K :=
  ms.foldl (fun r m => m.write r) r

theorem view_writeAll_of_kept {β : Type} (view : Readings K → β) {ms : List (Meter K)}
    (h : ∀ m ∈ ms, ∀ r, view (m.write r) = view r) (r : Readings K) :
    view (writeAll ms r) = view r := by
  refine List.foldlRecOn ms _ (motive := fun s => view s = view r) rfl ?_
  intro s hs m hm
  rw [h m hm, hs]

/-- What only one meter writes is what it writes alone. -/
theorem view_writeAll {β : Type} (view : Readings K → β) {before after : List (Meter K)}
    {m : Meter K} (hothers : ∀ m' ∈ before ++ after, ∀ r, view (m'.write r) = view r)
    (hcongr : ∀ r r', view r = view r' → view (m.write r) = view (m.write r')) (r : Readings K) :
    view (writeAll (before ++ m :: after) r) = view (m.write r) := by
  have hbefore :=
    view_writeAll_of_kept view (fun m' hm' => hothers m' (List.mem_append_left _ hm')) r
  have hafter :=
    view_writeAll_of_kept view (fun m' hm' => hothers m' (List.mem_append_right _ hm'))
      (m.write (writeAll before r))
  unfold writeAll at *
  rw [List.foldl_append, List.foldl_cons, hafter]
  exact hcongr _ _ hbefore

end Meter

namespace Source

/-- The readings of a tick that nobody interrupts. -/
def readingsAt (now : Instant) (site : Site) (s : Source K) : Readings K :=
  ((s.tick now).run site).1.2.readings

theorem run_pollAll (now : Instant) {ms : List (Meter K)} (h : ∀ m ∈ ms, m.IsDevice)
    {site t : Site} (hsame : site.SameDevices t) (changed : Bool) (r : Readings K) :
    ((pollAll now ms changed r).run t).1.2.1 =
      Meter.writeAll (ms.map (·.refreshed now site)) r := by
  induction ms generalizing t changed r with
  | nil => rfl
  | cons m ms ih =>
    have hm := h m List.mem_cons_self
    have hvalue := ((m.reads_refresh now).steady hsame).1
    have hafter := ((m.reads_refresh now).steady hsame.symm).2
    have hupdate : (m.update now r).run t =
        ((((m.refresh now).run t).1.1, (m.refreshed now site).write r, m.refreshed now site),
          ((m.refresh now).run t).2) := by
      rw [Meter.update_eq now hm, run_seq]
      unfold Meter.refreshed
      rw [hvalue]
      rfl
    have hrest := ih (fun m' hm' => h m' (List.mem_cons_of_mem _ hm')) (hsame.trans hafter)
      (changed || ((m.refresh now).run t).1.1) ((m.refreshed now site).write r)
    have hpoll : ((pollAll now (m :: ms) changed r).run t).1.2.1 =
        ((pollAll now ms (changed || ((m.refresh now).run t).1.1)
          ((m.refreshed now site).write r)).run ((m.refresh now).run t).2).1.2.1 := by
      rw [pollAll, run_seq, hupdate, run_seq]
      rfl
    exact hpoll.trans hrest

theorem readingsAt_eq (now : Instant) (site : Site) {s : Source K}
    (h : ∀ m ∈ s.meters, m.IsDevice) :
    s.readingsAt now site = Meter.writeAll (s.meters.map (·.refreshed now site)) .zero := by
  unfold readingsAt tick
  rw [run_seq]
  exact run_pollAll now h (.refl site) false .zero

end Source

/-! ## Every cell from its meter -/

/-- The readings hold in every cell what the meter that claims it gives alone, and the totals of the
meter that claims them all; what nobody claims is zero. -/
structure Readings.Merges (r : Readings K) (ms : List (Meter K)) (given : Meter K → Readings K) :
    Prop where
  claimed : ∀ m ∈ ms, ∀ a line, (a, line) ∈ m.setup.claims →
    r.cell a line = (given m).cell a line
  unclaimed : ∀ a line, (∀ m ∈ ms, (a, line) ∉ m.setup.claims) →
    r.cell a line = Readings.zero.cell a line
  totals : ∀ m ∈ ms, m.setup.ClaimsTotals → r.totals = (given m).totals
  unset : (∀ m ∈ ms, ¬ m.setup.ClaimsTotals) → r.totals = (Quantity.zero, Quantity.zero)

theorem Electricity.State.ext_at {s t : State} (h : ∀ line < lineCount, s.at line = t.at line) :
    s = t := by
  obtain ⟨⟨c0, c1, c2⟩, ⟨p0, p1, p2⟩, ⟨v0, v1, v2⟩⟩ := s
  obtain ⟨⟨d0, d1, d2⟩, ⟨q0, q1, q2⟩, ⟨w0, w1, w2⟩⟩ := t
  obtain ⟨h0, h1, h2⟩ := forall_lt_lineCount.1 h
  simp only [State.at, PerLine.get?, Prod.mk.injEq, Option.some.injEq] at h0 h1 h2
  obtain ⟨rfl, rfl, rfl⟩ := h0
  obtain ⟨rfl, rfl, rfl⟩ := h1
  obtain ⟨rfl, rfl, rfl⟩ := h2
  rfl

theorem Electricity.Usage.ext_at {K : Type} {u v : Usage K}
    (h : ∀ line < lineCount, u.at line = v.at line)
    (hconsumed : u.setConsumed = v.setConsumed) (hprovided : u.setProvided = v.setProvided) :
    u = v := by
  obtain ⟨⟨c0, c1, c2⟩, ⟨p0, p1, p2⟩, s, t⟩ := u
  obtain ⟨⟨d0, d1, d2⟩, ⟨q0, q1, q2⟩, s', t'⟩ := v
  obtain ⟨h0, h1, h2⟩ := forall_lt_lineCount.1 h
  simp only [Usage.at, PerLine.get?, Prod.mk.injEq, Option.some.injEq] at h0 h1 h2
  obtain ⟨rfl, rfl⟩ := h0
  obtain ⟨rfl, rfl⟩ := h1
  obtain ⟨rfl, rfl⟩ := h2
  obtain rfl : s = s' := hconsumed
  obtain rfl : t = t' := hprovided
  rfl

omit [Quantity K] in
theorem Readings.usage_eq {r r' : Readings K}
    (hcells : ∀ line < lineCount, r.cell .usage line = r'.cell .usage line)
    (htotals : r.totals = r'.totals) : r.usage = r'.usage :=
  Usage.ext_at (fun line hline => Readings.Cell.usage.inj (hcells line hline))
    (Prod.mk.inj htotals).1 (Prod.mk.inj htotals).2

theorem Readings.Merges.unique {r r' : Readings K} {ms ms' : List (Meter K)}
    {given : Meter K → Readings K} (h : r.Merges ms given) (h' : r'.Merges ms' given)
    (hmem : ∀ m, m ∈ ms' ↔ m ∈ ms) : r'.state = r.state ∧ r'.usage = r.usage := by
  have hcell : ∀ a line, r'.cell a line = r.cell a line := by
    intro a line
    by_cases hclaim : ∃ m ∈ ms, (a, line) ∈ m.setup.claims
    · obtain ⟨m, hm, hclaim⟩ := hclaim
      rw [h.claimed m hm a line hclaim, h'.claimed m ((hmem m).2 hm) a line hclaim]
    · simp only [not_exists, not_and] at hclaim
      rw [h.unclaimed a line hclaim,
        h'.unclaimed a line fun m hm => hclaim m ((hmem m).1 hm)]
  have htotals : r'.totals = r.totals := by
    by_cases hclaim : ∃ m ∈ ms, m.setup.ClaimsTotals
    · obtain ⟨m, hm, hclaim⟩ := hclaim
      rw [h.totals m hm hclaim, h'.totals m ((hmem m).2 hm) hclaim]
    · simp only [not_exists, not_and] at hclaim
      rw [h.unset hclaim, h'.unset fun m hm => hclaim m ((hmem m).1 hm)]
  exact ⟨State.ext_at fun line _ => Readings.Cell.state.inj (hcell .state line),
    Readings.usage_eq (fun line _ => hcell .usage line) htotals⟩

theorem Readings.Merges.of_map {r : Readings K} {ms : List (Meter K)} {f : Meter K → Meter K}
    {given given' : Meter K → Readings K} (h : r.Merges (ms.map f) given)
    (hf : ∀ m ∈ ms, (f m).setup = m.setup ∧ given (f m) = given' m) : r.Merges ms given' where
  claimed m hm a line hclaim := by
    rw [← (hf m hm).1] at hclaim
    rw [h.claimed _ (List.mem_map_of_mem hm) a line hclaim, (hf m hm).2]
  unclaimed a line hclaim := by
    refine h.unclaimed a line fun m' hm' => ?_
    obtain ⟨m, hm, rfl⟩ := List.mem_map.1 hm'
    rw [(hf m hm).1]
    exact hclaim m hm
  totals m hm hclaim := by
    rw [← (hf m hm).1] at hclaim
    rw [h.totals _ (List.mem_map_of_mem hm) hclaim, (hf m hm).2]
  unset hclaim := by
    refine h.unset fun m' hm' => ?_
    obtain ⟨m, hm, rfl⟩ := List.mem_map.1 hm'
    rw [(hf m hm).1]
    exact hclaim m hm

namespace Meter

omit [Quantity K] in
theorem unclaimed_by_others {before after : List (Meter K)} {m : Meter K}
    (h : ((before ++ m :: after).flatMap fun m => m.setup.claims).Nodup)
    {x : Attribute × LineIndex} (hx : x ∈ m.setup.claims) :
    ∀ m' ∈ before ++ after, x ∉ m'.setup.claims := by
  have hperm : List.Perm (before ++ m :: after) (m :: (before ++ after)) := List.perm_middle
  have hfirst := (hperm.flatMap_right fun m => m.setup.claims).nodup_iff.1 h
  rw [List.flatMap_cons] at hfirst
  have hdisjoint := (List.nodup_append'.1 hfirst).2.2
  intro m' hm' hx'
  exact hdisjoint hx (List.mem_flatMap.2 ⟨m', hm', hx'⟩)

/-- Where no cell is claimed twice, writing one after the other merges. -/
theorem merges_writeAll {ms : List (Meter K)} (hfeeds : ∀ m ∈ ms, m.FeedsLines)
    (hclaims : (ms.flatMap fun m => m.setup.claims).Nodup) :
    (writeAll ms .zero).Merges ms (·.write .zero) where
  claimed m hm a line hclaim := by
    obtain ⟨before, after, rfl⟩ := List.append_of_mem hm
    have hothers := unclaimed_by_others hclaims hclaim
    refine view_writeAll (·.cell a line) (fun m' hm' r => ?_)
      (fun _ _ => cell_write_congr (hfeeds m hm)) .zero
    have hmem : m' ∈ before ++ m :: after := by grind
    exact cell_write (hfeeds m' hmem) (hothers m' hm')
  unclaimed a line hclaim :=
    view_writeAll_of_kept (·.cell a line)
      (fun m hm r => cell_write (hfeeds m hm) (hclaim m hm)) .zero
  totals m hm hclaim := by
    obtain ⟨before, after, rfl⟩ := List.append_of_mem hm
    -- Who claims every counter claims the one of the first line.
    have hothers := unclaimed_by_others hclaims (hclaim 0 (by decide))
    refine view_writeAll (·.totals) (fun m' hm' r => ?_)
      (fun _ _ => totals_write_congr (hfeeds m hm)) .zero
    have hmem : m' ∈ before ++ m :: after := by grind
    exact totals_write (hfeeds m' hmem) fun hall => hothers m' hm' (hall 0 (by decide))
  unset hclaim :=
    view_writeAll_of_kept (·.totals)
      (fun m hm r => totals_write (hfeeds m hm) (hclaim m hm)) .zero

end Meter

namespace Source

/-- The readings of a tick hold in every cell what the meter that claims it writes alone, whatever
the order of the meters. -/
theorem merges_alone {cfg : SourceConfig} (hfault : cfg.fault? = none) (hrole : cfg.role ≠ .battery)
    {s : Source K} (hmeters : cfg.Holds s.meters) (now : Instant) (site : Site) :
    (s.meters.flatMap fun m => m.setup.claims).Nodup ∧
      (s.readingsAt now site).Merges s.meters (·.alone now site) ∧
      ∀ s' : Source K, List.Perm s'.meters s.meters →
        (s'.readingsAt now site).state = (s.readingsAt now site).state ∧
          (s'.readingsAt now site).usage = (s.readingsAt now site).usage := by
  have hmerges : ∀ s : Source K, cfg.Holds s.meters →
      (s.readingsAt now site).Merges s.meters (·.alone now site) := by
    intro s hmeters
    have hrefreshed : ∀ m ∈ s.meters, (m.refreshed now site).setup = m.setup ∧
        (m.refreshed now site).IsDevice := fun m hm => m.refreshed_spec now site (hmeters.2 m hm)
    rw [s.readingsAt_eq now site hmeters.2]
    refine Readings.Merges.of_map (Meter.merges_writeAll ?_ ?_) fun m hm =>
      ⟨(hrefreshed m hm).1, (m.alone_eq now site (hmeters.2 m hm)).symm⟩
    · intro m' hm'
      obtain ⟨m, hm, rfl⟩ := List.mem_map.1 hm'
      refine ⟨(hrefreshed m hm).2, ?_⟩
      rw [(hrefreshed m hm).1, hmeters.role hm]
      exact hrole
    · have hsame : (s.meters.map (·.refreshed now site)).flatMap (fun m => m.setup.claims) =
          s.meters.flatMap fun m => m.setup.claims := by
        rw [List.flatMap_map]
        exact List.flatMap_congr fun m hm => congrArg Setup.claims (hrefreshed m hm).1
      rw [hsame]
      exact hmeters.nodup_claims hfault hrole
  refine ⟨hmeters.nodup_claims hfault hrole, hmerges s hmeters, ?_⟩
  intro s' hperm
  have hmeters' : cfg.Holds s'.meters :=
    ⟨(hperm.map Meter.setup).subperm.trans hmeters.1, fun m hm => hmeters.2 m (hperm.mem_iff.1 hm)⟩
  exact (hmerges s hmeters).unique (hmerges s' hmeters') fun m => hperm.mem_iff

end Source

/-! ## Two meters of one connection -/

def slotAt (connect : String) (lines : List LineIndex) : SlotConfig :=
  ⟨connect, .modbus, none, 1, 0, lines, [.state, .usage], 1000⟩

/-- A connection to the grid whose first line has a meter of its own. -/
def splitGrid : SourceConfig :=
  ⟨"grid", .grid, .always, true, [slotAt "tcp://a" [0], slotAt "tcp://b" [1, 2]]⟩

def analyzerAt (client : ClientId) (slot : SlotConfig) : Meter.CarloGavazzi K :=
  { link := ⟨client, slot.connect, slot.unit.toUInt8, 0, Meter.CarloGavazzi.encoding, false⟩
    setup := (slot.slot .grid).setup, family := .em3xx, modelId := 340, serial := ""
    cache := .empty }

/-- A bus with a unit that answers for every register with one value. -/
def constantBus (value : UInt16) : Segment :=
  { Segment.new with devices := [(1, { Device.new with holding := fun _ => some value })] }

def splitGridSite : Site :=
  { Site.new [("tcp://a", constantBus 4), ("tcp://b", constantBus 7)] []
      ⟨fun _ => .timeout, .endOfStream⟩ with
    clients := [.new "tcp://a" 0, .new "tcp://b" 0] }

/-- The meters in the order of their addresses backwards. -/
def splitGridSource : Source Rat :=
  .new "grid" .grid .always
    [.carloGavazzi (analyzerAt 1 (slotAt "tcp://b" [1, 2])),
      .carloGavazzi (analyzerAt 0 (slotAt "tcp://a" [0]))]

theorem splitGrid_holds : splitGrid.Holds splitGridSource.meters := by
  refine ⟨(List.Perm.swap _ _ _).subperm, ?_⟩
  intro m hm
  simp only [splitGridSource, Source.new, List.mem_cons, List.not_mem_nil, or_false] at hm
  rcases hm with rfl | rfl <;> trivial

theorem splitGrid_merges :
    splitGrid.fault? = none ∧ splitGrid.role ≠ .battery ∧ splitGrid.Holds splitGridSource.meters ∧
      (splitGridSource.readingsAt ⟨0⟩ splitGridSite).Merges splitGridSource.meters
        (·.alone ⟨0⟩ splitGridSite) :=
  have hfault : splitGrid.fault? = none := by decide +kernel
  ⟨hfault, by decide, splitGrid_holds,
    (Source.merges_alone hfault (by decide) splitGrid_holds ⟨0⟩ splitGridSite).2.1⟩

end HomeMetering
