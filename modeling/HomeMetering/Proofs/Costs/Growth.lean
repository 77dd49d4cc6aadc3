import HomeMetering.Proofs.Costs.Accounts
import HomeMetering.Proofs.Costs.Billed
import Mathlib.Algebra.Order.BigOperators.Group.List

/-!
# Never more than was consumed

The first reading that counts sets the baseline. What is billed after it is at most what the meters
have counted since, where a meter counts from what it contributed to that reading: one that had not
been read by then contributed nothing, and so it is billed from zero.
-/

namespace HomeMetering

open Electricity Modbus Site Site.Job Delivered

/-! ## Ticks that count -/

theorem Publication.usage_of_electricity {published : Publication Rat} {r : Readings Rat}
    (hpublished : published = .nothing ∨ published = .ofReadings r) {values : Energy Rat}
    (h : published.electricity = some values) : values.usage = r.usage := by
  rcases hpublished with rfl | rfl
  · cases h
  · unfold Publication.ofReadings at h
    dsimp only at h
    split at h
    · cases h
    · rw [← Option.some.inj h]

namespace Tick

/-- What a tick tells whoever listens to its source. -/
def event? (source : String) (role : Role) (t : Tick) : Option (Event (Energy Rat)) :=
  t.published.electricity.map fun values => ⟨t.now, source, role, values⟩

/-- Whether a tick publishes counters that are not zero. -/
def isCounted (t : Tick) : Bool := t.published.electricity.any fun values => !values.usage.isZero

/-- Where the bill of each meter starts when a tick is the first that counts: at what the meter
contributed to it, and not above what it would have shown. -/
def floors (t : Tick) : List Rat := t.meters.map fun m => min (m.importOn t.panel) m.share

theorem find?_snoc (ts : List Tick) (t : Tick) : (ts ++ [t]).find? isCounted =
    (ts.find? isCounted).or (if t.isCounted then some t else none) := by
  rw [List.find?_append, List.find?_singleton]

end Tick

theorem Delivered.consumedIn_filter_costOf (tariff : Tariff Rat) (e d : Delivered Rat) :
    let costs := (((some e).filter fun e => ¬ e.Gap d).map fun e => costOf tariff e d).toList
    consumedIn costs = 0 ∨ consumedIn costs = d.consumed - e.consumed := by
  by_cases hgap : e.Gap d
  · exact Or.inl (by simp [hgap, Option.filter, consumedIn])
  · exact Or.inr (by simp [hgap, Option.filter, consumedIn, costOf])

open Account

/-- What the readings that count have come to after some ticks. -/
inductive Standing (tariff : Tariff Rat) (ts : List Tick) (ms : List (Meter Rat))
    (ds : List (Delivered Rat)) : Prop
  | unread (hfirst : ts.find? Tick.isCounted = none) (hnone : ds = [])
  | read {t : Tick} {p : Panel} {last : Delivered Rat} {accounts : List Account}
      (hfirst : ts.find? Tick.isCounted = some t) (hpanel : p ∈ ts.map Tick.panel)
      (hlast : ds.getLast? = some last)
      (hcover : Cover p t.floors last.consumed (consumedIn (costsOf tariff ds)) ms accounts)

namespace Standing

variable {tariff : Tariff Rat} {ts : List Tick} {ms : List (Meter Rat)} {ds : List (Delivered Rat)}
  {t : Tick}

theorem eq_nil (h : Standing tariff ts ms ds) (hfirst : ts.find? Tick.isCounted = none) :
    ds = [] := by
  cases h with
  | unread _ hnone => exact hnone
  | read hsome => cases hfirst.symm.trans hsome

theorem polled (h : Standing tariff ts ms ds) (hcounts : ∀ m ∈ ms, m.CountsEnergy)
    (hpolled : List.Forall₂ (Meter.Polled t.panel) ms t.meters)
    (hrise : ∀ p ∈ ts.map Tick.panel, ∀ m ∈ ms, m.importOn p ≤ m.importOn t.panel)
    (hskipped : ts.find? Tick.isCounted = none → t.isCounted = false) :
    Standing tariff (ts ++ [t]) t.meters ds := by
  have hmem : t.panel ∈ (ts ++ [t]).map Tick.panel :=
    List.mem_map_of_mem (List.mem_append_right _ (List.mem_singleton.2 rfl))
  cases h with
  | unread hfirst hnone =>
    refine .unread ?_ hnone
    rw [Tick.find?_snoc, hfirst, hskipped hfirst]
    rfl
  | read hfirst hpanel hlast hcover =>
    refine .read ?_ hmem hlast (hcover.polled hcounts hpolled (hrise _ hpanel))
    rw [Tick.find?_snoc, hfirst, Option.some_or]

/-- A tick that counts opens the accounts or bills what was counted since the last one. -/
theorem taken (h : Standing tariff ts ms ds) (hcounts : ∀ m ∈ ms, m.CountsEnergy)
    (hpolled : List.Forall₂ (Meter.Polled t.panel) ms t.meters)
    (hrise : ∀ p ∈ ts.map Tick.panel, ∀ m ∈ ms, m.importOn p ≤ m.importOn t.panel)
    (hcounted : t.isCounted = true) {d : Delivered Rat}
    (hd : d.consumed = (t.meters.map Meter.share).sum) :
    Standing tariff (ts ++ [t]) t.meters (ds ++ [d]) := by
  have hmem : t.panel ∈ (ts ++ [t]).map Tick.panel :=
    List.mem_map_of_mem (List.mem_append_right _ (List.mem_singleton.2 rfl))
  cases h with
  | unread hfirst hnone =>
    subst hnone
    have hopened : Cover t.panel t.floors d.consumed (consumedIn (costsOf tariff [d])) t.meters
        (t.meters.map (opened t.panel)) := by
      rw [hd]
      exact cover_opened t.panel t.meters
    refine .read ?_ hmem List.getLast?_concat hopened
    rw [Tick.find?_snoc, hfirst, hcounted]
    rfl
  | @read first p last accounts hfirst hpanel hlast hcover =>
    have hcost := Delivered.consumedIn_filter_costOf tariff last d
    dsimp only at hcost
    rw [hd] at hcost
    obtain ⟨accounts', hsettled⟩ := (hcover.polled hcounts hpolled (hrise p hpanel)).settled hcost
    rw [← hd, ← consumedIn_append, ← hlast, ← costsOf_snoc] at hsettled
    refine .read ?_ hmem List.getLast?_concat hsettled
    rw [Tick.find?_snoc, hfirst, Option.some_or]

end Standing

namespace Meter

variable {ms ms' : List (Meter Rat)}

theorem forall_of_importOn_eq (h : ms'.map importOn = ms.map importOn) {P : (Panel → Rat) → Prop}
    (hms : ∀ m ∈ ms, P m.importOn) : ∀ m ∈ ms', P m.importOn := by
  intro m' hm'
  obtain ⟨m, hm, heq⟩ := List.mem_map.1 (h ▸ List.mem_map_of_mem hm')
  rw [← heq]
  exact hms m hm

theorem sum_importOn_eq (h : ms'.map importOn = ms.map importOn) (p : Panel) :
    (ms'.map (·.importOn p)).sum = (ms.map (·.importOn p)).sum := by
  have hmap : ∀ l : List (Meter Rat),
      l.map (·.importOn p) = (l.map importOn).map fun f => f p := fun l =>
    (List.map_map (g := fun f => f p) (f := importOn)).symm
  rw [hmap, h, ← hmap]

end Meter

namespace Source

/-- A source whose meters are polled, and what its readings that count have come to. -/
structure Stands (tariff : Tariff Rat) (s s' : Source Rat) (ts : List Tick)
    (ds : List (Delivered Rat)) : Prop where
  sound : Meter.Sound s'.meters
  importOn_eq : s'.meters.map Meter.importOn = s.meters.map Meter.importOn
  importOn_eq_of_mem : ∀ t ∈ ts, t.meters.map Meter.importOn = s.meters.map Meter.importOn
  standing : Standing tariff ts s'.meters (counted s.name ds)

variable {s s' : Source Rat} {ts : List Tick}

/-- The meters of a source never show less on a later panel. -/
def NeverDrops (s : Source Rat) (panels : List Panel) : Prop :=
  panels.Pairwise fun p q => ∀ m ∈ s.meters, m.importOn p ≤ m.importOn q

theorem Stands.step {tariff : Tariff Rat} {ds es : List (Delivered Rat)} {t : Tick}
    {after : Source Rat} (h : Stands tariff s s' ts ds)
    (hpolled : List.Forall₂ (Meter.Polled t.panel) s'.meters t.meters)
    (hafter : after.meters = t.meters)
    (hpublished : t.published = .nothing ∨
      t.published = .ofReadings (Meter.writeAll t.meters .zero))
    (hrise : ∀ p ∈ ts.map Tick.panel, ∀ m ∈ s.meters, m.importOn p ≤ m.importOn t.panel)
    (hes : es.map Delivered.event = (t.event? s.name s.role).toList) :
    Stands tariff s after (ts ++ [t]) (ds ++ es) := by
  have hsound := h.sound.polled hpolled
  have hrise' : ∀ p ∈ ts.map Tick.panel, ∀ m ∈ s'.meters, m.importOn p ≤ m.importOn t.panel :=
    fun p hp => Meter.forall_of_importOn_eq h.importOn_eq (P := fun f => f p ≤ f t.panel)
      (hrise p hp)
  have himport : t.meters.map Meter.importOn = s.meters.map Meter.importOn := by
    rw [h.sound.importOn_eq hpolled, h.importOn_eq]
  refine ⟨hafter ▸ hsound, hafter ▸ himport, fun u hu => ?_, ?_⟩
  · rcases List.mem_append.1 hu with hearlier | hlast
    · exact h.importOn_eq_of_mem u hearlier
    · rw [List.mem_singleton.1 hlast, himport]
  rw [hafter]
  cases hevent : t.event? s.name s.role with
  | none =>
    rw [hevent, Option.toList_none, List.map_eq_nil_iff] at hes
    rw [hes, List.append_nil]
    refine h.standing.polled h.sound.counts hpolled hrise' fun _ => ?_
    unfold Tick.isCounted
    rw [Option.map_eq_none_iff.1 hevent]
    rfl
  | some e =>
    rw [hevent, Option.toList_some] at hes
    obtain ⟨d, rfl, hd⟩ := List.map_eq_singleton_iff.1 hes
    obtain ⟨values, hvalues, rfl⟩ := Option.map_eq_some_iff.1 hevent
    have husage := Publication.usage_of_electricity hpublished hvalues
    have hconsumed : d.consumed = (t.meters.map Meter.share).sum := by
      rw [← Meter.totalConsumed_writeAll hsound.feeds hsound.claims, ← husage]
      unfold Delivered.consumed
      rw [hd]
    have hcounted : t.isCounted = !d.isZero := by
      unfold Tick.isCounted Delivered.isZero
      rw [hvalues, hd]
      rfl
    rw [counted_snoc]
    split
    · rename_i hcounts
      refine h.standing.taken h.sound.counts hpolled hrise' ?_ hconsumed
      rw [hcounted, hcounts.2.1]
      rfl
    · rename_i hskipped
      refine h.standing.polled h.sound.counts hpolled hrise' fun hfirst => ?_
      -- Before the first reading that counts, none is late: what is skipped is zero.
      have hnone := h.standing.eq_nil hfirst
      rw [hnone] at hskipped
      rw [hcounted, Bool.not_eq_false']
      by_contra hzero
      refine hskipped ⟨congrArg Event.source hd, Bool.eq_false_of_not_eq_true hzero, ?_⟩
      intro e he
      cases he

theorem Ticks.stands (h : s.Ticks ts s') (hsound : Meter.Sound s.meters) (tariff : Tariff Rat)
    (hdrops : s.NeverDrops (ts.map Tick.panel)) {ds : List (Delivered Rat)}
    (hds : ds.map Delivered.event = ts.filterMap (Tick.event? s.name s.role)) :
    Stands tariff s s' ts ds := by
  induction h generalizing ds with
  | nil =>
    obtain rfl := List.map_eq_nil_iff.1 hds
    exact ⟨hsound, rfl, List.forall_mem_nil _, .unread rfl rfl⟩
  | @snoc ts before after now panel published site site' _ tick ih =>
    rw [List.map_append] at hdrops
    obtain ⟨hbefore, -, hrise⟩ := List.pairwise_append.1 hdrops
    rw [List.filterMap_append] at hds
    obtain ⟨earlier, es, rfl, hearlier, hes⟩ := List.map_eq_append_iff.1 hds
    have hstands := ih hbefore hearlier
    obtain ⟨hpolled, hpublished⟩ := polled_of_tick hstands.sound.counts tick
    refine hstands.step hpolled rfl hpublished
      (fun p hp => hrise p hp panel (List.mem_singleton.2 rfl)) (hes.trans ?_)
    rw [List.filterMap_cons, List.filterMap_nil]
    cases Tick.event? s.name s.role ⟨now, panel, published, after.meters⟩ <;> rfl

namespace Stands

variable {tariff : Tariff Rat} {ds : List (Delivered Rat)} {t : Tick}

theorem billed_le_floors (h : Stands tariff s s' ts ds) {now : Panel}
    (hnow : ∀ p ∈ ts.map Tick.panel, ∀ m ∈ s.meters, m.importOn p ≤ m.importOn now)
    (hfirst : ts.find? Tick.isCounted = some t) :
    consumedIn (costsOf tariff (counted s.name ds)) ≤
      (s.meters.map (·.importOn now)).sum - t.floors.sum := by
  cases h.standing with
  | unread hnone => cases hnone.symm.trans hfirst
  | @read first p last accounts hsome hpanel _ hcover =>
    obtain rfl := Option.some.inj (hsome.symm.trans hfirst)
    refine hcover.billed_le.trans (sub_le_sub_right ?_ _)
    rw [Meter.sum_importOn_eq h.importOn_eq]
    exact List.sum_le_sum (hnow p hpanel)

theorem start_le_floors (h : Stands tariff s s' ts ds) {start : Panel}
    (hstart : ∀ p ∈ ts.map Tick.panel, ∀ m ∈ s.meters, m.importOn start ≤ m.importOn p)
    (ht : t ∈ ts) (hread : ∀ m ∈ t.meters, m.importOn start ≤ m.share) :
    (s.meters.map (·.importOn start)).sum ≤ t.floors.sum := by
  have himport := h.importOn_eq_of_mem t ht
  have hrise : ∀ m ∈ t.meters, m.importOn start ≤ m.importOn t.panel :=
    Meter.forall_of_importOn_eq himport (P := fun f => f start ≤ f t.panel)
      (hstart t.panel (List.mem_map_of_mem ht))
  rw [← Meter.sum_importOn_eq himport]
  exact List.sum_le_sum fun m hm => le_min (hrise m hm) (hread m hm)

end Stands

/-- What is billed for a source is not more than its meters have counted since the first reading
that counts, each from what it contributed to that reading. Where a meter had not been read by then,
that is below what it showed, and what it had counted before is billed. -/
theorem billed_le_growth {cfg : SourceConfig} (hfault : cfg.fault? = none)
    (hrole : cfg.role ≠ .battery) (hmeters : cfg.Holds s.meters)
    (hcounts : ∀ m ∈ s.meters, m.CountsEnergy) (hticks : s.Ticks ts s') {start now : Panel}
    (hdrops : s.NeverDrops (start :: (ts.map Tick.panel ++ [now]))) (tariff : Tariff Rat)
    {ds : List (Delivered Rat)}
    (hds : (ds.filter fun d => d.source = s.name).map Delivered.event =
      ts.filterMap (Tick.event? s.name s.role)) :
    (ts.find? Tick.isCounted = none → tariff.billed s.name ds = []) ∧
      (∀ t, ts.find? Tick.isCounted = some t →
        consumedIn (tariff.billed s.name ds) ≤
          (s.meters.map (·.importOn now)).sum - t.floors.sum) ∧
      ((∀ t, ts.find? Tick.isCounted = some t → ∀ m ∈ t.meters, m.importOn start ≤ m.share) →
        consumedIn (tariff.billed s.name ds) ≤
          (s.meters.map (·.importOn now)).sum - (s.meters.map (·.importOn start)).sum) := by
  have hsound := Meter.sound_of_holds hmeters hfault hrole hcounts
  obtain ⟨hstart, hpanels⟩ := List.pairwise_cons.1 hdrops
  obtain ⟨hrun, -, hnow⟩ := List.pairwise_append.1 hpanels
  have hnow : ∀ p ∈ ts.map Tick.panel, ∀ m ∈ s.meters, m.importOn p ≤ m.importOn now :=
    fun p hp => hnow p hp now (List.mem_singleton.2 rfl)
  have hstands := hticks.stands hsound tariff hrun hds
  rw [tariff.billed_eq, ← counted_filter]
  refine ⟨fun hfirst => ?_, fun t hfirst => hstands.billed_le_floors hnow hfirst, fun hread => ?_⟩
  · rw [hstands.standing.eq_nil hfirst]
    rfl
  cases hfirst : ts.find? Tick.isCounted with
  | none =>
    rw [hstands.standing.eq_nil hfirst]
    refine sub_nonneg.2 (List.sum_le_sum (hstart now ?_))
    exact List.mem_append_right _ (List.mem_singleton.2 rfl)
  | some t =>
    refine (hstands.billed_le_floors hnow hfirst).trans (sub_le_sub_left ?_ _)
    exact hstands.start_le_floors (fun p hp => hstart p (List.mem_append_left _ hp))
      (List.mem_of_find?_eq_some hfirst) (hread t hfirst)

/-- What an undisturbed tick reads. -/
def reading (now : Instant) (site : Site) (s : Source Rat) : Delivered Rat :=
  let r := (s.ticked now site).readings
  ⟨⟨now, s.name, s.role, r.state, r.usage⟩, now⟩

def readingsOn : List (Instant × Site × Panel) → Source Rat → List (Delivered Rat)
  | [], _ => []
  | (now, site, _) :: rest, s => s.reading now site :: (s.ticked now site).readingsOn rest

theorem event?_tickOn (halways : s.policy = .always) {now : Instant} {site : Site}
    (hread : (s.reading now site).isZero = false) (p : Panel) :
    (s.tickOn now site p).event? s.name s.role = some (s.reading now site).event := by
  have hzero : (s.ticked now site).readings.usage.isZero = false := hread
  unfold Tick.event?
  rw [published_tickOn halways]
  unfold Publication.ofReadings
  dsimp only
  rw [hzero, Bool.and_false, if_neg Bool.false_ne_true]
  rfl

theorem event?_ticksOn (halways : s.policy = .always) {schedule : List (Instant × Site × Panel)}
    (hread : ∀ d ∈ s.readingsOn schedule, d.isZero = false) :
    (s.readingsOn schedule).map Delivered.event =
      (s.ticksOn schedule).filterMap (Tick.event? s.name s.role) := by
  induction schedule generalizing s with
  | nil => rfl
  | cons x schedule ih =>
    obtain ⟨now, site, p⟩ := x
    obtain ⟨hfirst, hrest⟩ := List.forall_mem_cons.1 hread
    obtain ⟨hname, hrole, hpolicy⟩ := s.kept_ticked now site
    have hlater := ih (hpolicy.trans halways) hrest
    rw [hname, hrole] at hlater
    rw [ticksOn, List.filterMap_cons_some (event?_tickOn halways hfirst p), ← hlater]
    rfl

end Source

/-! ## Two meters of one connection -/

/-- The connection to the grid with meters that only count. -/
def countedGrid : SourceConfig :=
  { splitGrid with
    meters := splitGrid.meters.map fun slot => { slot with attributes := [.usage] } }

def countedGridSource : Source Rat :=
  .new "grid" .grid .always
    [.carloGavazzi (analyzerAt 0 { slotAt "tcp://a" [0] with attributes := [.usage] }),
      .carloGavazzi (analyzerAt 1 { slotAt "tcp://b" [1, 2] with attributes := [.usage] })]

theorem countedGrid_fault? : countedGrid.fault? = none := by decide +kernel

theorem countedGrid_countsEnergy : ∀ m ∈ countedGridSource.meters, m.CountsEnergy :=
  List.forall_mem_cons.2 ⟨rfl, List.forall_mem_singleton.2 rfl⟩

theorem countedGrid_holds : countedGrid.Holds countedGridSource.meters :=
  ⟨(List.Perm.refl countedGrid.setups).subperm,
    fun m hm => (countedGrid_countsEnergy m hm).isDevice⟩

/-- A bus with a unit whose counters all show the same, in kWh. -/
def countingBus (energy : UInt16) : Segment :=
  let registers : Registers := fun address => some (if address % 2 = 0 then 10 * energy else 0)
  { Segment.new with devices := [(1, { Device.new with holding := registers })] }

def countedGridSite (a b : Segment) : Site :=
  { splitGridSite with buses := [("tcp://a", a), ("tcp://b", b)] }

/-- What stands in the registers of a site. -/
def Site.panel (s : Site) : Panel := fun client unit block =>
  match block.accept (s.registersOf client unit block) with
  | .ok registers => registers
  | .error _ => []

theorem Site.shows_panel (s : Site) : s.Shows s.panel := by
  intro client unit block registers h
  unfold Site.panel
  rw [h]

theorem countedGrid_shows (a b : Segment) :
    (countedGridSite a { b with isFailing := true }).Shows (countedGridSite a b).panel := by
  intro client unit block registers h
  match client with
  | 0 => exact (countedGridSite a b).shows_panel 0 unit block registers h
  | 1 => cases h
  | n + 2 => cases h

/-- A tick at the start and one a minute later. -/
def minuteApart (first second : Site) (p q : Panel) : List (Instant × Site × Panel) :=
  [(⟨0⟩, first, p), (⟨60000000⟩, second, q)]

theorem ticks_minuteApart {first second : Site} {p q : Panel} (hfirst : first.Shows p)
    (hsecond : second.Shows q) :
    ∃ after, countedGridSource.Ticks (countedGridSource.ticksOn (minuteApart first second p q))
      after := by
  have hsound := Meter.sound_of_holds countedGrid_holds countedGrid_fault? (by decide)
    countedGrid_countsEnergy
  have hshows : ∀ x ∈ minuteApart first second p q, x.2.1.Shows x.2.2 :=
    List.forall_mem_cons.2 ⟨hfirst, List.forall_mem_singleton.2 hsecond⟩
  exact Source.Ticks.nil.run hsound hshows

theorem event_minuteApart {schedule : List (Instant × Site × Panel)}
    (h : ∀ d ∈ countedGridSource.readingsOn schedule, d.source = "grid" ∧ d.isZero = false) :
    ((countedGridSource.readingsOn schedule).filter fun d => d.source = "grid").map
        Delivered.event =
      (countedGridSource.ticksOn schedule).filterMap (Tick.event? "grid" .grid) := by
  rw [List.filter_eq_self.2 fun d hd => decide_eq_true (h d hd).1]
  exact Source.event?_ticksOn rfl fun d hd => (h d hd).2

theorem counted_between_billed :
    let site := countedGridSite (countingBus 1000) (countingBus 2500)
    let later := countedGridSite (countingBus 1001) (countingBus 2503)
    let schedule := minuteApart site later site.panel later.panel
    let ts := countedGridSource.ticksOn schedule
    let panels := site.panel :: (ts.map Tick.panel ++ [later.panel])
    let ds := countedGridSource.readingsOn schedule
    countedGridSource.NeverDrops panels ∧
      (∀ t ∈ ts, ∀ m ∈ t.meters, m.importOn site.panel ≤ m.share) ∧
      consumedIn (Tariff.billed ⟨1, 1⟩ "grid" ds) = 7 ∧
      consumedIn (Tariff.billed ⟨1, 1⟩ "grid" ds) ≤
        (countedGridSource.meters.map (·.importOn later.panel)).sum -
          (countedGridSource.meters.map (·.importOn site.panel)).sum := by
  intro site later schedule ts panels ds
  have hdrops : countedGridSource.NeverDrops panels := by
    unfold Source.NeverDrops
    decide +kernel
  have hread : ∀ t ∈ ts, ∀ m ∈ t.meters, m.importOn site.panel ≤ m.share := by
    decide +kernel
  obtain ⟨after, hticks⟩ := ticks_minuteApart site.shows_panel later.shows_panel
  have hbilled := (Source.billed_le_growth countedGrid_fault? (by decide) countedGrid_holds
    countedGrid_countsEnergy hticks hdrops ⟨1, 1⟩ (event_minuteApart (by decide +kernel))).2.2
    fun t hfirst => hread t (List.mem_of_find?_eq_some hfirst)
  exact ⟨hdrops, hread, by decide +kernel, hbilled⟩

/-- Not all that is billed was counted: the registers stay as they are, the second meter cannot be
read at the first tick, and all that it has ever counted is billed at the second one. -/
theorem unread_meter_billed_from_zero :
    ¬ ∀ (cfg : SourceConfig) (s s' : Source Rat) (ts : List Tick) (start now : Panel)
      (tariff : Tariff Rat) (ds : List (Delivered Rat)),
      cfg.fault? = none → cfg.role = .grid → cfg.Holds s.meters →
      (∀ m ∈ s.meters, m.CountsEnergy) → s.Ticks ts s' →
      (∀ p ∈ ts.map Tick.panel ++ [now], p = start) →
      (ds.filter fun d => d.source = s.name).map Delivered.event =
        ts.filterMap (Tick.event? s.name s.role) →
      consumedIn (tariff.billed s.name ds) ≤
        (s.meters.map (·.importOn now)).sum - (s.meters.map (·.importOn start)).sum := by
  intro h
  let site := countedGridSite (countingBus 1000) (countingBus 2500)
  let failing := countedGridSite (countingBus 1000) { countingBus 2500 with isFailing := true }
  let schedule := minuteApart failing site site.panel site.panel
  obtain ⟨after, hticks⟩ := ticks_minuteApart (countedGrid_shows _ _) site.shows_panel
  have hstill : ∀ p ∈ (countedGridSource.ticksOn schedule).map Tick.panel ++ [site.panel],
      p = site.panel := by
    intro p hp
    simpa [schedule, minuteApart, Source.ticksOn, Source.tickOn] using hp
  have hbilled := h countedGrid countedGridSource after _ site.panel site.panel ⟨1, 1⟩
    (countedGridSource.readingsOn schedule) countedGrid_fault? rfl countedGrid_holds
    countedGrid_countsEnergy hticks hstill (event_minuteApart (by decide +kernel))
  have hwhole : consumedIn (Tariff.billed ⟨1, 1⟩ "grid" (countedGridSource.readingsOn schedule)) =
      5000 := by
    decide +kernel
  rw [sub_self] at hbilled
  exact absurd (hwhole.symm.trans_le hbilled) (by decide)

end HomeMetering
