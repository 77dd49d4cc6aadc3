import HomeMetering.Proofs.Meter.Health
import HomeMetering.Source
import Mathlib.Data.List.Induction

/-!
# Batteries side by side

The meters of a battery source all write the same values, each over what the meters before it have
written. A tick shows what the last of them keeps. A battery that was never read takes no part,
unless it is the last one: then nothing is left of the others.
-/

namespace HomeMetering

open Meter Meter.Victron Site Site.Job

variable {K : Type}

namespace Meter.Victron

/-! ## Reads -/

/-- Takes over what was read, if anything was, and tells whether that is new. -/
def taking (m : Victron K) : Option BatteryState → Bool × Victron K
  | some battery => (m.cache.battery != battery, { m with cache := { m.cache with battery } })
  | none => (false, m)

theorem updateBattery_eq (m : Victron K) (r : Readings K) :
    m.updateBattery r = do
      let read ← m.readBattery
      let taken := m.taking read.toOption
      return (taken.1, { r with battery := taken.2.cache.battery }, taken.2) := by
  unfold updateBattery
  congr 1
  funext read
  cases read <;> rfl

def readAll : List (Victron K) → Job (List (Option BatteryState))
  | [] => return []
  | m :: ms => do
    let read ← m.readBattery
    return read.toOption :: (← readAll ms)

def takeAll (ms : List (Victron K)) (reads : List (Option BatteryState)) :
    List (Bool × Victron K) :=
  (ms.zip reads).map fun p => p.1.taking p.2

theorem length_takeAll {ms : List (Victron K)} {reads : List (Option BatteryState)}
    (h : reads.length = ms.length) : (takeAll ms reads).length = ms.length := by
  unfold takeAll
  rw [List.length_map, List.length_zip, h, Nat.min_self]

theorem takeAll_append {front behind : List (Victron K)} {f b : List (Option BatteryState)}
    (h : f.length = front.length) :
    takeAll (front ++ behind) (f ++ b) = takeAll front f ++ takeAll behind b := by
  unfold takeAll
  rw [List.zip_append h.symm, List.map_append]

theorem role_takeAll {ms : List (Victron K)} (h : ∀ m ∈ ms, m.setup.role = .battery)
    {reads : List (Option BatteryState)} :
    ∀ m ∈ (takeAll ms reads).map Prod.snd, m.setup.role = .battery := by
  unfold takeAll
  rw [List.map_map]
  intro m' hm'
  obtain ⟨⟨m, read⟩, hmem, rfl⟩ := List.mem_map.1 hm'
  have hrole := h m (List.of_mem_zip hmem).1
  cases read <;> exact hrole

/-- What the last battery keeps, if there is one. -/
def lastKept (otherwise : BatteryState) (taken : List (Bool × Victron K)) : BatteryState :=
  (taken.getLast?.map (·.2.cache.battery)).getD otherwise

theorem lastKept_append (otherwise : BatteryState) (taken taken' : List (Bool × Victron K)) :
    lastKept otherwise (taken ++ taken') = lastKept (lastKept otherwise taken) taken' := by
  unfold lastKept
  rw [List.getLast?_append]
  cases taken'.getLast? <;> rfl

theorem lastKept_cons (otherwise : BatteryState) (x : Bool × Victron K)
    (taken : List (Bool × Victron K)) :
    lastKept otherwise (x :: taken) = lastKept x.2.cache.battery taken :=
  lastKept_append otherwise [x] taken

theorem lastKept_congr (a b : BatteryState) {taken : List (Bool × Victron K)} (h : taken ≠ []) :
    lastKept a taken = lastKept b taken := by
  unfold lastKept
  rw [List.getLast?_eq_some_getLast h]
  rfl

theorem all_readAll (ms : List (Victron K)) :
    (readAll ms).All (fun _ => True) fun reads => reads.length = ms.length := by
  induction ms with
  | nil => exact .done rfl
  | cons m ms ih =>
    exact (All.any m.readBattery).bind fun read _ => ih.bind fun reads hreads =>
      .done (congrArg (· + 1) hreads)

end Meter.Victron

namespace Source

variable [Quantity K]

/-- A poll of batteries reads them all, and merges what they keep then. -/
theorem pollAll_batteries (now : Instant) {ms : List (Victron K)}
    (h : ∀ m ∈ ms, m.setup.role = .battery) (changed : Bool) (r : Readings K) :
    pollAll now (ms.map .victron) changed r = do
      let reads ← readAll ms
      let taken := takeAll ms reads
      return (changed || taken.any Prod.fst, { r with battery := lastKept r.battery taken },
        (taken.map Prod.snd).map .victron) := by
  induction ms generalizing changed r with
  | nil => simp [pollAll, readAll, takeAll, lastKept]
  | cons m ms ih =>
    obtain ⟨hm, hms⟩ := List.forall_mem_cons.1 h
    have hupdate : m.update now r = m.updateBattery r := if_pos hm
    simp only [List.map_cons, pollAll, Meter.update, hupdate, updateBattery_eq,
      LawfulMonad.bind_assoc, pure_bind, ih hms, readAll]
    refine congrArg (m.readBattery >>= ·) (funext fun read => ?_)
    refine congrArg (readAll ms >>= ·) (funext fun reads => ?_)
    have htaken : takeAll (m :: ms) (read.toOption :: reads) =
        m.taking read.toOption :: takeAll ms reads := rfl
    rw [htaken, lastKept_cons, List.any_cons, Bool.or_assoc]
    rfl

/-- The meters of a source of batteries, in its order. -/
structure HasBatteries (s : Source K) (ms : List (Victron K)) : Prop where
  meters : s.meters = ms.map .victron
  role : ∀ m ∈ ms, m.setup.role = .battery

omit [Quantity K] in
theorem HasBatteries.unique {s : Source K} {ms ms' : List (Victron K)} (h : s.HasBatteries ms)
    (h' : s.HasBatteries ms') : ms' = ms :=
  List.map_injective_iff.2 (fun _ _ heq => Meter.victron.inj heq) (h'.meters.symm.trans h.meters)

/-- What a tick makes of what its batteries took over: what it publishes, and the source after
it. -/
def tickTaking (now : Instant) (s : Source K) (taken : List (Bool × Victron K)) :
    Publication K × Source K :=
  let readings : Readings K := { Readings.zero with battery := lastKept .zero taken }
  let tickCount := s.tickCount + 1
  (if publishes s.policy (taken.any Prod.fst) then .ofReadings readings else .nothing,
    { s with
      meters := (taken.map Prod.snd).map .victron
      readings, tickCount, updated := some now, signal := tickCount })

theorem tick_batteries (now : Instant) {s : Source K} {ms : List (Victron K)}
    (h : s.HasBatteries ms) :
    s.tick now = do return s.tickTaking now (takeAll ms (← readAll ms)) := by
  unfold tick
  rw [h.meters, pollAll_batteries now h.role, LawfulMonad.bind_assoc]
  simp only [pure_bind, Bool.false_or]
  rfl

/-- A tick of batteries on any hardware, which may change between any two requests, with what they
read in it: none where a read fails. -/
inductive TickReads (now : Instant) (s : Source K) (site : Site) :
    List (Option BatteryState) → Publication K × Source K → Site → Prop
  | mk {ms : List (Victron K)} {reads : List (Option BatteryState)} {site' : Site}
    (batteries : s.HasBatteries ms) (run : (readAll ms).Runs site reads site') :
    TickReads now s site reads (s.tickTaking now (takeAll ms reads)) site'

/-- Every run of a tick is one. -/
theorem runs_tick_iff {now : Instant} {s : Source K} {ms : List (Victron K)}
    (h : s.HasBatteries ms) {site site' : Site} {x : Publication K × Source K} :
    (s.tick now).Runs site x site' ↔ ∃ reads, s.TickReads now site reads x site' := by
  rw [tick_batteries now h, runs_bind]
  constructor
  · rintro ⟨reads, u, hrun, hend⟩
    obtain ⟨rfl, rfl⟩ := runs_pure.1 hend
    exact ⟨reads, .mk h hrun⟩
  · rintro ⟨reads, ⟨h', hrun⟩⟩
    obtain rfl := h.unique h'
    exact ⟨reads, site', hrun, runs_pure.2 ⟨rfl, rfl⟩⟩

end Source

/-- What the batteries of a source read in a tick, what the tick merged and what it published. -/
structure BatteryTick (K : Type) where
  reads : List (Option BatteryState)
  merged : BatteryState
  published : Publication K

namespace Source

variable [Quantity K]

/-- Ticks of batteries one after the other, at any times and on any hardware. -/
inductive BatteryTicks (s : Source K) : List (BatteryTick K) → Source K → Prop
  | nil : s.BatteryTicks [] s
  | snoc {ts : List (BatteryTick K)} {before after : Source K} {now : Instant}
    {reads : List (Option BatteryState)} {published : Publication K} {site site' : Site}
    (earlier : s.BatteryTicks ts before)
    (tick : before.TickReads now site reads (published, after) site') :
    s.BatteryTicks (ts ++ [⟨reads, after.readings.battery, published⟩]) after

theorem BatteryTicks.eq_self {s after : Source K} (h : s.BatteryTicks [] after) : after = s := by
  generalize hts : ([] : List (BatteryTick K)) = ts at h
  cases h with
  | nil => rfl
  | snoc => simp at hts

theorem batteryTicks_snoc_iff {s after : Source K} {ts : List (BatteryTick K)}
    {t : BatteryTick K} :
    s.BatteryTicks (ts ++ [t]) after ↔
      ∃ before now site site', s.BatteryTicks ts before ∧
        before.TickReads now site t.reads (t.published, after) site' ∧
        t.merged = after.readings.battery := by
  constructor
  · intro h
    generalize hts : ts ++ [t] = all at h
    cases h with
    | nil => simp at hts
    | @snoc ts' before after now reads published site site' earlier tick =>
      obtain ⟨rfl, rfl⟩ := List.append_singleton_inj.1 hts
      exact ⟨before, now, site, site', earlier, tick, rfl⟩
  · rintro ⟨before, now, site, site', earlier, tick, hmerged⟩
    obtain ⟨reads, merged, published⟩ := t
    obtain rfl := hmerged
    exact .snoc earlier tick

/-! ## With and without one of them -/

/-- Two sources with the same batteries, but for one that was never read. -/
structure HasOneMore (s s' : Source K) (front : List (Victron K)) (dead : Victron K)
    (behind : List (Victron K)) : Prop where
  more : s.HasBatteries (front ++ dead :: behind)
  fewer : s'.HasBatteries (front ++ behind)
  policy : s'.policy = s.policy
  unread : dead.cache.battery = .zero

/-- A tick in which some battery reads nothing, and one without that battery in which the others
read the same. -/
structure ReadsLess (i : Nat) (t t' : BatteryTick K) : Prop where
  dead : t.reads[i]? = some none
  others : t'.reads = t.reads.eraseIdx i

omit [Quantity K] in
theorem ReadsLess.split {i : Nat} {t t' : BatteryTick K} (h : ReadsLess i t t') :
    ∃ f b, f.length = i ∧ t.reads = f ++ none :: b ∧ t'.reads = f ++ b := by
  obtain ⟨hi, hnone⟩ := List.getElem?_eq_some_iff.1 h.dead
  refine ⟨t.reads.take i, t.reads.drop (i + 1), List.length_take_of_le (Nat.le_of_lt hi), ?_, ?_⟩
  · rw [← hnone, ← List.drop_eq_getElem_cons hi, List.take_append_drop]
  · rw [h.others, List.eraseIdx_eq_take_drop_succ]

/-- A tick with a battery that was never read, and the tick without it: they are the same unless
that battery is the last one, and then there is nothing to tell of a battery. -/
structure SameUnlessLast (isLast : Prop) (t t' : BatteryTick K) : Prop where
  merged : t.merged = t'.merged ↔ ¬ isLast ∨ t'.merged = .zero
  published : t.published = t'.published ↔ ¬ isLast ∨ t'.published.battery = none
  erased : isLast → t.merged = .zero ∧ t.published.battery = none

omit [Quantity K] in
theorem any_taken (front behind : List (Bool × Victron K)) (dead : Victron K) :
    (front ++ (false, dead) :: behind).any Prod.fst = (front ++ behind).any Prod.fst := by
  simp

theorem ofReadings_battery_zero (r : Readings K) :
    (Publication.ofReadings { r with battery := .zero }).battery = none := by
  have hzero : BatteryState.zero.isZero = true := by decide +kernel
  exact if_pos hzero

theorem ofReadings_eq_iff (r : Readings K) (battery : BatteryState) :
    Publication.ofReadings { r with battery := .zero } = .ofReadings { r with battery } ↔
      (Publication.ofReadings { r with battery }).battery = none := by
  constructor
  · intro h
    rw [← h, ofReadings_battery_zero]
  · intro h
    have hnone := ofReadings_battery_zero r
    unfold Publication.ofReadings at h hnone ⊢
    dsimp only at h hnone ⊢
    rw [h, hnone]

theorem sameUnlessLast {s s' : Source K} (hpolicy : s'.policy = s.policy) {now now' : Instant}
    {front behind : List (Bool × Victron K)} {dead : Victron K}
    (hdead : dead.cache.battery = .zero) {t t' : BatteryTick K}
    (ht : t.published = (s.tickTaking now (front ++ (false, dead) :: behind)).1 ∧
      t.merged = (s.tickTaking now (front ++ (false, dead) :: behind)).2.readings.battery)
    (ht' : t'.published = (s'.tickTaking now' (front ++ behind)).1 ∧
      t'.merged = (s'.tickTaking now' (front ++ behind)).2.readings.battery) :
    SameUnlessLast (behind = []) t t' := by
  obtain ⟨hpublished, hmerged⟩ := ht
  obtain ⟨hpublished', hmerged'⟩ := ht'
  have hkept : lastKept .zero (front ++ (false, dead) :: behind) = lastKept .zero behind := by
    rw [lastKept_append, lastKept_cons, hdead]
  simp only [tickTaking, any_taken, hkept] at hpublished hmerged
  simp only [tickTaking, hpolicy] at hpublished' hmerged'
  by_cases hlast : behind = []
  · subst hlast
    have hnone : lastKept .zero ([] : List (Bool × Victron K)) = .zero := rfl
    rw [hnone] at hpublished hmerged
    refine ⟨?_, ?_, fun _ => ⟨hmerged, ?_⟩⟩
    · rw [hmerged]
      simp [eq_comm]
    · rw [hpublished, hpublished']
      split_ifs
      · rw [ofReadings_eq_iff]
        simp
      · simp [Publication.nothing]
    · rw [hpublished]
      split_ifs
      · exact ofReadings_battery_zero _
      · rfl
  · -- What is behind hides the front in the other source too.
    have hsame : lastKept .zero (front ++ behind) = lastKept .zero behind := by
      rw [lastKept_append]
      exact lastKept_congr _ _ hlast
    rw [hsame] at hpublished' hmerged'
    exact ⟨iff_of_true (hmerged.trans hmerged'.symm) (.inl hlast),
      iff_of_true (hpublished.trans hpublished'.symm) (.inl hlast), fun h => absurd h hlast⟩

theorem TickReads.eq {now : Instant} {s : Source K} {ms : List (Victron K)} {site site' : Site}
    {reads : List (Option BatteryState)} {x : Publication K × Source K}
    (h : s.TickReads now site reads x site') (hms : s.HasBatteries ms) :
    reads.length = ms.length ∧ x = s.tickTaking now (takeAll ms reads) := by
  obtain ⟨hms', hrun⟩ := h
  obtain rfl := hms.unique hms'
  exact ⟨(all_readAll _).runs hrun, rfl⟩

theorem HasOneMore.tick {s s' after after' : Source K} {front : List (Victron K)}
    {dead : Victron K} {behind : List (Victron K)} (h : HasOneMore s s' front dead behind)
    {now now' : Instant} {site site₁ site' site₁' : Site} {t t' : BatteryTick K}
    (hreads : ReadsLess front.length t t')
    (htick : s.TickReads now site t.reads (t.published, after) site₁)
    (htick' : s'.TickReads now' site' t'.reads (t'.published, after') site₁')
    (hmerged : t.merged = after.readings.battery)
    (hmerged' : t'.merged = after'.readings.battery) :
    SameUnlessLast (behind = []) t t' ∧
      ∃ front' behind', front'.length = front.length ∧ (behind' = [] ↔ behind = []) ∧
        HasOneMore after after' front' dead behind' := by
  -- Both ticks read the same in front of the dead battery and the same behind it.
  obtain ⟨f, b, hf, hr, hr'⟩ := hreads.split
  obtain ⟨hlength, hx⟩ := htick.eq h.more
  have hx' := (htick'.eq h.fewer).2
  have hb : b.length = behind.length := by
    rw [hr] at hlength
    simp only [List.length_append, List.length_cons] at hlength
    omega
  have htaken : takeAll (front ++ dead :: behind) t.reads =
      takeAll front f ++ (false, dead) :: takeAll behind b := by
    rw [hr, takeAll_append hf]
    rfl
  have htaken' : takeAll (front ++ behind) t'.reads = takeAll front f ++ takeAll behind b := by
    rw [hr', takeAll_append hf]
  rw [htaken] at hx
  rw [htaken'] at hx'
  obtain ⟨hpublished, rfl⟩ := Prod.mk.inj hx
  obtain ⟨hpublished', rfl⟩ := Prod.mk.inj hx'
  have hlast : takeAll behind b = [] ↔ behind = [] := by
    rw [← List.length_eq_zero_iff, length_takeAll hb, List.length_eq_zero_iff]
  refine ⟨?_, (takeAll front f).map Prod.snd, (takeAll behind b).map Prod.snd, ?_, ?_, ?_⟩
  · rw [← hlast]
    exact sameUnlessLast h.policy h.unread ⟨hpublished, hmerged⟩ ⟨hpublished', hmerged'⟩
  · rw [List.length_map, length_takeAll hf]
  · rw [List.map_eq_nil_iff, hlast]
  · refine ⟨⟨?_, ?_⟩, ⟨?_, ?_⟩, h.policy, h.unread⟩
    · simp
    · have hrole : ∀ m ∈ (takeAll (front ++ dead :: behind) t.reads).map Prod.snd,
          m.setup.role = .battery := role_takeAll h.more.role
      rw [htaken] at hrole
      simpa using hrole
    · simp
    · have hrole : ∀ m ∈ (takeAll (front ++ behind) t'.reads).map Prod.snd,
          m.setup.role = .battery := role_takeAll h.fewer.role
      rw [htaken'] at hrole
      simpa using hrole

theorem HasOneMore.ticks {start start' : Source K} {front : List (Victron K)} {dead : Victron K}
    {behind : List (Victron K)} (h : HasOneMore start start' front dead behind)
    {ps : List (BatteryTick K × BatteryTick K)} {after after' : Source K}
    (hrun : start.BatteryTicks (ps.map Prod.fst) after)
    (hrun' : start'.BatteryTicks (ps.map Prod.snd) after')
    (hreads : ∀ p ∈ ps, ReadsLess front.length p.1 p.2) :
    (∀ p ∈ ps, SameUnlessLast (behind = []) p.1 p.2) ∧
      ∃ front' behind', front'.length = front.length ∧ (behind' = [] ↔ behind = []) ∧
        HasOneMore after after' front' dead behind' := by
  -- The run grows at its end. What carries is that both sources differ by the dead battery only.
  induction ps using List.reverseRecOn generalizing after after' with
  | nil =>
    obtain rfl := hrun.eq_self
    obtain rfl := hrun'.eq_self
    exact ⟨List.forall_mem_nil _, front, behind, rfl, Iff.rfl, h⟩
  | append_singleton ps p ih =>
    rw [List.map_append, List.map_cons, List.map_nil, batteryTicks_snoc_iff] at hrun hrun'
    obtain ⟨before, now, site, site₁, hearlier, htick, hmerged⟩ := hrun
    obtain ⟨before', now', site', site₁', hearlier', htick', hmerged'⟩ := hrun'
    obtain ⟨hps, hp⟩ := List.forall_mem_append.1 hreads
    obtain ⟨hsame, front₁, behind₁, hfront, hbehind, hnow⟩ := ih hearlier hearlier' hps
    have hless : ReadsLess front₁.length p.1 p.2 := hfront ▸ hp p List.mem_cons_self
    obtain ⟨hlast, front₂, behind₂, hfront', hbehind', hnext⟩ :=
      hnow.tick hless htick htick' hmerged hmerged'
    refine ⟨List.forall_mem_append.2 ⟨hsame, fun q hq => ?_⟩, front₂, behind₂,
      hfront'.trans hfront, hbehind'.trans hbehind, hnext⟩
    rw [List.mem_singleton.1 hq, ← hbehind]
    exact hlast

/-- A battery of a GX, as it is found. -/
def IsNew (m : Victron K) : Prop :=
  ∃ (link : Modbus.Link) (setup : Setup) (probed : (q : Request) → q.Answer),
    setup.role = .battery ∧ (probe link setup).outcome probed = .ok m

/-- A battery of which no read succeeds makes no difference to any tick of a source, unless it is
the last of its meters. -/
theorem dead_battery_iff_last {name : String} {policy : PublishPolicy}
    {front : List (Victron K)} {dead : Victron K} {behind : List (Victron K)}
    (hnew : ∀ m ∈ front ++ dead :: behind, IsNew m)
    {ps : List (BatteryTick K × BatteryTick K)} {after after' : Source K}
    (hrun : (Source.new name .battery policy
      ((front ++ dead :: behind).map .victron)).BatteryTicks (ps.map Prod.fst) after)
    (hrun' : (Source.new name .battery policy
      ((front ++ behind).map .victron)).BatteryTicks (ps.map Prod.snd) after')
    (hreads : ∀ p ∈ ps, ReadsLess front.length p.1 p.2) :
    ∀ p ∈ ps, SameUnlessLast (behind = []) p.1 p.2 := by
  have hfresh : ∀ m ∈ front ++ dead :: behind,
      m.setup.role = .battery ∧ m.cache.battery = .zero := by
    intro m hm
    obtain ⟨link, setup, probed, hrole, hfound⟩ := hnew m hm
    obtain ⟨-, rfl, -, -, hcache⟩ := (all_probe_fresh link setup).outcome probed m hfound
    exact ⟨hrole, congrArg Cache.battery hcache⟩
  have hstart : HasOneMore
      (Source.new name .battery policy ((front ++ dead :: behind).map .victron))
      (Source.new name .battery policy ((front ++ behind).map .victron)) front dead behind := by
    refine ⟨⟨rfl, fun m hm => (hfresh m hm).1⟩, ⟨rfl, fun m hm => (hfresh m ?_).1⟩, rfl,
      (hfresh dead (by simp)).2⟩
    grind
  exact (hstart.ticks hrun hrun' hreads).1

/-! ## Two batteries of which one is dead -/

def batteryLink (unit : UInt8) : Modbus.Link := ⟨0, "tcp://gx", unit, 0, encoding, false⟩

def batteryAt (unit : UInt8) : Victron Rat := gx (batteryLink unit) batterySetup

/-- A GX on which only unit 225 answers. -/
def batteryRoom : Site :=
  let registers : Registers := fun address =>
    if 258 ≤ address ∧ address ≤ 266 then some 800 else none
  let bus := { Segment.new with devices := [(225, { Device.new with holding := registers })] }
  { Site.new [("tcp://gx", bus)] [] ⟨fun _ => .timeout, .endOfStream⟩ with
    clients := [.new "tcp://gx" 0] }

/-- The first tick of some batteries in that room. -/
def firstTick (ms : List (Victron Rat)) : BatteryTick Rat :=
  let s : Source Rat := .new "battery" .battery .always (ms.map .victron)
  let ticked := (s.tick ⟨0⟩).run batteryRoom
  ⟨((readAll ms).run batteryRoom).1, ticked.1.2.readings.battery, ticked.1.1⟩

theorem isNew_batteryAt (unit : UInt8) : IsNew (batteryAt unit) :=
  ⟨_, _, gxRound.answer, rfl, outcome_probe_gx (batteryLink unit) (by decide)⟩

theorem batteryTicks_firstTick {ms : List (Victron Rat)}
    (h : ∀ m ∈ ms, m.setup.role = .battery) :
    ∃ after, (Source.new "battery" .battery .always (ms.map .victron)).BatteryTicks
      [firstTick ms] after := by
  let s : Source Rat := .new "battery" .battery .always (ms.map .victron)
  have hms : s.HasBatteries ms := ⟨rfl, h⟩
  have hrun : ((s.tick ⟨0⟩).run batteryRoom).1 =
      s.tickTaking ⟨0⟩ (takeAll ms ((readAll ms).run batteryRoom).1) := by
    rw [tick_batteries ⟨0⟩ hms, run_seq]
    rfl
  have htick : s.TickReads ⟨0⟩ batteryRoom ((readAll ms).run batteryRoom).1
      ((s.tick ⟨0⟩).run batteryRoom).1 ((readAll ms).run batteryRoom).2 := by
    rw [hrun]
    exact .mk hms (runs_run (readAll ms) batteryRoom)
  exact ⟨_, .snoc .nil htick⟩

theorem dead_battery_unnoticed :
    (∀ m ∈ [batteryAt 226, batteryAt 225], IsNew m) ∧
      ReadsLess 0 (firstTick [batteryAt 226, batteryAt 225]) (firstTick [batteryAt 225]) ∧
      (firstTick [batteryAt 226, batteryAt 225]).merged = (firstTick [batteryAt 225]).merged ∧
      (firstTick [batteryAt 226, batteryAt 225]).published =
        (firstTick [batteryAt 225]).published ∧
      (firstTick [batteryAt 225]).published.battery.isSome = true := by
  have hnew : ∀ m ∈ [] ++ batteryAt 226 :: [batteryAt 225], IsNew m := by
    simp [isNew_batteryAt]
  have hreads :
      ReadsLess 0 (firstTick [batteryAt 226, batteryAt 225]) (firstTick [batteryAt 225]) :=
    ⟨rfl, rfl⟩
  have hpairs : ∀ p ∈ [(firstTick [batteryAt 226, batteryAt 225], firstTick [batteryAt 225])],
      ReadsLess 0 p.1 p.2 := by
    simpa using hreads
  have hrole : ∀ ms : List UInt8, ∀ m ∈ ms.map batteryAt, m.setup.role = .battery := by
    simp [batteryAt, gx, batterySetup]
  obtain ⟨after, hrun⟩ := batteryTicks_firstTick (hrole [226, 225])
  obtain ⟨after', hrun'⟩ := batteryTicks_firstTick (hrole [225])
  have hsame : SameUnlessLast ([batteryAt 225] = [])
      (firstTick [batteryAt 226, batteryAt 225]) (firstTick [batteryAt 225]) :=
    dead_battery_iff_last hnew hrun hrun' hpairs _ List.mem_cons_self
  have htold : (firstTick [batteryAt 225]).published.battery.isSome = true := by decide +kernel
  exact ⟨hnew, hreads, hsame.merged.2 (.inl nofun), hsame.published.2 (.inl nofun), htold⟩

theorem dead_battery_erases :
    (∀ m ∈ [batteryAt 225, batteryAt 226], IsNew m) ∧
      ReadsLess 1 (firstTick [batteryAt 225, batteryAt 226]) (firstTick [batteryAt 225]) ∧
      (firstTick [batteryAt 225]).merged.power = 800 ∧
      (firstTick [batteryAt 225]).published.battery.isSome = true ∧
      (firstTick [batteryAt 225, batteryAt 226]).merged.power = 0 ∧
      (firstTick [batteryAt 225, batteryAt 226]).published.isEmpty = true ∧
      (firstTick [batteryAt 225, batteryAt 226]).merged ≠ (firstTick [batteryAt 225]).merged := by
  have hpower : (firstTick [batteryAt 225]).merged.power = 800 := by decide +kernel
  have hnone : (firstTick [batteryAt 225, batteryAt 226]).merged.power = 0 := by decide +kernel
  refine ⟨by simp [isNew_batteryAt], ⟨rfl, rfl⟩, hpower, by decide +kernel, hnone,
    by decide +kernel, fun heq => ?_⟩
  rw [heq, hpower] at hnone
  exact absurd hnone (by decide +kernel)

end Source

end HomeMetering
