import HomeMetering.Proofs.Meter.Moving
import Mathlib.Tactic.Linarith
import Mathlib.Tactic.Ring

/-!
# When counters are read again

A meter reads its counters when its gate opens. The gate knows the minute of the hour at which it
was asked last, and nothing of hours and days: it opens with the minutes of the calendar, except
where whole hours have passed. A meter that is polled at a fixed interval reads its counters for
ever, unless the interval is a whole number of hours.
-/

namespace HomeMetering

open Electricity Modbus Site Site.Job

namespace Instant

/-- Whether one time lies in a later minute than another one, and some whole hours after it. -/
def WholeHoursBefore (a b : Instant) : Prop := a.minutes < b.minutes ∧ 60 ∣ b.minutes - a.minutes

/-- Times at a fixed interval of microseconds. -/
def every (start : Instant) (interval : Nat) (n : Nat) : Instant := start.after (n * interval)

theorem minutes_eq (t : Instant) : t.minutes = t.micros / 60000000 :=
  Int.fdiv_eq_ediv_of_nonneg _ (by decide)

theorem minutes_le {a b : Instant} (h : a.micros ≤ b.micros) : a.minutes ≤ b.minutes := by
  rw [minutes_eq, minutes_eq]
  exact Int.ediv_le_ediv (by decide) h

theorem minuteOfHour_eq_iff (a b : Instant) :
    a.minuteOfHour = b.minuteOfHour ↔ a.minutes % 60 = b.minutes % 60 := by
  show (a.minutes % 60).toNat = (b.minutes % 60).toNat ↔ _
  omega

/-- Of two times the later one is in another minute of the hour just when it is in a later minute,
but for whole hours. -/
theorem minuteOfHour_ne_iff {a b : Instant} (h : a.micros ≤ b.micros) :
    (a.minuteOfHour ≠ b.minuteOfHour ↔ a.minutes < b.minutes) ↔ ¬ a.WholeHoursBefore b := by
  have hle := minutes_le h
  rw [ne_eq, minuteOfHour_eq_iff]
  unfold WholeHoursBefore
  omega

theorem micros_every_succ (start : Instant) (interval n : Nat) :
    (start.every interval (n + 1)).micros = (start.every interval n).micros + interval := by
  show start.micros + ((n + 1 : Nat) : Int) * interval =
    start.micros + (n : Int) * interval + interval
  push_cast
  ring

theorem micros_le_every_succ (start : Instant) (interval n : Nat) :
    (start.every interval n).micros ≤ (start.every interval (n + 1)).micros := by
  rw [micros_every_succ]
  omega

theorem every_every (start : Instant) (interval n k : Nat) :
    (start.every interval n).every interval k = start.every interval (n + k) := by
  refine congrArg Instant.mk ?_
  show start.micros + (n : Int) * interval + (k : Int) * interval =
    start.micros + ((n + k : Nat) : Int) * interval
  push_cast
  ring

theorem minuteOfHour_every_of_dvd {interval : Nat} (h : 3600000000 ∣ interval) (start : Instant)
    (n : Nat) :
    (start.every interval n).minuteOfHour = (start.every interval (n + 1)).minuteOfHour := by
  have hstep := micros_every_succ start interval n
  rw [minuteOfHour_eq_iff, minutes_eq, minutes_eq]
  omega

theorem dvd_of_minuteOfHour_every (start : Instant) {interval : Nat}
    (h : ∀ n, (start.every interval n).minuteOfHour = start.minuteOfHour) :
    3600000000 ∣ interval := by
  let place (n : Nat) : Int := (start.every interval n).micros % 3600000000
  have hstep : ∀ n, place (n + 1) = (place n + interval) % 3600000000 := by
    intro n
    show (start.every interval (n + 1)).micros % 3600000000 = _
    rw [micros_every_succ]
    exact (Int.emod_add_emod _ _ _).symm
  -- Within the hour, all places are in one minute.
  have hminute : ∀ n, place n / 60000000 = place 0 / 60000000 := by
    intro n
    have hn := (minuteOfHour_eq_iff _ _).1 ((h n).trans (h 0).symm)
    rw [minutes_eq, minutes_eq] at hn
    show (start.every interval n).micros % 3600000000 / 60000000 =
      (start.every interval 0).micros % 3600000000 / 60000000
    omega
  -- So the place moves by the same few seconds at every step, and cannot do so for ever.
  have hmoves : ∀ n, place (n + 1) - place n = place 1 - place 0 := by
    intro n
    have hn := hminute n
    have hnext := hminute (n + 1)
    have hone := hminute 1
    have hstepn := hstep n
    have hstep0 : place 1 = _ := hstep 0
    omega
  have hplace : ∀ n : Nat, place n = place 0 + n * (place 1 - place 0) := by
    intro n
    induction n with
    | zero => simp
    | succ n ih =>
      have hn := hmoves n
      push_cast
      linarith
  have hfar := hplace 60000000
  have hsame := hminute 60000000
  have hone := hminute 1
  have hstep0 : place 1 = _ := hstep 0
  omega

end Instant

namespace Meter

namespace MinuteGate

variable {times : Nat → Instant} {n m : Nat}

/-- A fresh gate that was asked at the first `n` of some times. -/
def after (times : Nat → Instant) : Nat → MinuteGate
  | 0 => fresh
  | n + 1 => ((after times n).due (times n)).2

/-- Whether a fresh gate that is asked at some times opens at one of them. -/
def opens (times : Nat → Instant) (n : Nat) : Bool := ((after times n).due (times n)).1

/-- The gate opened at one time and at none between that one and another. -/
structure IsLastOpening (times : Nat → Instant) (n m : Nat) : Prop where
  before : m < n
  opened : opens times m = true
  since : ∀ k, m < k → k < n → opens times k = false

/-- The rule of the calendar: counters are due at first, and in every later minute than the one in
which they were due before. -/
def DueByCalendar (times : Nat → Instant) (n : Nat) : Prop :=
  ∀ m, IsLastOpening times n m → (times m).minutes < (times n).minutes

theorem fst_due (g : MinuteGate) (now : Instant) :
    (g.due now).1 = true ↔ g.last ≠ some now.minuteOfHour := by
  unfold due
  split_ifs with h <;> simp [h]

theorem snd_due (g : MinuteGate) (now : Instant) : (g.due now).2 = ⟨some now.minuteOfHour⟩ := by
  unfold due
  split_ifs with h
  · exact congrArg MinuteGate.mk h
  · rfl

theorem opens_zero (times : Nat → Instant) : opens times 0 = true := rfl

theorem opens_succ (times : Nat → Instant) (n : Nat) :
    opens times (n + 1) = true ↔ (times n).minuteOfHour ≠ (times (n + 1)).minuteOfHour := by
  unfold opens after
  rw [snd_due, fst_due, ne_eq, Option.some.injEq]

theorem exists_lastOpening (times : Nat → Instant) (n : Nat) :
    ∃ m, IsLastOpening times (n + 1) m := by
  induction n with
  | zero => exact ⟨0, Nat.one_pos, rfl, fun k hk hk' => by omega⟩
  | succ n ih =>
    cases hopen : opens times (n + 1) with
    | true => exact ⟨n + 1, Nat.lt_succ_self _, hopen, fun k hk hk' => by omega⟩
    | false =>
      obtain ⟨m, hm⟩ := ih
      refine ⟨m, Nat.lt_succ_of_lt hm.before, hm.opened, fun k hk hk' => ?_⟩
      rcases Nat.lt_succ_iff_lt_or_eq.1 hk' with hlt | rfl
      · exact hm.since k hk hlt
      · exact hopen

theorem IsLastOpening.unique {m' : Nat} (h : IsLastOpening times n m)
    (h' : IsLastOpening times n m') : m = m' := by
  rcases Nat.lt_trichotomy m m' with hlt | heq | hlt
  · exact absurd h'.opened (by rw [h.since m' hlt h'.before]; decide)
  · exact heq
  · exact absurd h.opened (by rw [h'.since m hlt h.before]; decide)

theorem IsLastOpening.minuteOfHour_eq (h : IsLastOpening times n m) {k : Nat} (hk : m ≤ k)
    (hkn : k < n) : (times m).minuteOfHour = (times k).minuteOfHour := by
  induction hk with
  | refl => rfl
  | @step k hk ih =>
    have hshut := h.since (k + 1) (Nat.lt_succ_of_le hk) hkn
    refine (ih (Nat.lt_of_succ_lt hkn)).trans ?_
    by_contra hne
    rw [(opens_succ times k).2 hne] at hshut
    cases hshut

theorem IsLastOpening.opens_iff (h : IsLastOpening times n m) :
    opens times n = true ↔ (times m).minuteOfHour ≠ (times n).minuteOfHour := by
  obtain ⟨k, rfl⟩ := Nat.exists_eq_succ_of_ne_zero (Nat.ne_zero_of_lt h.before)
  rw [opens_succ, h.minuteOfHour_eq (Nat.le_of_lt_succ h.before) (Nat.lt_succ_self k)]

theorem opens_every_iff (start : Instant) (interval : Nat) :
    (∀ n, ∃ k, n ≤ k ∧ opens (start.every interval) k = true) ↔ ¬ 3600000000 ∣ interval := by
  constructor
  · intro h hdvd
    obtain ⟨k, hk, hopen⟩ := h 1
    obtain ⟨k, rfl⟩ := Nat.exists_eq_succ_of_ne_zero (Nat.ne_zero_of_lt hk)
    exact (opens_succ _ k).1 hopen (Instant.minuteOfHour_every_of_dvd hdvd start k)
  · intro hdvd
    by_contra h
    push Not at h
    obtain ⟨n, hn⟩ := h
    refine hdvd (Instant.dvd_of_minuteOfHour_every (start.every interval n) fun k => ?_)
    -- The gate stays shut from here on, so the minute of the hour never changes.
    rw [Instant.every_every]
    induction k with
    | zero => rfl
    | succ k ih =>
      refine Eq.trans (Eq.symm ?_) ih
      by_contra hne
      exact hn (n + k + 1) (by omega) ((opens_succ _ (n + k)).2 hne)

/-- The gate goes by the calendar just as far as no whole hours have passed since it opened last. -/
theorem opens_iff_dueByCalendar_iff (hlater : ∀ n, (times n).micros ≤ (times (n + 1)).micros)
    (n : Nat) :
    (opens times n = true ↔ DueByCalendar times n) ↔
      ∀ m, IsLastOpening times n m → ¬ (times m).WholeHoursBefore (times n) := by
  cases n with
  | zero =>
    have hnone : ∀ m, ¬ IsLastOpening times 0 m := fun m hm => Nat.not_lt_zero m hm.before
    exact iff_of_true (iff_of_true (opens_zero times) fun m hm => absurd hm (hnone m))
      fun m hm => absurd hm (hnone m)
  | succ n =>
    obtain ⟨m, hm⟩ := exists_lastOpening times n
    have hle : (times m).micros ≤ (times (n + 1)).micros :=
      monotone_nat_of_le_succ (f := fun n => (times n).micros) hlater hm.before.le
    have hdue : DueByCalendar times (n + 1) ↔ (times m).minutes < (times (n + 1)).minutes :=
      ⟨fun h => h m hm, fun h m' hm' => hm.unique hm' ▸ h⟩
    rw [hm.opens_iff, hdue, Instant.minuteOfHour_ne_iff hle]
    exact ⟨fun h m' hm' => hm.unique hm' ▸ h, fun h => h m hm⟩

end MinuteGate

/-! ## Meters -/

variable {K : Type} [Quantity K] {m : Meter K}

/-- A meter that reads counters on a bus. -/
def PollsCounters {K : Type} : Meter K → Prop
  | abb m => m.setup.has .usage
  | carloGavazzi m => m.setup.has .usage
  | victron m => m.setup.has .usage ∧ m.setup.role ≠ .battery
  | _ => False

/-- The counters that a round gives to a meter that asks for them. -/
def countersIn (m : Meter K) (c : Round) : Option (Usage K) :=
  match m with
  | abb m => (m.readTotals.outcome c.answer).toOption
  | carloGavazzi m => (m.readTotals.outcome c.answer).toOption
  | victron m => ((m.identified.outcome c.answer).readTotals.outcome c.answer).toOption
  | _ => none

/-- A meter asks for its counters in a round. -/
def CountersDue (m : Meter K) (c : Round) : Prop := (m.kept.gate.due c.now).1 = true

/-- What a round does to the counters of a meter and to its gate. -/
structure RoundKeeps (m : Meter K) (c : Round) (m' : Meter K) : Prop where
  pollsCounters : m'.PollsCounters
  gate : m'.kept.gate = (m.kept.gate.due c.now).2
  due : m.CountersDue c → m'.kept.usage = (m.countersIn c).getD m.kept.usage
  notDue : ¬ m.CountersDue c → m'.kept.usage = m.kept.usage

theorem roundKeeps_of_poll {setup : Setup} {kept : Cache K} {c : Round} {m' : Meter K}
    (instant : Job (Except BusError State)) {totals : Job (Except BusError (Usage K))}
    (hhas : setup.has .usage) (hm : m.kept = kept) (hm' : m'.PollsCounters)
    (hcounters : m.countersIn c = (totals.outcome c.answer).toOption)
    (hkept : m'.kept = ((poll setup c.now kept instant totals).outcome c.answer).2) :
    m.RoundKeeps c m' := by
  rw [outcome_poll] at hkept
  simp only [hhas, if_true] at hkept
  have hdue : m.CountersDue c ↔ kept.gate.last ≠ some c.now.minuteOfHour := by
    unfold CountersDue
    rw [hm, MinuteGate.fst_due]
  refine ⟨hm', ?_, fun h => ?_, fun h => ?_⟩
  · rw [hkept, MinuteGate.snd_due]
  · rw [hkept, hcounters, hm]
    exact if_neg (hdue.1 h)
  · rw [hkept, hm]
    exact if_pos (Decidable.not_not.1 (mt hdue.2 h))

theorem roundKeeps_after (hm : m.PollsCounters) (c : Round) : m.RoundKeeps c (m.after [c]) := by
  cases m with
  | abb m =>
    have hafter : (abb m).after [c] =
        abb { m with cache :=
          ((poll m.setup c.now m.cache m.readInstant m.readTotals).outcome c.answer).2 } := by
      show ((update c.now (abb m) .zero).outcome c.answer).2.2 = _
      rw [update, Abb.update, outcome_seq, outcome_seq]
      rfl
    rw [hafter]
    exact roundKeeps_of_poll m.readInstant hm rfl hm rfl rfl
  | carloGavazzi m =>
    have hafter : (carloGavazzi m).after [c] =
        carloGavazzi { m with cache :=
          ((poll m.setup c.now m.cache m.readInstant m.readTotals).outcome c.answer).2 } := by
      show ((update c.now (carloGavazzi m) .zero).outcome c.answer).2.2 = _
      rw [update, CarloGavazzi.update, outcome_seq, outcome_seq]
      rfl
    rw [hafter]
    exact roundKeeps_of_poll m.readInstant hm rfl hm rfl rfl
  | victron m =>
    obtain ⟨hhas, hrole⟩ := hm
    let m' := m.identified.outcome c.answer
    obtain ⟨-, hsetup, hcache⟩ := m.identified_keeps c
    have hafter : (victron m).after [c] =
        victron { m' with
          cache :=
            ((poll m'.setup c.now m'.cache m'.readInstant m'.readTotals).outcome c.answer).2 } := by
      show ((update c.now (victron m) .zero).outcome c.answer).2.2 = _
      rw [update, outcome_seq, ← Victron.polled, Victron.polled_eq hrole]
      rfl
    have hsetup' : m'.setup = m.setup := hsetup
    rw [hafter]
    refine roundKeeps_of_poll m'.readInstant (hsetup' ▸ hhas) hcache.symm ?_ rfl rfl
    exact ⟨hsetup' ▸ hhas, hsetup' ▸ hrole⟩
  | dsmr m | playback m => exact hm.elim

def polledBy (m : Meter K) (polls : Nat → Round) (n : Nat) : Meter K :=
  m.after ((List.range n).map polls)

theorem polledBy_succ (m : Meter K) (polls : Nat → Round) (n : Nat) :
    m.polledBy polls (n + 1) = (m.polledBy polls n).after [polls n] := by
  unfold polledBy after
  rw [List.range_succ, List.map_append, List.foldl_append]
  rfl

section

variable (hm : m.PollsCounters) (polls : Nat → Round)

include hm

theorem pollsCounters_polledBy (n : Nat) : (m.polledBy polls n).PollsCounters := by
  induction n with
  | zero => exact hm
  | succ n ih =>
    rw [polledBy_succ]
    exact (roundKeeps_after ih (polls n)).pollsCounters

theorem roundKeeps_polledBy (n : Nat) :
    (m.polledBy polls n).RoundKeeps (polls n) (m.polledBy polls (n + 1)) := by
  rw [polledBy_succ]
  exact roundKeeps_after (pollsCounters_polledBy hm polls n) (polls n)

theorem gate_polledBy (hfresh : m.kept.gate = .fresh) (n : Nat) :
    (m.polledBy polls n).kept.gate = MinuteGate.after (fun n => (polls n).now) n := by
  induction n with
  | zero => exact hfresh
  | succ n ih => rw [(roundKeeps_polledBy hm polls n).gate, ih, MinuteGate.after]

theorem countersDue_polledBy_iff (hfresh : m.kept.gate = .fresh) (n : Nat) :
    (m.polledBy polls n).CountersDue (polls n) ↔
      MinuteGate.opens (fun n => (polls n).now) n = true := by
  unfold CountersDue MinuteGate.opens
  rw [gate_polledBy hm polls hfresh]

theorem usage_polledBy_of_dvd (hfresh : m.kept.gate = .fresh) {start : Instant} {interval : Nat}
    (hnow : ∀ n, (polls n).now = start.every interval n) (hdvd : 3600000000 ∣ interval) (n : Nat) :
    (m.polledBy polls (n + 1)).kept.usage = (m.polledBy polls 1).kept.usage := by
  induction n with
  | zero => rfl
  | succ n ih =>
    refine ((roundKeeps_polledBy hm polls (n + 1)).notDue fun hdue => ?_).trans ih
    rw [countersDue_polledBy_iff hm polls hfresh, MinuteGate.opens_succ, hnow, hnow] at hdue
    exact hdue (Instant.minuteOfHour_every_of_dvd hdvd start n)

end

/-- When counters are due: with the minutes of the calendar, unless whole hours have passed since
they were due before; and for a meter at a fixed interval again and again, unless the interval is
one of whole hours, which leaves the meter with the counters of its first poll. -/
theorem due_by_calendar_iff {times : Nat → Instant}
    (hlater : ∀ n, (times n).micros ≤ (times (n + 1)).micros) {m : Meter K} (hm : m.PollsCounters)
    (hfresh : m.kept.gate = .fresh) (polls : Nat → Round) {start : Instant} {interval : Nat}
    (hnow : ∀ n, (polls n).now = start.every interval n) :
    (∀ n, (MinuteGate.opens times n = true ↔ MinuteGate.DueByCalendar times n) ↔
      ∀ k, MinuteGate.IsLastOpening times n k → ¬ (times k).WholeHoursBefore (times n)) ∧
    ((∀ n, ∃ k, n ≤ k ∧ (m.polledBy polls k).CountersDue (polls k)) ↔ ¬ 3600000000 ∣ interval) ∧
    (∀ k, (m.polledBy polls k).CountersDue (polls k) →
      (m.polledBy polls (k + 1)).kept.usage =
        ((m.polledBy polls k).countersIn (polls k)).getD (m.polledBy polls k).kept.usage) ∧
    (3600000000 ∣ interval →
      ∀ n, (m.polledBy polls (n + 1)).kept.usage = (m.polledBy polls 1).kept.usage) := by
  have htimes : (fun n => (polls n).now) = start.every interval := funext hnow
  refine ⟨MinuteGate.opens_iff_dueByCalendar_iff hlater, ?_,
    fun k => (roundKeeps_polledBy hm polls k).due, usage_polledBy_of_dvd hm polls hfresh hnow⟩
  rw [← MinuteGate.opens_every_iff start interval]
  simp only [countersDue_polledBy_iff hm polls hfresh, htimes]

/-- An analyzer that is polled twice a minute. -/
def halfMinutes (n : Nat) : Round :=
  { roundOn analyzerBus 0 with now := Instant.every ⟨0⟩ 30000000 n }

/-- Every other poll of an analyzer that is polled twice a minute reads its counters. -/
theorem halfMinutes_due :
    let times := Instant.every ⟨0⟩ 30000000
    let m := carloGavazzi analyzer
    MinuteGate.opens times 1 = false ∧ MinuteGate.opens times 2 = true ∧
      (MinuteGate.opens times 2 = true ↔ MinuteGate.DueByCalendar times 2) ∧
      ∀ n, ∃ k, n ≤ k ∧ (m.polledBy halfMinutes k).CountersDue (halfMinutes k) := by
  intro times m
  have hshut : MinuteGate.opens times 1 = false := by decide +kernel
  have hlater : ∀ n, (times n).micros ≤ (times (n + 1)).micros :=
    Instant.micros_le_every_succ ⟨0⟩ 30000000
  obtain ⟨hcalendar, hagain, -⟩ := due_by_calendar_iff hlater (m := m) rfl rfl halfMinutes
    fun n => rfl
  refine ⟨hshut, by decide +kernel, (hcalendar 2).2 fun k hk => ?_, hagain.2 (by decide)⟩
  match k, hk with
  | 0, _ => exact fun h => absurd h.2 (by decide +kernel)
  | 1, hk => exact absurd hk.opened (by rw [hshut]; decide)
  | k + 2, hk => exact absurd hk.before (by omega)

/-- Polls an hour apart: the second one is due by the calendar, and the gate stays shut. -/
theorem hourly_polls_refused :
    let times := Instant.every ⟨0⟩ 3600000000
    (∀ n, (times n).micros ≤ (times (n + 1)).micros) ∧ MinuteGate.IsLastOpening times 1 0 ∧
      MinuteGate.DueByCalendar times 1 ∧ MinuteGate.opens times 1 = false := by
  intro times
  have hlast : MinuteGate.IsLastOpening times 1 0 :=
    ⟨Nat.one_pos, rfl, fun k hk hk' => absurd hk (by omega)⟩
  refine ⟨Instant.micros_le_every_succ ⟨0⟩ 3600000000, hlast, fun m hm => ?_, by decide +kernel⟩
  obtain rfl := hlast.unique hm
  decide +kernel

end Meter

end HomeMetering
