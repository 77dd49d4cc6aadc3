import HomeMetering.Proofs.Decimal.Numbers
import HomeMetering.Proofs.Quantity
import HomeMetering.Proofs.Site.Jobs
import HomeMetering.Source
import Mathlib.Algebra.Order.BigOperators.Group.List

/-!
# What a tick publishes

A source that always publishes tells of everything that a tick read and that is not zero. Counters
are the exception: they are weighed by their totals, so lines that cancel each other out are kept
back where no instant value goes with them.
-/

namespace HomeMetering

open Electricity Site Site.Job

/-! ## Values that are not zero -/

namespace Electricity

/-- Everything that a state stores. -/
def State.values (s : State) : List Float32 :=
  s.current.toList ++ s.power.toList ++ s.voltage.toList

theorem State.isZero_iff {s : State} : s.isZero = true ↔ ∀ x ∈ s.values, (x == 0.0) = true :=
  List.all_eq_true

namespace Usage

variable {K : Type} [Quantity K]

/-- Everything that counters store: the lines, and the totals that were set. -/
def values (u : Usage K) : List K :=
  u.consumed.toList ++ u.provided.toList ++ [u.setConsumed, u.setProvided]

/-- Counters of lines that add up to nothing in both directions, although some of them show
something. -/
structure Cancels (u : Usage K) : Prop where
  setConsumed : Quantity.isZero u.setConsumed = true
  setProvided : Quantity.isZero u.setProvided = true
  consumed : Quantity.isZero (Quantity.total u.consumed.toList) = true
  provided : Quantity.isZero (Quantity.total u.provided.toList) = true
  line : ∃ x ∈ u.consumed.toList ++ u.provided.toList, Quantity.isZero x = false

theorem isZero_totalOr_iff (set : K) (lines : PerLine K) :
    Quantity.isZero (totalOr set lines) = true ↔
      Quantity.isZero set = true ∧ Quantity.isZero (Quantity.total lines.toList) = true := by
  unfold totalOr
  split
  · simp_all
  · simp_all

theorem isZero_iff_totals {u : Usage K} :
    u.isZero = true ↔
      (Quantity.isZero u.setConsumed = true ∧
          Quantity.isZero (Quantity.total u.consumed.toList) = true) ∧
        Quantity.isZero u.setProvided = true ∧
          Quantity.isZero (Quantity.total u.provided.toList) = true := by
  unfold isZero totalConsumed totalProvided
  rw [Bool.and_eq_true, isZero_totalOr_iff, isZero_totalOr_iff]

theorem Cancels.isZero {u : Usage K} (h : u.Cancels) : u.isZero = true :=
  isZero_iff_totals.2 ⟨⟨h.setConsumed, h.consumed⟩, h.setProvided, h.provided⟩

theorem cancels_of_isZero {u : Usage K} (h : u.isZero = true)
    (hvalue : ∃ x ∈ u.values, Quantity.isZero x = false) : u.Cancels := by
  obtain ⟨⟨hset, htotal⟩, hset', htotal'⟩ := isZero_iff_totals.1 h
  refine ⟨hset, hset', htotal, htotal', ?_⟩
  obtain ⟨x, hx, hnot⟩ := hvalue
  rcases List.mem_append.1 hx with hline | htotals
  · exact ⟨x, hline, hnot⟩
  · -- A total that was set decides on its own, so the value is one of a line.
    rcases List.mem_pair.1 htotals with rfl | rfl
    · rw [hset] at hnot
      cases hnot
    · rw [hset'] at hnot
      cases hnot

theorem isZero_of_values {u : Usage Float} (h : ∀ x ∈ u.values, Quantity.isZero x = true) :
    u.isZero = true := by
  simp only [values, List.forall_mem_append] at h
  obtain ⟨⟨hconsumed, hprovided⟩, hset⟩ := h
  refine isZero_iff_totals.2 ⟨⟨?_, ?_⟩, ?_, ?_⟩
  · exact hset _ (by simp)
  · exact Quantity.isZero_total hconsumed
  · exact hset _ (by simp)
  · exact Quantity.isZero_total hprovided

theorem not_cancels_of_nonneg {u : Usage Rat}
    (h : ∀ x ∈ u.consumed.toList ++ u.provided.toList, 0 ≤ x) : ¬ u.Cancels := by
  intro hcancels
  obtain ⟨x, hx, hnot⟩ := hcancels.line
  have hzero : ∀ l : List Rat, (∀ y ∈ l, 0 ≤ y) → Quantity.isZero (Quantity.total l) = true →
      x ∈ l → x = 0 := by
    intro l hl htotal hmem
    rw [Quantity.rat_isZero, Quantity.rat_total] at htotal
    exact List.all_zero_of_le_zero_le_of_sum_eq_zero hl htotal hmem
  rw [List.forall_mem_append] at h
  have hx0 : x = 0 := by
    rcases List.mem_append.1 hx with hconsumed | hprovided
    · exact hzero _ h.1 hcancels.consumed hconsumed
    · exact hzero _ h.2 hcancels.provided hprovided
  rw [(Quantity.rat_isZero x).2 hx0] at hnot
  cases hnot

end Usage

end Electricity

/-! ## Events -/

namespace Source

/-- An event of electricity is published just when some value of the state or of the counters is not
zero. -/
def TellsElectricity (after : Source Float) (published : Publication Float) : Prop :=
  published.electricity.isSome = true ↔
    (∃ x ∈ after.readings.state.values, (x == 0.0) = false) ∨
      ∃ x ∈ after.readings.usage.values, Quantity.isZero x = false

/-- What else a tick publishes, and with which values. -/
structure Tells (now : Instant) (after : Source Float) (published : Publication Float) : Prop where
  battery : published.battery.isSome = true ↔
    ∃ x ∈ after.readings.battery.toList, (x == 0.0) = false
  gas : published.gas.isSome = true ↔ (after.readings.gas.consumed == 0.0) = false
  water : published.water.isSome = true ↔ (after.readings.water.consumed == 0.0) = false
  /-- Every event carries what the source keeps of the tick. -/
  values : published =
    { electricity := published.electricity.map fun _ =>
        ⟨after.readings.state, after.readings.usage⟩
      battery := published.battery.map fun _ => after.readings.battery
      gas := published.gas.map fun _ => after.readings.gas
      water := published.water.map fun _ => after.readings.water }
  /-- No family has two events. -/
  families : ((published.occurrences now after.name after.role).map Occurrence.family).Nodup
  /-- The tick says that it published something just when there is an event. -/
  isEmpty : published.isEmpty = false ↔ published.occurrences now after.name after.role ≠ []

end Source

namespace Publication

theorem isSome_unless {α : Type} (zero : Bool) (x : α) :
    (if zero then none else some x).isSome = true ↔ zero = false := by
  cases zero <;> simp

variable (p : Publication Float) (now : Instant) (source : String) (role : Role)

theorem families_occurrences :
    (p.occurrences now source role).map Occurrence.family =
      (p.electricity.map fun _ => Family.electricity).toList ++
        (p.battery.map fun _ => Family.battery).toList ++
        (p.gas.map fun _ => Family.gas).toList ++ (p.water.map fun _ => Family.water).toList := by
  obtain ⟨electricity, battery, gas, water⟩ := p
  cases electricity <;> cases battery <;> cases gas <;> cases water <;> rfl

theorem nodup_families : ((p.occurrences now source role).map Occurrence.family).Nodup := by
  rw [families_occurrences]
  obtain ⟨electricity, battery, gas, water⟩ := p
  cases electricity <;> cases battery <;> cases gas <;> cases water <;> simp

theorem isEmpty_eq_false_iff :
    p.isEmpty = false ↔ p.occurrences now source role ≠ [] := by
  obtain ⟨electricity, battery, gas, water⟩ := p
  cases electricity <;> cases battery <;> cases gas <;> cases water <;>
    simp [isEmpty, occurrences]

end Publication

namespace Source

theorem tells_of_readings {now : Instant} {after : Source Float} {published : Publication Float}
    (h : published = .ofReadings after.readings) : after.Tells now published := by
  subst h
  refine ⟨?_, ?_, ?_, ?_, Publication.nodup_families .., Publication.isEmpty_eq_false_iff ..⟩
  · simp [Publication.ofReadings, BatteryState.isZero]
  · exact Publication.isSome_unless _ _
  · exact Publication.isSome_unless _ _
  · unfold Publication.ofReadings
    congr 1 <;> split <;> rfl

theorem tellsElectricity_of_readings {after : Source Float} {published : Publication Float}
    (h : published = .ofReadings after.readings) :
    after.TellsElectricity published ↔
      ¬ (after.readings.state.isZero = true ∧ after.readings.usage.Cancels) := by
  have hsome : published.electricity.isSome = true ↔
      ¬ (after.readings.state.isZero = true ∧ after.readings.usage.isZero = true) := by
    simp [h, Publication.ofReadings]
  have hstate : (∃ x ∈ after.readings.state.values, (x == 0.0) = false) ↔
      ¬ after.readings.state.isZero = true := by
    simp [State.isZero_iff]
  unfold TellsElectricity
  rw [hsome, hstate]
  constructor
  · rintro htells ⟨hzero, hcancels⟩
    obtain ⟨x, hx, hnot⟩ := hcancels.line
    refine htells.2 (Or.inr ⟨x, ?_, hnot⟩) ⟨hzero, hcancels.isZero⟩
    exact List.mem_append_left _ hx
  · intro hkept
    constructor
    · intro hnot
      by_contra hnone
      obtain ⟨hzero, hvalues⟩ := not_or.1 hnone
      refine hnot ⟨not_not.1 hzero, Usage.isZero_of_values ?_⟩
      simpa using hvalues
    · rintro (hstate | hvalue) ⟨hzero, husage⟩
      · exact hstate hzero
      · exact hkept ⟨hzero, Usage.cancels_of_isZero husage hvalue⟩

theorem published_of_tick {s after : Source Float} (hpolicy : s.policy = .always) {now : Instant}
    {published : Publication Float} {site site' : Site}
    (h : (s.tick now).Runs site (published, after) site') :
    published = .ofReadings after.readings := by
  obtain ⟨⟨changed, readings, meters⟩, u, -, h⟩ := runs_bind.1 h
  obtain ⟨rfl, rfl⟩ := Prod.mk.inj (runs_pure.1 h).1
  simp [publishes, hpolicy]

/-- A tick of a source that always publishes tells of batteries, gas and water that are not zero,
with what it read. So it does of electricity, if and only if the counters do not cancel out while
all instant values are zero. -/
theorem tellsElectricity_iff {s after : Source Float} (hpolicy : s.policy = .always)
    {now : Instant} {published : Publication Float} {site site' : Site}
    (h : (s.tick now).Runs site (published, after) site') :
    after.Tells now published ∧
      (after.TellsElectricity published ↔
        ¬ (after.readings.state.isZero = true ∧ after.readings.usage.Cancels)) := by
  have hpublished := published_of_tick hpolicy h
  exact ⟨tells_of_readings hpublished, tellsElectricity_of_readings hpublished⟩

end Source

/-! ## Lines in opposite directions -/

/-- An analyzer that counts on two lines. -/
def countingAnalyzer : Meter.CarloGavazzi Float :=
  { link := ⟨0, "tcp://a", 1, 0, Meter.CarloGavazzi.encoding, false⟩
    setup := ⟨.grid, [0, 1], [.usage], 1000⟩
    family := .em3xx, modelId := 341, serial := "", cache := .empty }

/-- Counters of 1000 kWh on the first line, and of what two registers say on the second one. -/
def countingRegisters (low high : UInt16) : Registers := fun address =>
  if address = 0x40 then some 10000
  else if address = 0x42 then some low
  else if address = 0x43 then some high
  else if 0x34 ≤ address ∧ address < 0x50 then some 0
  else none

def countingSite (low high : UInt16) : Site :=
  let bus := { Segment.new with
    devices := [(1, { Device.new with holding := countingRegisters low high })] }
  { Site.new [("tcp://a", bus)] [] ⟨fun _ => .timeout, .endOfStream⟩ with
    clients := [.new "tcp://a" 0] }

def countingSource : Source Float :=
  .new "grid" .grid .always [.carloGavazzi countingAnalyzer]

theorem consuming_lines_told :
    let tick := (countingSource.tick ⟨0⟩).run (countingSite 10000 0)
    countingSource.policy = .always ∧ tick.1.1.electricity.isSome = true ∧
      tick.1.2.TellsElectricity tick.1.1 := by
  intro tick
  have hruns := runs_run (countingSource.tick ⟨0⟩) (countingSite 10000 0)
  have htells := (Source.tellsElectricity_iff rfl hruns).2
  have hcancels : ¬ tick.1.2.readings.usage.Cancels :=
    fun h => absurd h.consumed (by decide +kernel)
  exact ⟨rfl, by decide +kernel, htells.2 fun h => hcancels h.2⟩

/-- A line of 1000 kWh and one of -1000 kWh are read, and kept back. -/
theorem opposite_lines_kept_back :
    let tick := (countingSource.tick ⟨0⟩).run (countingSite 55536 65535)
    countingSource.policy = .always ∧ tick.1.2.readings.usage.consumed.toList = [1000, -1000, 0] ∧
      tick.1.1.isEmpty = true ∧ ¬ tick.1.2.TellsElectricity tick.1.1 := by
  intro tick
  have hread : tick.1.2.readings.usage.consumed.toList = [1000, -1000, 0] := by decide +kernel
  have hnothing : tick.1.1.electricity.isSome = false := by decide +kernel
  refine ⟨rfl, hread, by decide +kernel, ?_⟩
  intro htells
  have hevent : tick.1.1.electricity.isSome = true := by
    refine htells.2 (Or.inr ⟨1000, ?_, by decide +kernel⟩)
    unfold Usage.values
    simp [hread]
  rw [hnothing] at hevent
  cases hevent

end HomeMetering
