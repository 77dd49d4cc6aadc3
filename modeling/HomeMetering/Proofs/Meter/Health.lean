import HomeMetering.Proofs.Decimal.Numbers
import HomeMetering.Proofs.Meter.Asking
import HomeMetering.Proofs.Meter.PhaseCount

/-!
# The values of a battery

A battery answers two blocks: its state of health stands in a register of its own, which is asked
for after the other values came. What a poll reads replaces what is kept as a whole, so a state of
health that was not read is not kept either.
-/

namespace HomeMetering

open Decimal.Binary in
theorem BatteryState.beq_self {b : BatteryState} (h : ∀ x ∈ b.toList, x.isNaN = false) :
    (b == b) = true := by
  obtain ⟨current, power, voltage, charge, health⟩ := b
  simp only [toList, List.forall_mem_cons, List.not_mem_nil, false_imp_iff, forall_true_iff,
    and_true] at h
  obtain ⟨hcurrent, hpower, hvoltage, hcharge, hhealth⟩ := h
  show (current == current && (power == power && (voltage == voltage &&
    (charge == charge && health == health)))) = true
  simp only [beq_self_of_isNaN hcurrent, beq_self_of_isNaN hpower, beq_self_of_isNaN hvoltage,
    beq_self_of_isNaN hcharge, beq_self_of_isNaN hhealth, Bool.and_self]

namespace Meter.Victron

open Decimal.Binary Modbus Site Site.Job

/-- The state of health in the registers of its block. -/
def healthOf (e : Encoding) (registers : List UInt16) : Float32 :=
  singleOfDouble ((datum16 (.unsigned 10) 0).read e registers)

theorem isNaN_datum16 (e : Encoding) (index : Nat) (registers : List UInt16) :
    (singleOfDouble ((datum16 (.signed 1) index).read e registers)).isNaN = false ∧
      (singleOfDouble ((datum16 (.signed 10) index).read e registers)).isNaN = false ∧
      (singleOfDouble ((datum16 (.unsigned 10) index).read e registers)).isNaN = false ∧
      (singleOfDouble ((datum16 (.unsigned 100) index).read e registers)).isNaN = false := by
  refine ⟨?_, ?_, ?_, ?_⟩
  · exact isNaN_singleOfDouble (isNaN_read (n := 1) rfl rfl rfl e registers)
  · exact isNaN_singleOfDouble (isNaN_read (n := 10) rfl rfl rfl e registers)
  · exact isNaN_singleOfDouble (isNaN_read (n := 10) rfl rfl rfl e registers)
  · exact isNaN_singleOfDouble (isNaN_read (n := 100) rfl rfl rfl e registers)

theorem beq_batteryOf (e : Encoding) (registers : List UInt16) (health : Option (List UInt16)) :
    (batteryOf e registers health == batteryOf e registers health) = true := by
  refine BatteryState.beq_self ?_
  have hvalue := fun index => isNaN_datum16 e index registers
  simp only [batteryOf, BatteryState.toList, List.forall_mem_cons]
  refine ⟨(hvalue 3).2.1, (hvalue 0).1, (hvalue 1).2.2.2, (hvalue 8).2.2.1, ?_, nofun⟩
  cases health with
  | none => exact (by decide +kernel : (0 : Float32).isNaN = false)
  | some registers => exact (isNaN_datum16 e 0 registers).2.2.1

variable {K : Type} [Quantity K]

/-! ## Polls -/

section

variable {m : Victron K} (hrole : m.setup.role = .battery) (c : Round)

include hrole

theorem polled_battery :
    m.polled c =
      match c.read? m.link batteryBlock with
      | none => (false, { Readings.zero with battery := m.cache.battery }, m)
      | some registers =>
        let battery := batteryOf m.link.encoding registers (c.read? m.link healthBlock)
        (m.cache.battery != battery, { Readings.zero with battery },
          { m with cache := { m.cache with battery } }) := by
  unfold polled update
  rw [if_pos hrole, updateBattery, readBattery, outcome_seq, outcome_seq, ← c.outcome_read]
  cases (m.link.read batteryBlock).outcome c.answer with
  | error e => rfl
  | ok registers => rfl

theorem readIn_battery (block : Block) :
    m.readIn c block =
      c.reads m.link block (m.link.read batteryBlock) ++
        if (c.read? m.link batteryBlock).isSome then
          c.reads m.link block (m.link.read healthBlock)
        else [] := by
  unfold readIn update
  rw [if_pos hrole, updateBattery, Round.reads_seq, readBattery, Round.reads_seq,
    ← c.outcome_read, List.append_assoc]
  congr 1
  cases (m.link.read batteryBlock).outcome c.answer with
  | error e => rfl
  | ok registers =>
    dsimp only [Except.toOption]
    rw [Round.reads_map]
    exact List.append_nil _

theorem readIn_batteryBlock :
    m.readIn c batteryBlock = (c.read? m.link batteryBlock).toList := by
  have hne : healthBlock ≠ batteryBlock := by decide
  rw [readIn_battery hrole, Round.reads_self, Round.reads_of_ne _ _ _ hne, ite_self,
    List.append_nil]

theorem readIn_healthBlock :
    m.readIn c healthBlock =
      if (c.read? m.link batteryBlock).isSome then (c.read? m.link healthBlock).toList else [] := by
  have hne : batteryBlock ≠ healthBlock := by decide
  rw [readIn_battery hrole, Round.reads_self, Round.reads_of_ne _ _ _ hne, List.nil_append]

end

/-! ## Runs -/

section

variable {m : Victron K} (hrole : m.setup.role = .battery) (rounds : List Round) (c : Round)

include hrole

theorem after_battery :
    (m.after rounds).setup = m.setup ∧ (m.after rounds).link = m.link := by
  refine after_induction (P := fun m' => m'.setup = m.setup ∧ m'.link = m.link) ?_ ⟨rfl, rfl⟩ rounds
  rintro m' c ⟨hsetup, hlink⟩
  rw [polled_battery (hsetup ▸ hrole)]
  cases c.read? m'.link batteryBlock <;> exact ⟨hsetup, hlink⟩

theorem shown_battery :
    (m.shown rounds c).battery = (m.after (rounds ++ [c])).cache.battery := by
  have hrole' : (m.after rounds).setup.role = .battery := (after_battery hrole rounds).1 ▸ hrole
  rw [after_snoc, shown, polled_battery hrole']
  cases c.read? (m.after rounds).link batteryBlock <;> rfl

theorem latest?_batteryBlock_snoc :
    m.latest? batteryBlock (rounds ++ [c]) =
      (c.read? m.link batteryBlock).or (m.latest? batteryBlock rounds) := by
  obtain ⟨hsetup, hlink⟩ := after_battery hrole rounds
  rw [latest?_snoc, readIn_batteryBlock (hsetup ▸ hrole), hlink]
  cases c.read? m.link batteryBlock <;> rfl

theorem latest?_healthBlock_snoc :
    m.latest? healthBlock (rounds ++ [c]) =
      (if (c.read? m.link batteryBlock).isSome then c.read? m.link healthBlock else none).or
        (m.latest? healthBlock rounds) := by
  obtain ⟨hsetup, hlink⟩ := after_battery hrole rounds
  rw [latest?_snoc, readIn_healthBlock (hsetup ▸ hrole), hlink]
  split_ifs
  · cases c.read? m.link healthBlock <;> rfl
  · rfl

end

/-- What a battery shows when every value is that of the last read of its block. -/
def latestBattery (m : Victron K) (rounds : List Round) : BatteryState :=
  let values := match m.latest? batteryBlock rounds with
    | none => BatteryState.zero
    | some registers => batteryOf m.link.encoding registers none
  { values with
    stateOfHealth := match m.latest? healthBlock rounds with
      | none => 0
      | some registers => healthOf m.link.encoding registers }

theorem latestBattery_eq {m : Victron K} {rounds : List Round} {registers : List UInt16}
    (h : m.latest? batteryBlock rounds = some registers) :
    m.latestBattery rounds =
      batteryOf m.link.encoding registers (m.latest? healthBlock rounds) := by
  unfold latestBattery
  rw [h]
  cases m.latest? healthBlock rounds <;> rfl

/-- A poll shows the last read of every block, and tells of no change where it reads what was read
before. -/
structure KeepsValues (m : Victron K) (before : List Round) (c : Round) : Prop where
  values : (m.shown before c).battery = m.latestBattery (before ++ [c])
  quiet : (∀ block, ∀ registers ∈ (m.after before).readIn c block,
      m.latest? block before = some registers) →
    ((m.after before).polled c).1 = false

/-- Where a poll reads the other values without a state of health, there was none but zero. -/
def MissesNothing (m : Victron K) (before : List Round) (c : Round) : Prop :=
  (m.after before).readIn c batteryBlock ≠ [] → (m.after before).readIn c healthBlock = [] →
    ∀ registers, m.latest? healthBlock before = some registers →
      healthOf m.link.encoding registers = 0

theorem batteryOf_none {e : Encoding} (registers : List UInt16) {health : Option (List UInt16)}
    (h : ∀ registers, health = some registers → healthOf e registers = 0) :
    batteryOf e registers none = batteryOf e registers health := by
  cases health with
  | none => rfl
  | some last => exact congrArg (BatteryState.mk _ _ _ _) (h last rfl).symm

section

variable {m : Victron K} (hrole : m.setup.role = .battery) {before : List Round} {c : Round}

include hrole

theorem MissesNothing.batteryOf_eq (h : m.MissesNothing before c) {registers : List UInt16}
    (hread : c.read? m.link batteryBlock = some registers) :
    batteryOf m.link.encoding registers (c.read? m.link healthBlock) =
      batteryOf m.link.encoding registers (m.latest? healthBlock (before ++ [c])) := by
  obtain ⟨hsetup, hlink⟩ := after_battery hrole before
  unfold MissesNothing at h
  rw [readIn_batteryBlock (hsetup ▸ hrole), readIn_healthBlock (hsetup ▸ hrole), hlink, hread] at h
  rw [latest?_healthBlock_snoc hrole, hread]
  cases hhealth : c.read? m.link healthBlock with
  | some health => rfl
  | none =>
    have hmissed : (if (some registers).isSome then (c.read? m.link healthBlock).toList else []) =
        [] := by
      rw [hhealth]
      rfl
    exact batteryOf_none registers (h nofun hmissed)

theorem MissesNothing.battery_snoc (h : m.MissesNothing before c)
    (hkept : (m.after before).cache.battery = m.latestBattery before) :
    (m.after (before ++ [c])).cache.battery = m.latestBattery (before ++ [c]) := by
  obtain ⟨hsetup, hlink⟩ := after_battery hrole before
  have hlatest := latest?_batteryBlock_snoc hrole before c
  rw [after_snoc, polled_battery (hsetup ▸ hrole), hlink]
  cases hread : c.read? m.link batteryBlock with
  | none =>
    have hhealth := latest?_healthBlock_snoc hrole before c
    rw [hread] at hlatest hhealth
    unfold latestBattery at hkept ⊢
    rw [hlatest, hhealth]
    exact hkept
  | some registers =>
    rw [hread] at hlatest
    rw [latestBattery_eq hlatest]
    exact h.batteryOf_eq hrole hread

theorem MissesNothing.keepsValues (h : m.MissesNothing before c)
    (hkept : (m.after before).cache.battery = m.latestBattery before) :
    m.KeepsValues before c where
  values := (shown_battery hrole before c).trans (h.battery_snoc hrole hkept)
  quiet hsame := by
    obtain ⟨hsetup, hlink⟩ := after_battery hrole before
    rw [polled_battery (hsetup ▸ hrole), hlink]
    cases hread : c.read? m.link batteryBlock with
    | none => rfl
    | some registers =>
      have hbattery : m.latest? batteryBlock before = some registers := by
        refine hsame batteryBlock registers ?_
        rw [readIn_batteryBlock (hsetup ▸ hrole), hlink, hread]
        exact List.mem_singleton_self _
      have hhealth : m.latest? healthBlock (before ++ [c]) = m.latest? healthBlock before := by
        rw [latest?_healthBlock_snoc hrole, hread]
        cases hread' : c.read? m.link healthBlock with
        | none => rfl
        | some health =>
          refine (hsame healthBlock health ?_).symm
          rw [readIn_healthBlock (hsetup ▸ hrole), hlink, hread, hread']
          exact List.mem_singleton_self _
      have hsame : m.latestBattery before =
          batteryOf m.link.encoding registers (c.read? m.link healthBlock) := by
        rw [latestBattery_eq hbattery, h.batteryOf_eq hrole hread, hhealth]
      dsimp only
      rw [hkept, hsame, bne, beq_batteryOf]
      rfl

theorem KeepsValues.missesNothing (h : m.KeepsValues before c) : m.MissesNothing before c := by
  intro hread hmissed last hlast
  obtain ⟨hsetup, hlink⟩ := after_battery hrole before
  rw [readIn_batteryBlock (hsetup ▸ hrole), hlink, ne_eq, Option.toList_eq_nil_iff] at hread
  obtain ⟨registers, hread⟩ := Option.ne_none_iff_exists'.1 hread
  rw [readIn_healthBlock (hsetup ▸ hrole), hlink, hread, Option.isSome_some, if_pos rfl,
    Option.toList_eq_nil_iff] at hmissed
  have hlatest : m.latest? healthBlock (before ++ [c]) = some last := by
    rw [latest?_healthBlock_snoc hrole, hread, hmissed, hlast]
    rfl
  have hvalues := h.values
  rw [shown_battery hrole, after_snoc, polled_battery (hsetup ▸ hrole), hlink, hread, hmissed]
    at hvalues
  unfold latestBattery at hvalues
  rw [hlatest] at hvalues
  exact (congrArg BatteryState.stateOfHealth hvalues).symm

end

/-- Every poll of a run shows the last read of every block, if and only if none misses a state of
health that was read before. -/
theorem keepsValues_iff {link : Link} {setup : Setup} (hrole : setup.role = .battery)
    {probed : (q : Request) → q.Answer} {m : Victron K}
    (hfound : (probe link setup).outcome probed = .ok m) (rounds : List Round) :
    (∀ before c, before ++ [c] <+: rounds → m.KeepsValues before c) ↔
      ∀ before c, before ++ [c] <+: rounds → m.MissesNothing before c := by
  obtain ⟨rfl, rfl, -, -, hcache⟩ := (all_probe_fresh link setup).outcome probed m hfound
  constructor
  · intro h before c hbefore
    exact (h before c hbefore).missesNothing hrole
  · intro h
    have hkept : ∀ before, before <+: rounds →
        (m.after before).cache.battery = m.latestBattery before := by
      intro before
      induction before using List.reverseRecOn with
      | nil =>
        intro _
        exact congrArg Cache.battery hcache
      | append_singleton before c ih =>
        intro hbefore
        exact (h before c hbefore).battery_snoc hrole
          (ih ((List.prefix_append before [c]).trans hbefore))
    intro before c hbefore
    exact (h before c hbefore).keepsValues hrole
      (hkept before ((List.prefix_append before [c]).trans hbefore))

/-! ## A battery with and without its health -/

def batterySetup : Setup := ⟨.battery, [], [.state], 1000⟩

def healthyRound : Round :=
  Round.answering [(batteryBlock, List.replicate 9 0), (healthBlock, [990])]

/-- The health is not answered. -/
def partialRound : Round := Round.answering [(batteryBlock, List.replicate 9 0)]

theorem battery_found :
    (probe gxLink batterySetup).outcome gxRound.answer =
      .ok (gx gxLink batterySetup : Victron Rat) :=
  outcome_probe_gx gxLink (by decide)

theorem silence_keeps_health :
    (gx gxLink batterySetup : Victron Rat).KeepsValues [healthyRound] (Round.answering []) := by
  refine (keepsValues_iff rfl battery_found [healthyRound, Round.answering []]).2 ?_ _ _
    (List.prefix_refl _)
  intro before c hbefore hread hmissed
  match before, hbefore with
  | [], hbefore =>
    obtain ⟨rfl, -⟩ := List.cons_prefix_cons.1 hbefore
    exact absurd hmissed (by decide +kernel)
  | [b], hbefore =>
    obtain ⟨rfl, hrest⟩ := List.cons_prefix_cons.1 hbefore
    obtain ⟨rfl, -⟩ := List.cons_prefix_cons.1 hrest
    exact absurd (by decide +kernel) hread
  | b :: b' :: rest, hbefore => simp at hbefore

/-- A state of health that is not answered once is shown as zero and told of as a change. -/
theorem health_is_forgotten :
    ∃ m : Victron Rat, (probe gxLink batterySetup).outcome gxRound.answer = .ok m ∧
      m.latest? healthBlock [healthyRound] = some [990] ∧
      (m.shown [] healthyRound).battery.stateOfHealth = 99 ∧
      (m.after [healthyRound]).readIn partialRound batteryBlock =
        (m.latest? batteryBlock [healthyRound]).toList ∧
      (m.after [healthyRound]).readIn partialRound healthBlock = [] ∧
      (m.shown [healthyRound] partialRound).battery.stateOfHealth = 0 ∧
      ((m.after [healthyRound]).polled partialRound).1 = true ∧
      ¬ m.KeepsValues [healthyRound] partialRound := by
  have hlast : (gx gxLink batterySetup : Victron Rat).latest? healthBlock [healthyRound] =
      some [990] := by decide +kernel
  refine ⟨_, battery_found, hlast, by decide +kernel, by decide +kernel, by decide +kernel,
    by decide +kernel, by decide +kernel, fun hkeeps => ?_⟩
  have hzero : healthOf gxLink.encoding [990] = 0 :=
    hkeeps.missesNothing rfl (by decide +kernel) (by decide +kernel) [990] hlast
  exact absurd hzero (by decide +kernel)

end Meter.Victron

end HomeMetering
