import HomeMetering.Proofs.Decimal.Numbers
import HomeMetering.Proofs.Meter.Keeping

/-!
# What a poll reports as a change

A meter of ABB's or of Carlo Gavazzi's reports a change when the instant values that it keeps differ
from those before. All of them are numbers, and zero for every phase that is not read, so they
differ just where the meter writes something else.
-/

namespace HomeMetering

/-! ## Numbers on lines -/

theorem PerLine.forall_mem_toList {α : Type} {p : PerLine α} {P : α → Prop} :
    (∀ x ∈ p.toList, P x) ↔ P p.first ∧ P p.second ∧ P p.third := by
  simp [toList]

theorem PerLine.mem_toList_set {α : Type} {p : PerLine α} {i : LineIndex} {a x : α}
    (h : x ∈ (p.set i a).toList) : x = a ∨ x ∈ p.toList := by
  rcases i with _ | _ | _ | i <;> simp only [set, toList, List.mem_cons] at h ⊢ <;> tauto

theorem PerLine.mem_toList_of_get? {α : Type} {p : PerLine α} {i : LineIndex} {a : α}
    (h : p.get? i = some a) : a ∈ p.toList := by
  rcases i with _ | _ | _ | i <;> simp_all [get?, toList]

open Decimal.Binary in
theorem PerLine.beq_self {p : PerLine Float32} (h : ∀ x ∈ p.toList, x.isNaN = false) :
    (p == p) = true := by
  obtain ⟨a, b, c⟩ := p
  obtain ⟨ha, hb, hc⟩ := forall_mem_toList.1 h
  show (a == a && (b == b && c == c)) = true
  rw [beq_self_of_isNaN ha, beq_self_of_isNaN hb, beq_self_of_isNaN hc]
  rfl

namespace Electricity.State

/-- All values are numbers. -/
structure IsNumber (s : State) : Prop where
  current : ∀ x ∈ s.current.toList, x.isNaN = false
  power : ∀ x ∈ s.power.toList, x.isNaN = false
  voltage : ∀ x ∈ s.voltage.toList, x.isNaN = false

theorem isNumber_zero : zero.IsNumber := by
  have hzero : (0 : Float32).isNaN = false := by decide +kernel
  constructor <;> exact PerLine.forall_mem_toList.2 ⟨hzero, hzero, hzero⟩

theorem beq_iff_at {s t : State} :
    (s == t) = true ↔ ∀ line < lineCount, (s.at line == t.at line) = true := by
  obtain ⟨⟨c0, c1, c2⟩, ⟨p0, p1, p2⟩, ⟨v0, v1, v2⟩⟩ := s
  obtain ⟨⟨d0, d1, d2⟩, ⟨q0, q1, q2⟩, ⟨w0, w1, w2⟩⟩ := t
  rw [forall_lt_lineCount]
  show ((c0 == d0 && (c1 == d1 && c2 == d2)) && ((p0 == q0 && (p1 == q1 && p2 == q2)) &&
    (v0 == w0 && (v1 == w1 && v2 == w2)))) = true ↔
    (c0 == d0 && (p0 == q0 && v0 == w0)) = true ∧ (c1 == d1 && (p1 == q1 && v1 == w1)) = true ∧
      (c2 == d2 && (p2 == q2 && v2 == w2)) = true
  simp only [Bool.and_eq_true]
  tauto

theorem IsNumber.beq_self {s : State} (h : s.IsNumber) : (s == s) = true := by
  show (s.current == s.current && (s.power == s.power && s.voltage == s.voltage)) = true
  rw [PerLine.beq_self h.current, PerLine.beq_self h.power, PerLine.beq_self h.voltage]
  rfl

theorem IsNumber.of_set {s : State} (h : s.IsNumber) {c p v : Float32} (hc : c.isNaN = false)
    (hp : p.isNaN = false) (hv : v.isNaN = false) (line : LineIndex) :
    IsNumber ⟨s.current.set line c, s.power.set line p, s.voltage.set line v⟩ := by
  constructor
  · intro x hx
    rcases PerLine.mem_toList_set hx with rfl | hx
    · exact hc
    · exact h.current x hx
  · intro x hx
    rcases PerLine.mem_toList_set hx with rfl | hx
    · exact hp
    · exact h.power x hx
  · intro x hx
    rcases PerLine.mem_toList_set hx with rfl | hx
    · exact hv
    · exact h.voltage x hx

end Electricity.State

open Electricity Modbus Site Site.Job Decimal.Binary

namespace Meter

/-! ## Decoded values -/

/-- Whatever registers hold, what is decoded are numbers. -/
structure InstantData.GivesNumbers (f : InstantData) : Prop where
  voltage : ∀ d ∈ f.voltage.toList, ∀ e registers, (d.read e registers).isNaN = false
  current : ∀ d ∈ f.current.toList, ∀ e registers, (d.read e registers).isNaN = false
  power : ∀ d ∈ f.power.toList, ∀ e registers, (d.read e registers).isNaN = false

theorem isNaN_phaseValue {data : PerLine (Datum Float)}
    (h : ∀ d ∈ data.toList, ∀ e registers, (d.read e registers).isNaN = false) (e : Encoding)
    (registers : List UInt16) (phase : Nat) :
    (singleOfDouble (phaseValue data e registers phase)).isNaN = false := by
  refine isNaN_singleOfDouble ?_
  unfold phaseValue
  split
  · rename_i d hd
    exact h d (PerLine.mem_toList_of_get? hd) e registers
  · exact (by decide +kernel : (0.0 : Float).isNaN = false)

theorem InstantData.GivesNumbers.stateOf {f : InstantData} (hf : f.GivesNumbers) (e : Encoding)
    {current : Float32 → Float32 → Float32}
    (hcurrent : ∀ p c, c.isNaN = false → (current p c).isNaN = false) (phases : List Nat)
    (registers : List UInt16) : (f.stateOf e current phases registers).IsNumber := by
  refine List.foldlRecOn phases _ (motive := State.IsNumber) State.isNumber_zero ?_
  intro s hs phase _
  exact hs.of_set (hcurrent _ _ (isNaN_phaseValue hf.current e registers phase))
    (isNaN_phaseValue hf.power e registers phase) (isNaN_phaseValue hf.voltage e registers phase)
    phase

theorem Abb.givesNumbers_instantData : instantData.GivesNumbers := by
  have hvoltage : ∀ i e registers, ((datum32 (.unsigned 10) i).read e registers).isNaN = false :=
    fun _ => isNaN_read (n := 10) rfl rfl rfl
  have hcurrent : ∀ i e registers, ((datum32 (.unsigned 100) i).read e registers).isNaN = false :=
    fun _ => isNaN_read (n := 100) rfl rfl rfl
  have hpower : ∀ i e registers, ((datum32 (.signed 100) i).read e registers).isNaN = false :=
    fun _ => isNaN_read (n := 100) rfl rfl rfl
  constructor <;> rw [PerLine.forall_mem_toList]
  · exact ⟨hvoltage _, hvoltage _, hvoltage _⟩
  · exact ⟨hcurrent _, hcurrent _, hcurrent _⟩
  · exact ⟨hpower _, hpower _, hpower _⟩

theorem CarloGavazzi.givesNumbers_instantData (singlePhase : Bool) :
    (instantData singlePhase).GivesNumbers := by
  have hsigned : ∀ i e registers, ((datum32 (.signed 10) i : Datum Float).read e registers).isNaN =
      false := fun _ => isNaN_read (n := 10) rfl rfl rfl
  have hcurrent : ∀ i e registers, ((datum32 (.unsigned 1000) i : Datum Float).read e
      registers).isNaN = false := fun _ => isNaN_read (n := 1000) rfl rfl rfl
  cases singlePhase <;> constructor <;> rw [PerLine.forall_mem_toList]
  · exact ⟨hsigned _, hsigned _, hsigned _⟩
  · exact ⟨hcurrent _, hcurrent _, hcurrent _⟩
  · exact ⟨hsigned _, hsigned _, hsigned _⟩
  · exact ⟨hsigned _, hsigned _, hsigned _⟩
  · exact ⟨hcurrent _, hcurrent _, hcurrent _⟩
  · exact ⟨hsigned _, hsigned _, hsigned _⟩

theorem CarloGavazzi.isNaN_withSignOf (p : Float32) {c : Float32} (h : c.isNaN = false) :
    (withSignOf p c).isNaN = false := by
  unfold withSignOf
  split_ifs
  · exact single_isNaN_neg h
  · exact h

/-! ## Polls -/

/-- Instant values that a meter can keep: numbers, and zero for every phase that is not read. -/
structure Fits (setup : Setup) (singlePhase : Bool) (s : State) : Prop where
  number : s.IsNumber
  unread : ∀ phase ∉ devicePhases setup.lines singlePhase, s.at phase = State.zero.at phase

theorem fits_zero (setup : Setup) (singlePhase : Bool) : Fits setup singlePhase .zero :=
  ⟨State.isNumber_zero, fun _ _ => rfl⟩

section

variable {K : Type} [Quantity K]

omit [Quantity K] in
theorem Abb.all_readInstant (m : Abb K) :
    m.readInstant.All (fun _ => True) fun a =>
      ∀ s, a = .ok s → Fits m.setup m.family.isSinglePhase s := by
  refine .bind (.any _) fun registers _ => .done ?_
  cases registers with
  | error e => exact nofun
  | ok registers =>
    rintro s ⟨⟩
    exact ⟨givesNumbers_instantData.stateOf _ (fun _ _ h => h) _ _, fun _ hphase =>
      instantData.at_stateOf_of_not_mem _ _ _ hphase⟩

omit [Quantity K] in
theorem CarloGavazzi.all_readInstant (m : CarloGavazzi K) :
    m.readInstant.All (fun _ => True) fun a =>
      ∀ s, a = .ok s → Fits m.setup m.family.isSinglePhase s := by
  refine .bind (.any _) fun registers _ => .done ?_
  cases registers with
  | error e => exact nofun
  | ok registers =>
    rintro s ⟨⟩
    exact ⟨(givesNumbers_instantData _).stateOf _ (fun p _ => isNaN_withSignOf p) _ _,
      fun _ hphase => (instantData _).at_stateOf_of_not_mem _ _ _ hphase⟩

/-- What a poll does to the instant values: it leaves them and reports no change, or it replaces
them by others and reports whether they differ. -/
def Replaces (setup : Setup) (R : State → Prop) (old : State) (x : Bool × Cache K) : Prop :=
  (x.1 = false ∧ x.2.state = old) ∨
    (setup.has .state = true ∧ R x.2.state ∧ x.1 = (old != x.2.state))

omit [Quantity K] in
theorem all_poll (setup : Setup) (now : Instant) (cache : Cache K) {R : State → Prop}
    {instant : Job (Except BusError State)} (totals : Job (Except BusError (Usage K)))
    (hinstant : instant.All (fun _ => True) fun a => ∀ s, a = .ok s → R s) :
    (poll setup now cache instant totals).All (fun _ => True) (Replaces setup R cache.state) := by
  have hstate : (pollState setup cache instant).All (fun _ => True)
      (Replaces setup R cache.state) := by
    unfold pollState
    split
    · rename_i hhas
      refine hinstant.bind fun a ha => ?_
      cases a with
      | error e => exact .done (Or.inl ⟨rfl, rfl⟩)
      | ok s => exact .done (Or.inr ⟨hhas, ha s rfl, rfl⟩)
    · exact .done (Or.inl ⟨rfl, rfl⟩)
  have husage : ∀ c : Cache K, (pollUsage setup now c totals).All (fun _ => True)
      fun c' => c'.state = c.state := by
    intro c
    unfold pollUsage
    split
    · split
      · refine .bind (.any _) fun a _ => ?_
        cases a <;> exact .done rfl
      · exact .done rfl
    · exact .done rfl
  refine hstate.bind fun x hx => (husage x.2).bind fun c hc => .done ?_
  unfold Replaces at hx ⊢
  rw [hc]
  exact hx

/-! ## Meters -/

/-- A meter of ABB's or of Carlo Gavazzi's. -/
def IsEnergyMeter : Meter K → Prop
  | abb _ | carloGavazzi _ => True
  | _ => False

variable {m m' : Meter K}

/-- A meter whose instant values are zero, or were read from its device. -/
structure Settled (m : Meter K) : Prop where
  energyMeter : m.IsEnergyMeter
  fits : Fits m.setup m.isSinglePhase m.kept.state
  unset : ¬ m.setup.has .state → m.kept.state = .zero

theorem FoundFor.kept_eq {setup : Setup} (h : m.FoundFor setup) : m.kept = .empty := by
  rw [h.eq_keeping]
  cases h <;> rfl

theorem FoundFor.settled {setup : Setup} (h : m.FoundFor setup) : m.Settled where
  energyMeter := by cases h <;> trivial
  fits := by
    rw [h.kept_eq]
    exact fits_zero _ _
  unset _ := by
    rw [h.kept_eq]
    rfl

/-- A meter after one more poll. -/
structure Next (m m' : Meter K) : Prop where
  setup_eq : m'.setup = m.setup
  phases_eq : m'.isSinglePhase = m.isSinglePhase
  settled : m'.Settled

theorem IsEnergyMeter.keeping_eq (h : m.IsEnergyMeter) (c : Cache K) :
    (m.keeping c).kept = c ∧ (m.keeping c).setup = m.setup ∧
      (m.keeping c).isSinglePhase = m.isSinglePhase ∧ (m.keeping c).IsEnergyMeter := by
  cases m <;> first | exact h.elim | exact ⟨rfl, rfl, rfl, trivial⟩

theorem Settled.next_keeping (h : m.Settled) {x : Bool × Cache K}
    (hx : Replaces m.setup (Fits m.setup m.isSinglePhase) m.kept.state x) :
    m.Next (m.keeping x.2) ∧ x.1 = (m.kept.state != (m.keeping x.2).kept.state) := by
  obtain ⟨henergy, hfits, hunset⟩ := h
  obtain ⟨hkept, hsetup, hphases, henergy⟩ := henergy.keeping_eq x.2
  have hsettled (hfits : Fits m.setup m.isSinglePhase x.2.state)
      (hunset : ¬ m.setup.has .state → x.2.state = .zero) : (m.keeping x.2).Settled := by
    refine ⟨henergy, ?_, ?_⟩
    · rwa [hkept, hsetup, hphases]
    · rwa [hkept, hsetup]
  rcases hx with ⟨hchanged, hstate⟩ | ⟨hhas, hread, hchanged⟩
  -- Numbers are equal to themselves, so values that stayed are no change.
  · refine ⟨⟨hsetup, hphases, hsettled (hstate ▸ hfits) fun h => hstate ▸ hunset h⟩, ?_⟩
    rw [hkept, hstate, hchanged, bne, hfits.number.beq_self]
    rfl
  · exact ⟨⟨hsetup, hphases, hsettled hread fun h => absurd hhas h⟩, by rw [hkept, hchanged]⟩

/-- A poll reports a change just when the instant values that are kept differ. -/
theorem Settled.all_refresh (now : Instant) (h : m.Settled) :
    (m.refresh now).All (fun _ => True) fun x =>
      m.Next x.2 ∧ x.1 = (m.kept.state != x.2.kept.state) := by
  cases m with
  | abb m =>
    exact (all_poll _ now _ _ m.all_readInstant).bind fun x hx => .done (h.next_keeping hx)
  | carloGavazzi m =>
    exact (all_poll _ now _ _ m.all_readInstant).bind fun x hx => .done (h.next_keeping hx)
  | victron m => exact h.energyMeter.elim
  | dsmr m => exact h.energyMeter.elim
  | playback m => exact h.energyMeter.elim

/-! ## What is written -/

section

variable (h : m.IsEnergyMeter) (r : Readings K)

include h

theorem IsEnergyMeter.state_write :
    (m.write r).state =
      if m.setup.has .state then
        mergeState r.state m.kept.state (phasePairs m.setup.lines m.isSinglePhase)
      else r.state := by
  cases m with
  | abb m => exact m.cache.state_fill m.setup _ r
  | carloGavazzi m => exact m.cache.state_fill m.setup _ r
  | _ => exact h.elim

theorem IsEnergyMeter.others_write :
    (m.write r).battery = r.battery ∧ (m.write r).gas = r.gas ∧ (m.write r).water = r.water := by
  have hfill (c : Cache K) (setup : Setup) (singlePhase : Bool) :
      (c.fill setup singlePhase r).battery = r.battery ∧
        (c.fill setup singlePhase r).gas = r.gas ∧
        (c.fill setup singlePhase r).water = r.water := by
    unfold Cache.fill
    dsimp only
    split_ifs <;> exact ⟨rfl, rfl, rfl⟩
  cases m with
  | abb m => exact hfill _ _ _
  | carloGavazzi m => exact hfill _ _ _
  | _ => exact h.elim

theorem IsEnergyMeter.at_write_of_mem (hlines : ∀ line ∈ m.setup.lines, line < lineCount)
    (hhas : m.setup.has .state = true) {phase : Nat} {line : LineIndex}
    (hpair : (phase, line) ∈ phasePairs m.setup.lines m.isSinglePhase) :
    (m.write r).state.at line = m.kept.state.at phase := by
  obtain ⟨hphase, hline⟩ := lt_of_mem_phasePairs hlines hpair
  rw [h.state_write, if_pos hhas]
  exact at_mergeState_of_mem _ _ hpair (fun q hq heq => phasePairs_inj hq hpair heq) hphase hline

theorem IsEnergyMeter.at_write_of_not_mem {line : LineIndex}
    (hline : ∀ pair ∈ phasePairs m.setup.lines m.isSinglePhase, pair.2 ≠ line) :
    (m.write r).state.at line = r.state.at line := by
  rw [h.state_write]
  split_ifs
  · exact at_mergeState _ _ hline
  · rfl

end

theorem exists_mem_phasePairs {lines : List LineIndex} {singlePhase : Bool} {phase : Nat}
    (hlines : lines ≠ []) (h : phase ∈ devicePhases lines singlePhase) :
    ∃ line, (phase, line) ∈ phasePairs lines singlePhase := by
  cases singlePhase with
  | true =>
    obtain ⟨line, rest, rfl⟩ := List.exists_cons_of_ne_nil hlines
    obtain rfl := List.mem_singleton.1 h
    exact ⟨line, List.mem_singleton_self _⟩
  | false => exact ⟨phase, List.mem_map_of_mem h⟩

/-- What is kept differs just where something else is written to a line that is claimed. -/
theorem Next.beq_kept_iff (hnext : m.Next m') (hm : m.Settled) (hne : m.setup.lines ≠ [])
    (hlines : ∀ line ∈ m.setup.lines, line < lineCount) :
    (m.kept.state == m'.kept.state) = true ↔
      ∀ line, (.state, line) ∈ m.setup.claims →
        ((m.write .zero).state.at line == (m'.write .zero).state.at line) = true := by
  obtain ⟨hsetup, hphases, hm'⟩ := hnext
  have hzero := State.beq_iff_at.1 State.isNumber_zero.beq_self
  have hlines' : ∀ line ∈ m'.setup.lines, line < lineCount := hsetup ▸ hlines
  rw [State.beq_iff_at]
  constructor
  · intro hkept line hclaim
    obtain ⟨hhas, hline⟩ := Setup.mem_claims.1 hclaim
    rw [← Setup.has_iff] at hhas
    by_cases hfed : ∃ pair ∈ phasePairs m.setup.lines m.isSinglePhase, pair.2 = line
    · obtain ⟨⟨phase, line⟩, hpair, rfl⟩ := hfed
      rw [hm.energyMeter.at_write_of_mem _ hlines hhas hpair,
        hm'.energyMeter.at_write_of_mem _ hlines' (hsetup ▸ hhas) (hsetup ▸ hphases ▸ hpair)]
      exact hkept _ (lt_of_mem_phasePairs hlines hpair).1
    · -- A single phase leaves the further lines of its meter at zero.
      have hnot : ∀ pair ∈ phasePairs m.setup.lines m.isSinglePhase, pair.2 ≠ line :=
        fun pair hpair heq => hfed ⟨pair, hpair, heq⟩
      rw [hm.energyMeter.at_write_of_not_mem _ hnot,
        hm'.energyMeter.at_write_of_not_mem _ (hsetup ▸ hphases ▸ hnot)]
      exact hzero line (hlines line hline)
  · intro hwritten phase hphase
    by_cases hhas : m.setup.has .state = true
    · by_cases hread : phase ∈ devicePhases m.setup.lines m.isSinglePhase
      · obtain ⟨line, hpair⟩ := exists_mem_phasePairs hne hread
        have hsame := hwritten line
          (Setup.mem_claims.2 ⟨Setup.has_iff.1 hhas, mem_phasePairs hpair⟩)
        rwa [hm.energyMeter.at_write_of_mem _ hlines hhas hpair,
          hm'.energyMeter.at_write_of_mem _ hlines' (hsetup ▸ hhas) (hsetup ▸ hphases ▸ hpair)]
          at hsame
      · rw [hm.fits.unread phase hread, hm'.fits.unread phase (hsetup ▸ hphases ▸ hread)]
        exact hzero phase hphase
    · rw [hm.unset hhas, hm'.unset (hsetup ▸ hhas)]
      exact hzero phase hphase

end

end Meter

end HomeMetering
