import HomeMetering.Proofs.Meter.Keeping

/-!
# Attributes and the number of phases

A service of a GX that counts a single phase feeds the first line of its meter with it. A meter that
is set up for instant values asks for the number of phases in its first poll; one that is set up for
counters only never does, and takes every service for one with three phases. What the two write is
the same for every service of several phases, and for one of a single phase on the first line alone.
-/

namespace HomeMetering.Meter.Victron

open Electricity Modbus Site Site.Job

variable {K : Type} [Quantity K]

/-! ## First polls -/

def Service.blocks (s : Service) : List Block :=
  [s.serialBlock, s.phaseCountBlock, s.instantBlock, s.totalsBlock]

/-- A service answers every read of a round, and tells its number of phases. -/
structure Answers (link : Link) (s : Service) (n : UInt16) (c : Round) : Prop where
  all : ∀ block ∈ s.blocks, (c.read? link block).isSome
  phaseCount : ∃ rest, c.read? link s.phaseCountBlock = some (n :: rest)

/-- The counters that a meter writes in a round. -/
def usageIn (c : Round) (m : Victron K) : Usage K :=
  ((m.update c.now .zero).outcome c.answer).2.1.usage

/-- The counters on some lines when a service counts a single phase, or one for each line. -/
def measured (s : Service) (lines : List LineIndex) (e : Encoding) (registers : List UInt16)
    (singlePhase : Bool) : Usage K :=
  fillUsage .zero (usageOf s e (devicePhases lines singlePhase) registers) lines singlePhase

theorem all_probe_fresh (link : Link) (setup : Setup) :
    (probe link setup : Job (Except MeterError (Victron K))).All (fun _ => True)
      fun r => ∀ m, r = .ok m → m.link = link ∧ m.setup = setup ∧ m.isIdentified = false ∧
        m.phaseCount = none ∧ m.cache = .empty := by
  unfold probe
  split
  · exact .done (by simp)
  · refine .bind (.any _) fun serial _ => ?_
    cases serial with
    | error e => exact .done (by simp)
    | ok registers =>
      dsimp only
      split
      · exact .done (by simp)
      · refine .done ?_
        rintro m ⟨⟩
        exact ⟨rfl, rfl, rfl, rfl, rfl⟩

theorem outcome_of_read? {c : Round} {link : Link} {block : Block} {registers : List UInt16}
    (h : c.read? link block = some registers) :
    (link.read block).outcome c.answer = .ok registers := by
  rw [← c.outcome_read] at h
  cases hread : (link.read block).outcome c.answer with
  | error e => rw [hread] at h; cases h
  | ok read => rw [hread] at h; exact congrArg _ (Option.some.inj h)

omit [Quantity K] in
theorem outcome_identified {c : Round} {m : Victron K} {n : UInt16}
    (hfresh : m.isIdentified = false) (hcount : m.phaseCount = none)
    (h : Answers m.link m.service n c) :
    ∃ m', m.identified.outcome c.answer = m' ∧ m'.link = m.link ∧ m'.setup = m.setup ∧
      m'.cache = m.cache ∧ m'.isSinglePhase = (m.setup.has .state && n == 1) := by
  unfold identified
  rw [hfresh]
  by_cases hhas : m.setup.has .state
  · obtain ⟨registers, hserial⟩ := Option.isSome_iff_exists.1 (h.all _ List.mem_cons_self)
    obtain ⟨rest, hphases⟩ := h.phaseCount
    refine ⟨{ m with
      serviceSerial := asciiText registers, isIdentified := true, phaseCount := some n }, ?_,
      rfl, rfl, rfl, ?_⟩
    · have hread := outcome_of_read? hphases
      unfold service at hread
      rw [if_pos (by simp [hhas]), identify, outcome_seq, outcome_of_read? hserial]
      dsimp only
      rw [outcome_seq]
      unfold service
      dsimp only
      rw [hread]
      rfl
    · rw [hhas]
      rfl
  · refine ⟨m, ?_, rfl, rfl, rfl, ?_⟩
    · rw [if_neg (by simp [hhas])]
      rfl
    · simp [isSinglePhase, hcount, hhas]

theorem outcome_readTotals (c : Round) (m : Victron K) :
    (m.readTotals.outcome c.answer).toOption =
      (c.read? m.link m.service.totalsBlock).map (usageOf m.service m.link.encoding m.phases) :=
  c.outcome_map m.link m.service.totalsBlock _

/-- What a meter writes first: with instant values what the number of phases calls for, and without
them what three phases do. -/
theorem usageIn_eq {link : Link} {setup : Setup} (hrole : setup.role ≠ .battery)
    (husage : setup.has .usage) {probed : (q : Request) → q.Answer} {m : Victron K}
    (hfound : (probe link setup).outcome probed = .ok m) {c : Round} {n : UInt16}
    (h : Answers link (.of setup.role) n c) {registers : List UInt16}
    (htotals : c.read? link (Service.of setup.role).totalsBlock = some registers) :
    usageIn c m = measured (.of setup.role) setup.lines link.encoding registers
      (setup.has .state && n == 1) := by
  obtain ⟨rfl, rfl, hfresh, hcount, hcache⟩ := (all_probe_fresh link setup).outcome probed m hfound
  obtain ⟨m', hidentified, hlink, hsetup, hkept, hsingle⟩ := outcome_identified hfresh hcount h
  have hpoll := outcome_poll c.answer m'.setup c.now m'.cache m'.readInstant m'.readTotals
  rw [outcome_readTotals, service, hsetup, hlink, htotals, husage, hkept, hcache] at hpoll
  unfold usageIn
  rw [update_of_lines _ hrole, outcome_seq, hidentified, outcome_seq, hsetup, hkept, hcache, hpoll]
  refine Eq.trans (Cache.usage_fill ..) ?_
  rw [if_pos husage]
  unfold measured phases
  rw [hsetup, hsingle]
  rfl

/-! ## Single phases -/

/-- Counters of one line, as far as the service counts per phase. -/
def Service.countAt (s : Service) (u : Usage K) (line : LineIndex) : Option K :=
  match s with
  | grid => (u.at line).1
  | inverter => (u.at line).2

theorem countAt_usageOf (s : Service) (e : Encoding) {phases : List Nat} (registers : List UInt16)
    {phase : Nat} (hmem : phase ∈ phases) (hphase : phase < lineCount) :
    s.countAt (usageOf s e phases registers : Usage K) phase =
      some (phaseValue phaseCounters e registers phase) := by
  cases s with
  | grid =>
    refine foldl_view (fun u : Usage K => u.consumed.get? phase) (· = phase) .zero ?_ ?_
      ⟨phase, hmem, rfl⟩
    · rintro u p - rfl
      rw [PerLine.get?_set, if_pos ⟨rfl, hphase⟩]
    · intro u p _ hne
      rw [PerLine.get?_set, if_neg fun h => hne h.1]
  | inverter =>
    refine foldl_view (fun u : Usage K => u.provided.get? phase) (· = phase) .zero ?_ ?_
      ⟨phase, hmem, rfl⟩
    · rintro u p - rfl
      rw [PerLine.get?_set, if_pos ⟨rfl, hphase⟩]
    · intro u p _ hne
      rw [PerLine.get?_set, if_neg fun h => hne h.1]

omit [Quantity K] in
theorem countAt_eq (s : Service) {u v : Usage K} {i j : LineIndex} (h : u.at i = v.at j) :
    s.countAt u i = s.countAt v j := by
  cases s <;> simp only [Service.countAt, h]

section

variable (s : Service) {lines : List LineIndex} (hlines : ∀ line ∈ lines, line < lineCount)
  (e : Encoding) (registers : List UInt16) (singlePhase : Bool)

include hlines

theorem countAt_measured_of_mem {pair : Nat × LineIndex}
    (hpair : pair ∈ phasePairs lines singlePhase) :
    s.countAt (measured s lines e registers singlePhase : Usage K) pair.2 =
      some (phaseValue phaseCounters e registers pair.1) := by
  obtain ⟨hphase, hline⟩ := lt_of_mem_phasePairs hlines hpair
  have hmem : pair.1 ∈ devicePhases lines singlePhase := by
    rw [mem_phasePairs_iff] at hpair
    unfold devicePhases
    split_ifs at hpair ⊢
    · exact List.mem_singleton.2 hpair.1
    · rw [hpair.1]
      exact List.mem_filter.2 ⟨hpair.2.1, decide_eq_true hpair.2.2⟩
  rw [← countAt_usageOf s e registers hmem hphase]
  exact countAt_eq s (at_mergeUsage_of_mem _ _ _ hpair
    (fun q hq heq => phasePairs_inj hq hpair heq) hphase hline)

omit hlines in
theorem countAt_measured_of_not_mem {line : LineIndex} (hline : line < lineCount)
    (h : ∀ pair ∈ phasePairs lines singlePhase, pair.2 ≠ line) :
    s.countAt (measured s lines e registers singlePhase : Usage K) line = some Quantity.zero := by
  refine (countAt_eq s (at_mergeUsage _ _ _ h)).trans ?_
  cases s <;> exact PerLine.get?_const _ hline

end

/-- Three counters in registers of any layout, all different. -/
def threeCounters : List UInt16 := [0, 100, 0, 200, 0, 300] ++ List.replicate 16 0

theorem length_threeCounters : threeCounters.length = 22 := rfl

theorem threeCounters_ne_zero (e : Encoding) : ∀ p < lineCount,
    phaseValue phaseCounters e threeCounters p ≠ (Quantity.zero : Rat) := by
  obtain ⟨bytes, words⟩ := e
  cases bytes <;> cases words <;> decide +kernel

theorem threeCounters_injective (e : Encoding) : ∀ p < lineCount, ∀ q < lineCount,
    (phaseValue phaseCounters e threeCounters p : Rat) =
      phaseValue phaseCounters e threeCounters q → p = q := by
  obtain ⟨bytes, words⟩ := e
  cases bytes <;> cases words <;> decide +kernel

theorem measured_ne (s : Service) {lines : List LineIndex} (hne : lines ≠ [])
    (hnodup : lines.Nodup) (hlines : ∀ line ∈ lines, line < lineCount) (hfirst : lines ≠ [0])
    (e : Encoding) :
    (measured s lines e threeCounters false : Usage Rat) ≠
      measured s lines e threeCounters true := by
  intro heq
  have hthree : ∀ line ∈ lines,
      s.countAt (measured s lines e threeCounters true : Usage Rat) line =
        some (phaseValue phaseCounters e threeCounters line) := by
    intro line hline
    have hpair : (line, line) ∈ phasePairs lines false :=
      mem_phasePairs_iff.2 ⟨rfl, hline, hlines line hline⟩
    rw [← heq]
    exact countAt_measured_of_mem s hlines e threeCounters false hpair
  obtain ⟨head, rest, rfl⟩ := List.exists_cons_of_ne_nil hne
  have hhead : head < lineCount := hlines head List.mem_cons_self
  -- The only phase feeds the line at the head, so that line has to be the first.
  obtain rfl : 0 = head := by
    have hpair : (0, head) ∈ phasePairs (head :: rest) true := mem_phasePairs_iff.2 ⟨rfl, rfl⟩
    have hsingle : s.countAt (measured s (head :: rest) e threeCounters true : Usage Rat) head =
        some (phaseValue phaseCounters e threeCounters 0) :=
      countAt_measured_of_mem s hlines e threeCounters true hpair
    rw [hthree head List.mem_cons_self] at hsingle
    exact (threeCounters_injective e head hhead 0 (by decide) (Option.some.inj hsingle)).symm
  -- Any other line shows a counter of its own with three phases, and nothing with one.
  obtain ⟨line, rest, rfl⟩ := List.exists_cons_of_ne_nil fun hnil => hfirst (hnil ▸ rfl)
  have hline : line ∈ 0 :: line :: rest := List.mem_cons_of_mem _ List.mem_cons_self
  have hother : ∀ pair ∈ phasePairs (0 :: line :: rest) true, pair.2 ≠ line := by
    intro pair hpair hpairline
    obtain ⟨-, hfed⟩ := mem_phasePairs_iff.1 hpair
    have hzero : 0 = line := (Option.some.inj hfed).trans hpairline
    exact (List.nodup_cons.1 hnodup).1 (hzero ▸ List.mem_cons_self)
  have hnone := countAt_measured_of_not_mem (K := Rat) s e threeCounters true (hlines line hline)
    hother
  rw [hthree line hline] at hnone
  exact threeCounters_ne_zero e line (hlines line hline) (Option.some.inj hnone)

/-! ## Both kinds of meters -/

/-- Whether counters do not depend on the other attribute: two meters of a service, one set up for
its counters and one for its instant values as well, write the same in their first round. -/
def AttributesAgree (K : Type) [Quantity K] (link : Link) (role : Role) (lines : List LineIndex)
    (interval : Nat) (n : UInt16) : Prop :=
  ∀ (a b : Victron K) (probed probed' : (q : Request) → q.Answer),
    (probe link ⟨role, lines, [.usage], interval⟩).outcome probed = .ok a →
    (probe link ⟨role, lines, [.state, .usage], interval⟩).outcome probed' = .ok b →
    ∀ c : Round, Answers link (.of role) n c → usageIn c a = usageIn c b

/-- A round in which every read of a block gives some registers. -/
def roundGiving (registers : Block → List UInt16) : Round where
  now := ⟨0⟩
  answer
    | .read _ block => .ok (registers block)
    | q => ((Site.new [] [] ⟨fun _ => .timeout, .endOfStream⟩).answer q).1

theorem read?_roundGiving {registers : Block → List UInt16} (link : Link) {block : Block}
    (h : block.quantity.toNat ≤ (registers block).length) :
    (roundGiving registers).read? link block = some (registers block) := by
  have haccept : block.accept (.ok (registers block)) = .ok (registers block) :=
    if_neg (Nat.not_lt.2 h)
  exact congrArg Except.toOption haccept

/-- A round in which a service tells of a single phase, and has so many registers for any other
block. -/
def singlePhaseRound (registers : List UInt16) : Round :=
  roundGiving fun block => if block.quantity = 1 then [1] else registers

section

variable (link : Link) (s : Service) {registers : List UInt16} (h : registers.length = 22)

include h

theorem read?_singlePhaseRound {block : Block} (hblock : block ∈ s.blocks) :
    (singlePhaseRound registers).read? link block =
      some (if block.quantity = 1 then [1] else registers) := by
  refine read?_roundGiving link ?_
  have hsize : block.quantity = 1 ∨ block.quantity ≠ 1 ∧ block.quantity.toNat ≤ 22 := by
    revert block
    cases s <;> decide
  rcases hsize with hone | ⟨hmore, hle⟩
  · simp [hone]
  · rw [if_neg hmore, h]
    exact hle

theorem answers_singlePhaseRound : Answers link s 1 (singlePhaseRound registers) where
  all block hblock := by
    rw [read?_singlePhaseRound link s h hblock]
    rfl
  phaseCount := by
    refine ⟨[], (read?_singlePhaseRound link s h (by simp [Service.blocks])).trans ?_⟩
    cases s <;> rfl

theorem totals_singlePhaseRound :
    (singlePhaseRound registers).read? link s.totalsBlock = some registers := by
  refine (read?_singlePhaseRound link s h (by simp [Service.blocks])).trans ?_
  cases s <;> rfl

end

/-- The round of a search that finds a GX. -/
def gxRound : Round := roundGiving fun _ => List.replicate 6 0x4141

/-- A meter that such a search finds. -/
def gx (link : Link) (setup : Setup) : Victron K :=
  { link, setup, systemSerial := asciiText (List.replicate 6 0x4141), serviceSerial := ""
    isIdentified := false, phaseCount := none, cache := .empty }

theorem outcome_probe_gx (link : Link) {setup : Setup} (h : setup.role ≠ .evCharger) :
    (probe link setup).outcome gxRound.answer = .ok (gx link setup : Victron K) := by
  have hread : (readBlock link.client systemUnit systemSerialBlock).outcome gxRound.answer =
      .ok (List.replicate 6 0x4141) := rfl
  have hserial : (asciiText (List.replicate 6 0x4141)).isEmpty = false := by decide +kernel
  unfold probe
  rw [if_neg h, outcome_seq, hread]
  dsimp only
  rw [hserial]
  rfl

/-- Counters do not depend on the other attribute exactly where a service does not count a single
phase, or feeds the first line with it. -/
theorem attributesAgree_iff {role : Role} (hrole : role = .grid ∨ role = .pv)
    {lines : List LineIndex} (hne : lines ≠ []) (hnodup : lines.Nodup)
    (hlines : ∀ line ∈ lines, line < lineCount) (link : Link) (interval : Nat) (n : UInt16) :
    (n ≠ 1 ∨ lines = [0] →
        ∀ (K : Type) [Quantity K], AttributesAgree K link role lines interval n) ∧
      (AttributesAgree Rat link role lines interval n → n ≠ 1 ∨ lines = [0]) := by
  have hbattery : role ≠ .battery := by rcases hrole with rfl | rfl <;> decide
  have hcharger : role ≠ .evCharger := by rcases hrole with rfl | rfl <;> decide
  constructor
  · intro hcases K _ a b probed probed' ha hb c hc
    obtain ⟨registers, htotals⟩ : ∃ registers,
        c.read? link (Service.of role).totalsBlock = some registers :=
      Option.isSome_iff_exists.1 (hc.all _ (by simp [Service.blocks]))
    rw [usageIn_eq hbattery rfl ha hc htotals, usageIn_eq hbattery rfl hb hc htotals]
    rcases hcases with hn | rfl
    · have hseveral : (n == 1) = false := beq_false_of_ne hn
      rw [hseveral]
      rfl
    · cases n == 1 <;> rfl
  · intro hagree
    by_contra hnot
    obtain ⟨hn, hfirst⟩ := not_or.1 hnot
    obtain rfl : n = 1 := not_not.1 hn
    have hc := answers_singlePhaseRound link (.of role) length_threeCounters
    have htotals := totals_singlePhaseRound link (.of role) length_threeCounters
    have husage :=
      hagree _ _ _ _ (outcome_probe_gx link hcharger) (outcome_probe_gx link hcharger) _ hc
    rw [usageIn_eq hbattery rfl (outcome_probe_gx link hcharger) hc htotals,
      usageIn_eq hbattery rfl (outcome_probe_gx link hcharger) hc htotals] at husage
    exact measured_ne (.of role) hne hnodup hlines hfirst link.encoding husage

/-- The way to a service of a GX. -/
def gxLink : Link := ⟨0, "tcp://gx", 30, 0, encoding, false⟩

/-- On two lines the attributes tell with a single phase, and do not with three. -/
theorem attributes_on_two_lines :
    ¬ AttributesAgree Rat gxLink .grid [0, 1] 1000 1 ∧
      AttributesAgree Rat gxLink .grid [0, 1] 1000 3 := by
  have hlines : ∀ line ∈ [0, 1], line < lineCount := by decide
  have hagree :=
    attributesAgree_iff (Or.inl rfl) (List.cons_ne_nil 0 [1]) (by decide) hlines gxLink 1000
  refine ⟨fun h => ?_, (hagree 3).1 (Or.inl (by decide)) Rat⟩
  exact absurd ((hagree 1).2 h) (by decide)

/-- What a single phase has counted is lost on a meter for its counters alone that feeds the second
line, and is not when the meter shows instant values as well. -/
theorem counters_alone_are_lost :
    let setup (attributes : List Attribute) : Setup := ⟨.grid, [1], attributes, 1000⟩
    let c := singlePhaseRound ([0, 10000] ++ List.replicate 20 0)
    ∃ a b : Victron Rat,
      (probe gxLink (setup [.usage])).outcome gxRound.answer = .ok a ∧
        (probe gxLink (setup [.state, .usage])).outcome gxRound.answer = .ok b ∧
        Answers gxLink .grid 1 c ∧
        (usageIn c a).at 1 = (some 0, some 0) ∧ (usageIn c b).at 1 = (some 100, some 0) := by
  intro setup c
  have hcharger : Role.grid ≠ .evCharger := by decide
  have hbattery : Role.grid ≠ .battery := by decide
  have hlength : ([0, 10000] ++ List.replicate 20 0 : List UInt16).length = 22 := rfl
  have hc : Answers gxLink .grid 1 c := answers_singlePhaseRound gxLink .grid hlength
  have htotals := totals_singlePhaseRound gxLink .grid hlength
  have hprobe : ∀ attributes, (probe gxLink (setup attributes)).outcome gxRound.answer =
      .ok (gx gxLink (setup attributes) : Victron Rat) :=
    fun _ => outcome_probe_gx gxLink hcharger
  refine ⟨_, _, hprobe _, hprobe _, hc, ?_, ?_⟩
  · rw [usageIn_eq hbattery rfl (hprobe _) hc htotals]
    decide +kernel
  · rw [usageIn_eq hbattery rfl (hprobe _) hc htotals]
    decide +kernel

end HomeMetering.Meter.Victron
