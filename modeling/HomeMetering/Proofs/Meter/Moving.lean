import HomeMetering.Proofs.Meter.Asking
import HomeMetering.Proofs.Meter.PhaseCount

/-!
# Kept values that change their line

A meter of a GX writes what it keeps with the number of phases that it knows by then. The service
may have told nothing in the polls that read the values: they were taken for those of three phases.
Once it tells of a single phase, what is kept of the first phase goes to the first line of the
meter, and what is kept of the other phases goes nowhere.
-/

namespace HomeMetering.Meter

open Electricity Modbus Site Site.Job

variable {K : Type} [Quantity K]

/-! ## One cache, two layouts -/

/-- What is kept of one attribute of one phase. -/
def Cache.cell {K : Type} (c : Cache K) : Attribute → Nat → Readings.Cell K
  | .state, phase => .state (c.state.at phase)
  | .usage, phase => .usage (c.usage.at phase)

/-- Whether a single phase feeds the lines with what three phases feed them with. -/
def StaysPut (lines : List LineIndex) (a : Attribute) (r : Readings K) : Prop :=
  ∀ line ∈ lines, line = 0 ∧ lines.head? = some 0 ∨ r.cell a line = Readings.zero.cell a line

theorem cell_zero (a : Attribute) {line : LineIndex} (h : line < lineCount) :
    (Readings.zero : Readings K).cell a line = (Cache.empty : Cache K).cell a 0 := by
  match line, h with
  | 0, _ | 1, _ | 2, _ => cases a <;> rfl

section

variable {setup : Setup} {singlePhase : Bool} {c c' : Cache K} {r r' : Readings K}

theorem Shows.cell_of_mem (h : Shows setup singlePhase c.state c.usage r) (a : Attribute)
    {pair : Nat × LineIndex} (hpair : pair ∈ phasePairs setup.lines singlePhase) :
    r.cell a pair.2 = c.cell a pair.1 := by
  cases a with
  | state => exact congrArg _ (h.lines pair hpair).1
  | usage => exact congrArg _ (h.lines pair hpair).2

theorem Shows.cell_of_not_mem (h : Shows setup singlePhase c.state c.usage r) (a : Attribute)
    {line : LineIndex} (hline : ∀ pair ∈ phasePairs setup.lines singlePhase, pair.2 ≠ line) :
    r.cell a line = Readings.zero.cell a line := by
  cases a with
  | state => exact congrArg _ (h.others line hline).1
  | usage => exact congrArg _ (h.others line hline).2

theorem Shows.cell_congr (h : Shows setup singlePhase c.state c.usage r)
    (h' : Shows setup singlePhase c'.state c'.usage r') {a : Attribute}
    (hkept : ∀ phase, c'.cell a phase = c.cell a phase) (line : LineIndex) :
    r'.cell a line = r.cell a line := by
  by_cases hfed : ∃ pair ∈ phasePairs setup.lines singlePhase, pair.2 = line
  · obtain ⟨pair, hpair, rfl⟩ := hfed
    rw [h.cell_of_mem a hpair, h'.cell_of_mem a hpair, hkept]
  · have hnot : ∀ pair ∈ phasePairs setup.lines singlePhase, pair.2 ≠ line :=
      fun pair hpair hline => hfed ⟨pair, hpair, hline⟩
    rw [h.cell_of_not_mem a hnot, h'.cell_of_not_mem a hnot]

section

variable (hlines : ∀ line ∈ setup.lines, line < lineCount)
  (h : Shows setup false c.state c.usage r) (a : Attribute)

include hlines h

theorem Shows.cell_of_three {line : LineIndex} (hline : line ∈ setup.lines) :
    r.cell a line = c.cell a line :=
  h.cell_of_mem a (mem_phasePairs_iff.2 ⟨rfl, hline, hlines line hline⟩ :
    (line, line) ∈ phasePairs setup.lines false)

omit hlines in
theorem Shows.cell_of_three_not_mem {line : LineIndex} (hline : line ∉ setup.lines) :
    r.cell a line = Readings.zero.cell a line :=
  h.cell_of_not_mem a fun _ hpair hline' => hline (hline' ▸ mem_phasePairs hpair)

end

section

variable (h : Shows setup true c.state c.usage r) (a : Attribute) {line : LineIndex}

include h

theorem Shows.cell_of_head (hline : setup.lines.head? = some line) :
    r.cell a line = c.cell a 0 :=
  h.cell_of_mem a (mem_phasePairs_iff.2 ⟨rfl, hline⟩ : (0, line) ∈ phasePairs setup.lines true)

theorem Shows.cell_of_not_head (hline : setup.lines.head? ≠ some line) :
    r.cell a line = Readings.zero.cell a line := by
  refine h.cell_of_not_mem a fun pair hpair hpairline => hline ?_
  rw [← hpairline]
  exact (mem_phasePairs_iff.1 hpair).2

end

theorem Shows.cell_eq_iff (hlines : ∀ line ∈ setup.lines, line < lineCount)
    (h : Shows setup false c.state c.usage r) (h' : Shows setup true c'.state c'.usage r')
    {a : Attribute} (hkept : ∀ phase, c'.cell a phase = c.cell a phase)
    (hunread : 0 ∉ setup.lines → c.cell a 0 = (Cache.empty : Cache K).cell a 0) :
    (∀ line, r'.cell a line = r.cell a line) ↔ StaysPut setup.lines a r := by
  constructor
  · intro hsame line hline
    rw [← hsame line, cell_zero a (hlines line hline)]
    by_cases hhead : setup.lines.head? = some line
    · by_cases hzero : line = 0
      · exact .inl ⟨hzero, hzero ▸ hhead⟩
      · -- The first phase feeds another line now, so it has to be kept as zero.
        refine .inr ?_
        rw [h'.cell_of_head a hhead, hkept]
        by_cases hfirst : 0 ∈ setup.lines
        · have hother : setup.lines.head? ≠ some 0 := by
            rw [hhead]
            exact fun heq => hzero (Option.some.inj heq)
          rw [← h.cell_of_three hlines a hfirst, ← hsame 0, h'.cell_of_not_head a hother]
          exact cell_zero a (by decide)
        · exact hunread hfirst
    · exact .inr ((h'.cell_of_not_head a hhead).trans (cell_zero a (hlines line hline)))
  · intro hput line
    by_cases hhead : setup.lines.head? = some line
    · have hline : line ∈ setup.lines := List.mem_of_mem_head? hhead
      rw [h'.cell_of_head a hhead, hkept]
      rcases hput line hline with ⟨rfl, -⟩ | hzero
      · exact (h.cell_of_three hlines a hline).symm
      · rw [hzero, cell_zero a (hlines line hline)]
        by_cases hfirst : 0 ∈ setup.lines
        · rcases hput 0 hfirst with ⟨-, hhead'⟩ | hzero'
          · obtain rfl : line = 0 := Option.some.inj (hhead.symm.trans hhead')
            rw [← h.cell_of_three hlines a hfirst, hzero]
            exact cell_zero a (by decide)
          · rw [← h.cell_of_three hlines a hfirst, hzero']
            exact cell_zero a (by decide)
        · exact hunread hfirst
    · rw [h'.cell_of_not_head a hhead]
      by_cases hline : line ∈ setup.lines
      · rcases hput line hline with ⟨rfl, hhead'⟩ | hzero
        · exact absurd hhead' hhead
        · exact hzero.symm
      · exact (h.cell_of_three_not_mem a hline).symm

end

namespace Victron

/-! ## Polls -/

/-- The block that an attribute is read from. -/
def Service.block (s : Service) : Attribute → Block
  | .state => s.instantBlock
  | .usage => s.totalsBlock

/-- What a meter makes of the registers of an attribute. -/
def decoded (m : Victron K) (registers : List UInt16) : Attribute → Nat → Readings.Cell K
  | .state, phase =>
    .state ((m.service.instantData.stateOf m.link.encoding asReported m.phases registers).at phase)
  | .usage, phase => .usage ((usageOf m.service m.link.encoding m.phases registers).at phase)

/-- Whether a poll reads a number of phases of one. -/
def HearsOfOnePhase (m : Victron K) (c : Round) : Prop :=
  ∃ rest, 1 :: rest ∈ m.readIn c m.service.phaseCountBlock

theorem Service.serialBlock_ne (s : Service) :
    s.serialBlock ≠ s.phaseCountBlock ∧ ∀ a, s.serialBlock ≠ s.block a := by
  cases s <;> exact ⟨by decide, fun a => by cases a <;> decide⟩

theorem Service.phaseCountBlock_ne (s : Service) (a : Attribute) :
    s.phaseCountBlock ≠ s.block a := by
  cases s <;> cases a <;> decide

theorem Service.instantBlock_ne (s : Service) : s.instantBlock ≠ s.totalsBlock := by
  cases s <;> decide

omit [Quantity K] in
theorem outcome_identified_eq (m : Victron K) (c : Round) :
    m.identified.outcome c.answer =
      if m.setup.has .state && !m.isIdentified then
        match c.read? m.link m.service.serialBlock with
        | none => m
        | some registers =>
          { m with
            serviceSerial := asciiText registers
            isIdentified := true
            phaseCount :=
              ((c.read? m.link m.service.phaseCountBlock).map (·.headD 0)).or m.phaseCount }
      else m := by
  unfold identified
  split_ifs with h
  · unfold identify
    rw [outcome_seq, ← c.outcome_read]
    cases (m.link.read m.service.serialBlock).outcome c.answer with
    | error e => rfl
    | ok registers =>
      dsimp only [Except.toOption]
      rw [outcome_seq, ← c.outcome_read]
      unfold service
      dsimp only
      cases (m.link.read (Service.of m.setup.role).phaseCountBlock).outcome c.answer <;> rfl
  · rfl

omit [Quantity K] in
theorem asks_identified (m : Victron K) (c : Round) (block : Block) :
    c.reads m.link block m.identified =
      if m.setup.has .state && !m.isIdentified then
        c.reads m.link block (m.link.read m.service.serialBlock) ++
          if (c.read? m.link m.service.serialBlock).isSome then
            c.reads m.link block (m.link.read m.service.phaseCountBlock)
          else []
      else [] := by
  unfold identified
  split_ifs with h hserial
  · unfold identify
    rw [Round.reads_seq]
    congr 1
    rw [← c.outcome_read] at hserial
    cases hread : (m.link.read m.service.serialBlock).outcome c.answer with
    | error e => simp [hread, Except.toOption] at hserial
    | ok registers =>
      dsimp only
      rw [Round.reads_seq]
      unfold service
      dsimp only
      cases (m.link.read (Service.of m.setup.role).phaseCountBlock).outcome c.answer <;>
        exact List.append_nil _
  · unfold identify
    rw [Round.reads_seq]
    congr 1
    rw [← c.outcome_read] at hserial
    cases hread : (m.link.read m.service.serialBlock).outcome c.answer with
    | error e => rfl
    | ok registers => simp [hread, Except.toOption] at hserial
  · rfl

omit [Quantity K] in
theorem outcome_readInstant (m : Victron K) (c : Round) :
    (m.readInstant.outcome c.answer).toOption =
      (c.read? m.link m.service.instantBlock).map
        (m.service.instantData.stateOf m.link.encoding asReported m.phases) :=
  c.outcome_map m.link m.service.instantBlock _

omit [Quantity K] in
theorem identified_keeps (m : Victron K) (c : Round) :
    (m.identified.outcome c.answer).link = m.link ∧
      (m.identified.outcome c.answer).setup = m.setup ∧
      (m.identified.outcome c.answer).cache = m.cache := by
  rw [outcome_identified_eq]
  split_ifs
  · cases c.read? m.link m.service.serialBlock <;> exact ⟨rfl, rfl, rfl⟩
  · exact ⟨rfl, rfl, rfl⟩

section

variable {m : Victron K} (hrole : m.setup.role ≠ .battery) (c : Round)

include hrole

theorem polled_eq :
    m.polled c =
      let m' := m.identified.outcome c.answer
      let kept := (poll m'.setup c.now m'.cache m'.readInstant m'.readTotals).outcome c.answer
      (kept.1, kept.2.fill m'.setup m'.isSinglePhase .zero, { m' with cache := kept.2 }) := by
  unfold polled
  rw [update_of_lines _ hrole, outcome_seq, outcome_seq]
  rfl

theorem readIn_eq (block : Block) :
    m.readIn c block =
      c.reads m.link block m.identified ++
        ((if m.setup.has .state then c.reads m.link block (m.link.read m.service.instantBlock)
          else []) ++
        if m.setup.has .usage ∧ m.cache.gate.last ≠ some c.minute then
          c.reads m.link block (m.link.read m.service.totalsBlock)
        else []) := by
  obtain ⟨hlink, hsetup, hcache⟩ := m.identified_keeps c
  unfold readIn
  rw [update_of_lines _ hrole, Round.reads_seq]
  dsimp only
  rw [Round.reads_map, Round.reads_poll, readInstant, readTotals, Round.reads_map,
    Round.reads_map, service, hlink, hsetup, hcache]
  rfl

theorem readIn_block (a : Attribute) :
    m.readIn c (m.service.block a) =
      if m.setup.has a ∧ (a = .usage → m.cache.gate.last ≠ some c.minute) then
        (c.read? m.link (m.service.block a)).toList
      else [] := by
  obtain ⟨-, hserial⟩ := m.service.serialBlock_ne
  rw [readIn_eq hrole, asks_identified, Round.reads_of_ne _ _ _ (hserial a),
    Round.reads_of_ne _ _ _ (m.service.phaseCountBlock_ne a), List.nil_append, ite_self, ite_self,
    List.nil_append]
  cases a with
  | state =>
    rw [Service.block, Round.reads_self, Round.reads_of_ne _ _ _ m.service.instantBlock_ne.symm,
      ite_self, List.append_nil]
    simp
  | usage =>
    rw [Service.block, Round.reads_self, Round.reads_of_ne _ _ _ m.service.instantBlock_ne,
      ite_self, List.nil_append]
    simp

theorem readIn_phaseCountBlock :
    m.readIn c m.service.phaseCountBlock =
      if (m.setup.has .state && !m.isIdentified) ∧
          (c.read? m.link m.service.serialBlock).isSome then
        (c.read? m.link m.service.phaseCountBlock).toList
      else [] := by
  obtain ⟨hserial, -⟩ := m.service.serialBlock_ne
  have hinstant : m.service.instantBlock ≠ m.service.phaseCountBlock :=
    (m.service.phaseCountBlock_ne .state).symm
  have htotals : m.service.totalsBlock ≠ m.service.phaseCountBlock :=
    (m.service.phaseCountBlock_ne .usage).symm
  rw [readIn_eq hrole, asks_identified, Round.reads_of_ne _ _ _ hserial, Round.reads_self,
    Round.reads_of_ne _ _ _ hinstant, Round.reads_of_ne _ _ _ htotals, ite_self, ite_self,
    List.append_nil, List.append_nil, List.nil_append, ← ite_and]

theorem cache_polled :
    let m' := m.identified.outcome c.answer
    (m.polled c).2.2.cache =
      { m.cache with
        state := (if m.setup.has .state then
            (c.read? m.link m.service.instantBlock).map
              (m.service.instantData.stateOf m.link.encoding asReported m'.phases)
          else none).getD m.cache.state
        usage := if m.cache.gate.last = some c.minute then m.cache.usage
          else (if m.setup.has .usage then
              (c.read? m.link m.service.totalsBlock).map
                (usageOf m.service m.link.encoding m'.phases)
            else none).getD m.cache.usage
        gate := if m.setup.has .usage then ⟨some c.minute⟩ else m.cache.gate } := by
  intro m'
  obtain ⟨hlink, hsetup, hcache⟩ := m.identified_keeps c
  have hinstant := m'.outcome_readInstant c
  rw [service, hlink, hsetup] at hinstant
  have htotals := outcome_readTotals c m'
  rw [service, hlink, hsetup] at htotals
  rw [polled_eq hrole]
  dsimp only
  rw [outcome_poll, hinstant, htotals, hsetup, hcache]
  rfl

theorem cell_polled (a : Attribute) (phase : Nat) :
    (m.polled c).2.2.cache.cell a phase =
      match m.readIn c (m.service.block a) with
      | [] => m.cache.cell a phase
      | registers :: _ => (m.identified.outcome c.answer).decoded registers a phase := by
  obtain ⟨hlink, hsetup, -⟩ := m.identified_keeps c
  rw [readIn_block hrole, cache_polled hrole]
  unfold decoded service
  rw [hlink, hsetup]
  cases a with
  | state =>
    by_cases hhas : m.setup.has .state
    · cases hread : c.read? m.link (Service.of m.setup.role).instantBlock <;>
        simp [Cache.cell, hhas, Service.block, hread]
    · simp [Cache.cell, hhas]
  | usage =>
    by_cases hhas : m.setup.has .usage
    · by_cases hgate : m.cache.gate.last = some c.minute
      · simp [Cache.cell, hgate]
      · cases hread : c.read? m.link (Service.of m.setup.role).totalsBlock <;>
          simp [Cache.cell, hhas, hgate, Service.block, hread]
    · simp [Cache.cell, hhas]

theorem setup_polled : (m.polled c).2.2.setup = m.setup := by
  rw [polled_eq hrole]
  exact (m.identified_keeps c).2.1

theorem link_polled : (m.polled c).2.2.link = m.link := by
  rw [polled_eq hrole]
  exact (m.identified_keeps c).1

theorem shown_polled :
    (m.polled c).2.1 =
      (m.polled c).2.2.cache.fill (m.polled c).2.2.setup (m.polled c).2.2.isSinglePhase .zero := by
  rw [polled_eq hrole]
  rfl

theorem HearsOfOnePhase.isSinglePhase_eq_false {c : Round} (h : m.HearsOfOnePhase c)
    (hknown : m.isIdentified = false → m.phaseCount = none) : m.isSinglePhase = false := by
  obtain ⟨rest, hread⟩ := h
  rw [readIn_phaseCountBlock hrole] at hread
  split_ifs at hread with hasks
  · simp only [Bool.and_eq_true, Bool.not_eq_true'] at hasks
    simp [isSinglePhase, hknown hasks.1.2]
  · cases hread

theorem isSinglePhase_polled_eq :
    (m.polled c).2.2.isSinglePhase = (m.identified.outcome c.answer).isSinglePhase := by
  rw [polled_eq hrole]
  rfl

theorem isSinglePhase_polled (hknown : m.isIdentified = false → m.phaseCount = none) :
    (m.polled c).2.2.isSinglePhase = true ↔ m.isSinglePhase = true ∨ m.HearsOfOnePhase c := by
  rw [isSinglePhase_polled_eq hrole, outcome_identified_eq]
  unfold HearsOfOnePhase
  rw [readIn_phaseCountBlock hrole]
  by_cases hasks : (m.setup.has .state && !m.isIdentified) = true
  · have hnone : m.phaseCount = none := by
      simp only [Bool.and_eq_true, Bool.not_eq_true'] at hasks
      exact hknown hasks.2
    rw [if_pos hasks]
    cases hserial : c.read? m.link m.service.serialBlock with
    | none => simp
    | some registers =>
      rw [if_pos ⟨hasks, rfl⟩]
      cases hcount : c.read? m.link m.service.phaseCountBlock with
      | none => simp [isSinglePhase, hnone]
      | some count =>
        cases count with
        | nil => simp [isSinglePhase, hnone]
        | cons n rest => simpa [isSinglePhase, hnone] using eq_comm
  · rw [if_neg hasks, if_neg fun h => hasks h.1]
    simp

end

/-! ## Runs -/

/-- What holds of a meter of lines from the moment it is found. -/
structure Coherent (m : Victron K) : Prop where
  role : m.setup.role ≠ .battery
  known : m.isIdentified = false → m.phaseCount = none
  state : ¬ m.setup.has .state → m.cache.state = .zero
  usage : ¬ m.setup.has .usage → m.cache.usage = .zero
  /-- As long as there seem to be three phases, the first is read for the first line. -/
  unread : m.isSinglePhase = false → 0 ∉ m.setup.lines →
    ∀ a, m.cache.cell a 0 = (Cache.empty : Cache K).cell a 0

theorem at_usageOf_of_not_mem (s : Service) (e : Encoding) {phases : List Nat}
    (registers : List UInt16) {phase : Nat} (h : phase ∉ phases) :
    (usageOf s e phases registers : Usage K).at phase = Usage.zero.at phase := by
  cases s with
  | grid =>
    refine foldl_keeps (fun u : Usage K => u.at phase) .zero fun u p hp => ?_
    have hne : p ≠ phase := fun heq => h (heq ▸ hp)
    simp [Usage.at, PerLine.get?_set, hne]
  | inverter =>
    refine foldl_keeps (fun u : Usage K => u.at phase) .zero fun u p hp => ?_
    have hne : p ≠ phase := fun heq => h (heq ▸ hp)
    simp [Usage.at, PerLine.get?_set, hne]

theorem decoded_of_not_mem {m : Victron K} (registers : List UInt16) (a : Attribute) {phase : Nat}
    (h : phase ∉ m.phases) :
    m.decoded registers a phase = (Cache.empty : Cache K).cell a phase := by
  cases a with
  | state => exact congrArg Readings.Cell.state (InstantData.at_stateOf_of_not_mem _ _ _ _ h)
  | usage => exact congrArg Readings.Cell.usage (at_usageOf_of_not_mem _ _ _ h)

theorem coherent_of_probe {link : Link} {setup : Setup} {answer : (q : Request) → q.Answer}
    {m : Victron K} (h : (probe link setup).outcome answer = .ok m)
    (hrole : setup.role ≠ .battery) : m.Coherent := by
  obtain ⟨-, rfl, -, hcount, hcache⟩ := (all_probe_fresh link setup).outcome answer m h
  have hkept : m.cache.state = .zero ∧ m.cache.usage = .zero := by
    rw [hcache]
    exact ⟨rfl, rfl⟩
  refine ⟨hrole, fun _ => hcount, fun _ => hkept.1, fun _ => hkept.2, fun _ _ a => ?_⟩
  rw [hcache]

namespace Coherent

variable {m : Victron K} (h : m.Coherent)

include h

theorem known_polled (c : Round) (hnot : (m.polled c).2.2.isIdentified = false) :
    (m.polled c).2.2.phaseCount = none := by
  rw [polled_eq h.role] at hnot ⊢
  dsimp only at hnot ⊢
  rw [outcome_identified_eq] at hnot ⊢
  split_ifs at hnot ⊢
  · cases hserial : c.read? m.link m.service.serialBlock with
    | none => exact h.known (by simpa [hserial] using hnot)
    | some registers => simp [hserial] at hnot
  · exact h.known hnot

theorem unread_polled (c : Round) (hsingle : (m.polled c).2.2.isSinglePhase = false)
    (hfirst : 0 ∉ m.setup.lines) (a : Attribute) :
    (m.polled c).2.2.cache.cell a 0 = (Cache.empty : Cache K).cell a 0 := by
  have hbefore : m.isSinglePhase = false := by
    rw [← Bool.not_eq_true] at hsingle ⊢
    exact fun hm => hsingle ((isSinglePhase_polled h.role c h.known).2 (.inl hm))
  have hphases : 0 ∉ (m.identified.outcome c.answer).phases := by
    unfold phases
    rw [← isSinglePhase_polled_eq h.role, hsingle, (m.identified_keeps c).2.1]
    exact fun hmem => hfirst (List.mem_filter.1 hmem).1
  rw [cell_polled h.role]
  cases m.readIn c (m.service.block a) with
  | nil => exact h.unread hbefore hfirst a
  | cons registers _ => exact decoded_of_not_mem registers a hphases

theorem polled (c : Round) : (m.polled c).2.2.Coherent := by
  have hsetup := setup_polled h.role c
  refine ⟨?_, h.known_polled c, ?_, ?_, ?_⟩
  · rw [hsetup]
    exact h.role
  · rw [hsetup, cache_polled h.role]
    intro hhas
    simp [hhas, h.state hhas]
  · rw [hsetup, cache_polled h.role]
    intro hhas
    simp [hhas, h.usage hhas]
  · rw [hsetup]
    exact h.unread_polled c

theorem shows_polled (hlines : ∀ line ∈ m.setup.lines, line < lineCount) (c : Round) :
    Shows m.setup (m.polled c).2.2.isSinglePhase (m.polled c).2.2.cache.state
      (m.polled c).2.2.cache.usage (m.polled c).2.1 := by
  have hpolled := h.polled c
  have hsetup := setup_polled h.role c
  rw [shown_polled h.role, hsetup]
  refine shows_fill hlines _ ?_ ?_
  · rw [← hsetup]
    exact hpolled.state
  · rw [← hsetup]
    exact hpolled.usage

omit h in
theorem after (h : m.Coherent) (rounds : List Round) :
    (m.after rounds).Coherent ∧ (m.after rounds).setup = m.setup ∧
      (m.after rounds).link = m.link := by
  refine after_induction (P := fun m' => m'.Coherent ∧ m'.setup = m.setup ∧ m'.link = m.link) ?_
    ⟨h, rfl, rfl⟩ rounds
  rintro m' c ⟨hm', hsetup, hlink⟩
  exact ⟨hm'.polled c, (setup_polled hm'.role c).trans hsetup, (link_polled hm'.role c).trans hlink⟩

end Coherent

/-- The lines of an attribute that a poll does not read are those of the poll before it, except
where the poll first hears of a single phase and the lines do not stay put. -/
theorem keepsLines_iff {slot : SlotConfig} {role : Role} (hrole : role = .grid ∨ role = .pv)
    (hslot : slot.fault? role = none) {link : Link} {probed : (q : Request) → q.Answer}
    {m : Victron K} (hfound : (probe link (slot.slot role).setup).outcome probed = .ok m)
    (rounds : List Round) (d c : Round) (a : Attribute)
    (hunread : (m.after (rounds ++ [d])).readIn c (m.service.block a) = []) :
    (∀ line, (m.shown (rounds ++ [d]) c).cell a line = (m.shown rounds d).cell a line) ↔
      ((m.after (rounds ++ [d])).HearsOfOnePhase c →
        StaysPut m.setup.lines a (m.shown rounds d)) := by
  have hbattery : (slot.slot role).setup.role ≠ .battery := by
    rcases hrole with rfl | rfl <;> exact nofun
  obtain ⟨hbefore, hsetup, -⟩ := (coherent_of_probe hfound hbattery).after (rounds ++ [d])
  have hlines : ∀ line ∈ m.setup.lines, line < lineCount := by
    rw [((all_probe_fresh _ _).outcome probed m hfound).2.1]
    exact slot.lines_lt hslot
  have hshown : Shows m.setup (m.after (rounds ++ [d])).isSinglePhase
      (m.after (rounds ++ [d])).cache.state (m.after (rounds ++ [d])).cache.usage
      (m.shown rounds d) := by
    obtain ⟨hearlier, hsetup', -⟩ := (coherent_of_probe hfound hbattery).after rounds
    rw [after_snoc, ← hsetup']
    exact hearlier.shows_polled (hsetup' ▸ hlines) d
  have hnow := hbefore.shows_polled (hsetup ▸ hlines) c
  rw [hsetup] at hnow
  have hkept : ∀ phase, ((m.after (rounds ++ [d])).polled c).2.2.cache.cell a phase =
      (m.after (rounds ++ [d])).cache.cell a phase := by
    intro phase
    rw [cell_polled hbefore.role, service, hsetup, ← service, hunread]
  have hcount := isSinglePhase_polled hbefore.role c hbefore.known
  by_cases hears : (m.after (rounds ++ [d])).HearsOfOnePhase c
  · have hsingle := hears.isSinglePhase_eq_false hbefore.role hbefore.known
    rw [hsingle] at hshown
    rw [hcount.2 (.inr hears)] at hnow
    rw [imp_iff_right hears]
    exact hshown.cell_eq_iff hlines hnow hkept fun hfirst =>
      hbefore.unread hsingle (hsetup ▸ hfirst) a
  · have hsame : ((m.after (rounds ++ [d])).polled c).2.2.isSinglePhase =
        (m.after (rounds ++ [d])).isSinglePhase := by
      rw [Bool.eq_iff_iff, hcount, or_iff_left hears]
    rw [hsame] at hnow
    exact iff_of_true (hshown.cell_congr hnow hkept) fun h => absurd h hears

/-! ## A service that tells late -/

def secondLineSlot : SlotConfig :=
  ⟨"tcp://gx", .modbus, some .victron, 30, 0, [1], [.state, .usage], 1000⟩

/-- The second of three phases counts, the first does not. -/
def secondPhase : List UInt16 := [0, 0, 0, 10000] ++ List.replicate 12 0

/-- A round in which a service keeps its serial number to itself. -/
def untoldRound : Round := Round.answering [(Service.totalsBlock .grid, secondPhase)]

/-- A round in which it tells of a single phase, and of nothing else. -/
def toldRound : Round :=
  Round.answering
    [(Service.serialBlock .grid, List.replicate 7 0x4141), (Service.phaseCountBlock .grid, [1])]

theorem secondLine_found :
    (probe gxLink (secondLineSlot.slot .grid).setup).outcome gxRound.answer =
      .ok (gx gxLink (secondLineSlot.slot .grid).setup : Victron Rat) :=
  outcome_probe_gx gxLink (by decide)

theorem silence_keeps_lines :
    let m : Victron Rat := gx gxLink (secondLineSlot.slot .grid).setup
    secondLineSlot.fault? .grid = none ∧
      (m.after [untoldRound]).readIn (Round.answering []) (m.service.block .usage) = [] ∧
      ∀ line, (m.shown [untoldRound] (Round.answering [])).cell .usage line =
        (m.shown [] untoldRound).cell .usage line := by
  intro m
  have hslot : secondLineSlot.fault? .grid = none := by decide +kernel
  have hunread : (m.after ([] ++ [untoldRound])).readIn (Round.answering [])
      (m.service.block .usage) = [] := by decide +kernel
  have hnone : (m.after ([] ++ [untoldRound])).readIn (Round.answering [])
      (m.after ([] ++ [untoldRound])).service.phaseCountBlock = [] := by decide +kernel
  have hnot : ¬ (m.after ([] ++ [untoldRound])).HearsOfOnePhase (Round.answering []) := by
    rintro ⟨rest, hread⟩
    rw [hnone] at hread
    cases hread
  exact ⟨hslot, hunread, (keepsLines_iff (.inl rfl) hslot secondLine_found [] untoldRound
    (Round.answering []) .usage hunread).2 fun hears => absurd hears hnot⟩

/-- A counter that was not read is lost from its line once the service tells of a single phase. -/
theorem one_phase_moves_counters :
    ∃ m : Victron Rat,
      (probe gxLink (secondLineSlot.slot .grid).setup).outcome gxRound.answer = .ok m ∧
        secondLineSlot.fault? .grid = none ∧
        (m.after [untoldRound]).readIn toldRound (m.service.block .usage) = [] ∧
        (m.shown [] untoldRound).usage.at 1 = (some 100, some 0) ∧
        (m.shown [untoldRound] toldRound).usage.at 1 = (some 0, some 0) :=
  ⟨_, secondLine_found, by decide +kernel, by decide +kernel, by decide +kernel, by decide +kernel⟩

end Victron

end HomeMetering.Meter
