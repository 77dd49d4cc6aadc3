import HomeMetering.Proofs.Config.Claims
import HomeMetering.Proofs.Meter.Counting
import Mathlib.Data.List.Induction

/-!
# What is kept when reads fail

A meter on a bus answers every poll with what it read last, be it in this poll or in an earlier one.
Instant values are those of one block that was read as a whole; counters are those of one poll in
which all their blocks were. Whatever fails in between leaves both as they are.
-/

namespace HomeMetering.Meter

open Electricity Modbus Site Site.Job

/-! ## Rounds -/

/-- One poll: when it happens, and what its requests are answered. -/
structure Round where
  now : Instant
  answer : (q : Request) → q.Answer

namespace Round

def minute (c : Round) : Nat := c.now.minuteOfHour

/-- The registers of a block; none when the read fails or gives fewer than were asked for. -/
def read? (c : Round) (link : Link) (block : Block) : Option (List UInt16) :=
  (block.accept (c.answer (.read link.client block))).toOption

theorem outcome_read (c : Round) (link : Link) (block : Block) :
    ((link.read block).outcome c.answer).toOption = c.read? link block := rfl

theorem outcome_map {α : Type} (c : Round) (link : Link) (block : Block) (f : List UInt16 → α) :
    (outcome c.answer do
      let registers ← link.read block
      return registers.map f).toOption = (c.read? link block).map f := by
  rw [outcome_seq, ← c.outcome_read]
  cases (link.read block).outcome c.answer <;> rfl

end Round

/-- The rounds in which counters are read: those in another minute than the round before. -/
def turns (last : Option Nat) : List Round → List Round
  | [] => []
  | c :: rounds =>
    if last = some c.minute then turns last rounds else c :: turns (some c.minute) rounds

theorem turns_snoc (last : Option Nat) (rounds : List Round) (c : Round) :
    turns last (rounds ++ [c]) =
      turns last rounds ++
        if (rounds.getLast?.map Round.minute).or last = some c.minute then [] else [c] := by
  induction rounds generalizing last with
  | nil =>
    by_cases hsame : last = some c.minute <;> simp [turns, hsame]
  | cons d rounds ih =>
    have hlast : ((d :: rounds).getLast?.map Round.minute).or last =
        (rounds.getLast?.map Round.minute).or (some d.minute) := by
      rw [List.getLast?_cons]
      cases rounds.getLast? <;> rfl
    have htail := ih (some d.minute)
    rw [List.cons_append, turns, turns, hlast]
    by_cases hsame : last = some d.minute
    · rw [if_pos hsame, if_pos hsame, hsame, htail]
    · rw [if_neg hsame, if_neg hsame, htail, List.cons_append]

variable {K : Type} [Quantity K]

/-! ## What rounds read -/

def Abb.instantRead? (c : Round) (m : Abb K) : Option State :=
  (c.read? m.link instantBlock).map (instantData.stateOf m.link.encoding asReported m.phases)

/-- Counters of a device with three phases take two blocks. -/
def Abb.totalsRead? (c : Round) (m : Abb K) : Option (Usage K) := do
  let totals ← c.read? m.link totalsBlock
  if m.family.isSinglePhase then return singleUsage m.link.encoding totals
  else return threePhaseUsage m.link.encoding m.phases totals (← c.read? m.link phasesBlock)

def CarloGavazzi.instantRead? (c : Round) (m : CarloGavazzi K) : Option State :=
  let single := m.family.isSinglePhase
  (c.read? m.link (instantBlock single)).map
    ((instantData single).stateOf m.link.encoding withSignOf m.phases)

def CarloGavazzi.totalsRead? (c : Round) (m : CarloGavazzi K) : Option (Usage K) :=
  let data : CounterData K := counterData m.family.isSinglePhase
  (c.read? m.link data.block).map (usageOf data m.link.encoding m.phases)

/-- The instant values that a round reads, if it reads any. -/
def stateRead? (m : Meter K) (c : Round) : Option State :=
  match m with
  | abb m => if m.setup.has .state then m.instantRead? c else none
  | carloGavazzi m => if m.setup.has .state then m.instantRead? c else none
  | _ => none

/-- The counters that a round reads, if it reads any. -/
def usageRead? (m : Meter K) (c : Round) : Option (Usage K) :=
  match m with
  | abb m => if m.setup.has .usage then m.totalsRead? c else none
  | carloGavazzi m => if m.setup.has .usage then m.totalsRead? c else none
  | _ => none

/-- The instant values that were read last. -/
def latestState? (m : Meter K) (rounds : List Round) : Option State :=
  (rounds.filterMap m.stateRead?).getLast?

/-- The counters that were read last, when the minute called for them. -/
def latestUsage? (m : Meter K) (rounds : List Round) : Option (Usage K) :=
  ((turns none rounds).filterMap m.usageRead?).getLast?

/-- The meter after some rounds. -/
def after (m : Meter K) (rounds : List Round) : Meter K :=
  rounds.foldl (fun m c => ((m.update c.now .zero).outcome c.answer).2.2) m

def isSinglePhase {K : Type} : Meter K → Bool
  | abb m => m.family.isSinglePhase
  | carloGavazzi m => m.family.isSinglePhase
  | victron m => m.isSinglePhase
  | _ => false

/-- A meter of ABB's or of Carlo Gavazzi's that was found for a setup. -/
inductive FoundFor (setup : Setup) : Meter K → Prop
  | abb {link : Link} {answer : (q : Request) → q.Answer} {m : Abb K}
      (found : (Abb.probe link setup).outcome answer = .ok m) : FoundFor setup (.abb m)
  | carloGavazzi {link : Link} {answer : (q : Request) → q.Answer} {m : CarloGavazzi K}
      (found : (CarloGavazzi.probe link setup).outcome answer = .ok m) :
      FoundFor setup (.carloGavazzi m)

/-! ## What a round keeps -/

omit [Quantity K] in
theorem outcome_pollState (answer : (q : Request) → q.Answer) (setup : Setup) (cache : Cache K)
    (instant : Job (Except BusError State)) :
    (pollState setup cache instant).outcome answer =
      let state := if setup.has .state then (instant.outcome answer).toOption else none
      (state.any (cache.state != ·), { cache with state := state.getD cache.state }) := by
  unfold pollState
  split_ifs
  · rw [outcome_seq]
    cases instant.outcome answer <;> rfl
  · rfl

omit [Quantity K] in
/-- Whether they were read or not, the minute in which counters were due passes. -/
theorem outcome_pollUsage (answer : (q : Request) → q.Answer) (setup : Setup) (now : Instant)
    (cache : Cache K) (totals : Job (Except BusError (Usage K))) :
    (pollUsage setup now cache totals).outcome answer =
      let usage := if setup.has .usage then (totals.outcome answer).toOption else none
      { cache with
        usage :=
          if cache.gate.last = some now.minuteOfHour then cache.usage else usage.getD cache.usage
        gate := if setup.has .usage then ⟨some now.minuteOfHour⟩ else cache.gate } := by
  unfold pollUsage MinuteGate.due
  by_cases hhas : setup.has .usage
  · by_cases hsame : cache.gate.last = some now.minuteOfHour
    · have hgate : cache.gate = ⟨some now.minuteOfHour⟩ := congrArg MinuteGate.mk hsame
      simp only [hhas, hsame, if_true, ← hgate]
      rfl
    · simp only [hhas, hsame, if_true, if_false]
      rw [outcome_seq]
      cases totals.outcome answer <;> rfl
  · simp only [hhas, Bool.false_eq_true, if_false, Option.getD_none, ite_self]
    rfl

omit [Quantity K] in
theorem outcome_poll (answer : (q : Request) → q.Answer) (setup : Setup) (now : Instant)
    (cache : Cache K) (instant : Job (Except BusError State))
    (totals : Job (Except BusError (Usage K))) :
    (poll setup now cache instant totals).outcome answer =
      let state := if setup.has .state then (instant.outcome answer).toOption else none
      let usage := if setup.has .usage then (totals.outcome answer).toOption else none
      (state.any (cache.state != ·),
        { cache with
          state := state.getD cache.state
          usage :=
            if cache.gate.last = some now.minuteOfHour then cache.usage else usage.getD cache.usage
          gate := if setup.has .usage then ⟨some now.minuteOfHour⟩ else cache.gate }) := by
  unfold poll
  rw [outcome_seq, outcome_pollState]
  dsimp only
  rw [outcome_seq, outcome_pollUsage]
  rfl

omit [Quantity K] in
theorem Abb.outcome_readInstant (c : Round) (m : Abb K) :
    (m.readInstant.outcome c.answer).toOption = m.instantRead? c :=
  c.outcome_map m.link instantBlock _

theorem Abb.outcome_readTotals (c : Round) (m : Abb K) :
    (m.readTotals.outcome c.answer).toOption = m.totalsRead? c := by
  unfold readTotals totalsRead?
  rw [outcome_seq, ← c.outcome_read]
  cases (m.link.read totalsBlock).outcome c.answer with
  | error e => rfl
  | ok totals =>
    simp only [Except.toOption, Option.bind_eq_bind, Option.bind_some]
    split_ifs
    · rfl
    · exact (c.outcome_map m.link phasesBlock _).trans Option.map_eq_bind

omit [Quantity K] in
theorem CarloGavazzi.outcome_readInstant (c : Round) (m : CarloGavazzi K) :
    (m.readInstant.outcome c.answer).toOption = m.instantRead? c :=
  c.outcome_map m.link (instantBlock m.family.isSinglePhase) _

theorem CarloGavazzi.outcome_readTotals (c : Round) (m : CarloGavazzi K) :
    (m.readTotals.outcome c.answer).toOption = m.totalsRead? c := by
  let data : CounterData K := counterData m.family.isSinglePhase
  exact c.outcome_map m.link data.block (usageOf data m.link.encoding m.phases)

/-- What is kept after a round. -/
def keptNext (m : Meter K) (kept : Cache K) (c : Round) : Cache K :=
  { kept with
    state := (m.stateRead? c).getD kept.state
    usage :=
      if kept.gate.last = some c.minute then kept.usage else (m.usageRead? c).getD kept.usage
    gate := if m.setup.has .usage then ⟨some c.minute⟩ else kept.gate }

theorem outcome_update {setup : Setup} {m : Meter K} (h : m.FoundFor setup) (kept : Cache K)
    (c : Round) :
    ((m.keeping kept).update c.now .zero).outcome c.answer =
      ((m.stateRead? c).any (kept.state != ·),
        (m.keptNext kept c).fill m.setup m.isSinglePhase .zero,
        m.keeping (m.keptNext kept c)) := by
  cases h with
  | @abb link answer m _ =>
    have hpoll := outcome_poll c.answer m.setup c.now kept
      (Abb.readInstant { m with cache := kept }) (Abb.readTotals { m with cache := kept })
    rw [Abb.outcome_readInstant, Abb.outcome_readTotals] at hpoll
    simp only [keeping, update, Abb.update]
    rw [outcome_seq, outcome_seq, hpoll]
    rfl
  | @carloGavazzi link answer m _ =>
    have hpoll := outcome_poll c.answer m.setup c.now kept
      (CarloGavazzi.readInstant { m with cache := kept })
      (CarloGavazzi.readTotals { m with cache := kept })
    rw [CarloGavazzi.outcome_readInstant, CarloGavazzi.outcome_readTotals] at hpoll
    simp only [keeping, update, CarloGavazzi.update]
    rw [outcome_seq, outcome_seq, hpoll]
    rfl

/-! ## What rounds keep -/

omit [Quantity K] in
theorem latestState?_snoc (m : Meter K) (rounds : List Round) (c : Round) :
    m.latestState? (rounds ++ [c]) = (m.stateRead? c).or (m.latestState? rounds) := by
  unfold latestState?
  rw [List.filterMap_append, List.getLast?_append]
  cases hread : m.stateRead? c <;> simp [hread]

theorem latestUsage?_snoc (m : Meter K) (rounds : List Round) (c : Round) :
    m.latestUsage? (rounds ++ [c]) =
      if rounds.getLast?.map Round.minute = some c.minute then m.latestUsage? rounds
      else (m.usageRead? c).or (m.latestUsage? rounds) := by
  unfold latestUsage?
  rw [turns_snoc, Option.or_none]
  split_ifs
  · rw [List.append_nil]
  · rw [List.filterMap_append, List.getLast?_append]
    cases hread : m.usageRead? c <;> simp [hread]

/-- What is kept after some rounds: what was read last, and the minute of the last round. -/
def keptAfter (m : Meter K) (rounds : List Round) : Cache K where
  state := (m.latestState? rounds).getD .zero
  usage := (m.latestUsage? rounds).getD .zero
  battery := .zero
  gate := if m.setup.has .usage then ⟨rounds.getLast?.map Round.minute⟩ else .fresh

omit [Quantity K] in
theorem stateRead?_of_not_has {m : Meter K} (h : ¬ m.setup.has .state) (c : Round) :
    m.stateRead? c = none := by
  cases m <;> first | exact if_neg h | rfl

theorem usageRead?_of_not_has {m : Meter K} (h : ¬ m.setup.has .usage) (c : Round) :
    m.usageRead? c = none := by
  cases m <;> first | exact if_neg h | rfl

theorem keptAfter_state_of_not_has (m : Meter K) (rounds : List Round) (h : ¬ m.setup.has .state) :
    (m.keptAfter rounds).state = .zero := by
  have hnone : rounds.filterMap m.stateRead? = [] :=
    List.filterMap_eq_nil_iff.2 fun c _ => stateRead?_of_not_has h c
  unfold keptAfter latestState?
  rw [hnone]
  rfl

theorem keptAfter_usage_of_not_has (m : Meter K) (rounds : List Round) (h : ¬ m.setup.has .usage) :
    (m.keptAfter rounds).usage = .zero := by
  have hnone : (turns none rounds).filterMap m.usageRead? = [] :=
    List.filterMap_eq_nil_iff.2 fun c _ => usageRead?_of_not_has h c
  unfold keptAfter latestUsage?
  rw [hnone]
  rfl

theorem keptNext_keptAfter (m : Meter K) (rounds : List Round) (c : Round) :
    m.keptNext (m.keptAfter rounds) c = m.keptAfter (rounds ++ [c]) := by
  unfold keptNext keptAfter
  rw [latestState?_snoc, latestUsage?_snoc, List.getLast?_concat, Option.map_some, Option.getD_or]
  by_cases hhas : m.setup.has .usage
  · by_cases hsame : rounds.getLast?.map Round.minute = some c.minute
    · simp only [hhas, if_true, hsame]
    · simp only [hhas, if_true, hsame, if_false, Option.getD_or]
  · simp only [hhas, usageRead?_of_not_has hhas, Option.getD_none, Option.none_or, ite_self]
    rfl

/-! ## Meters that were found -/

theorem Abb.all_probe_setup (link : Link) (setup : Setup) :
    (probe link setup : Job (Except MeterError (Abb K))).All (fun _ => True)
      fun r => ∀ m, r = .ok m → m.setup = setup ∧ m.cache = .empty := by
  refine .bind (.any _) fun designation _ => ?_
  cases designation with
  | error e => exact .done (by simp)
  | ok registers =>
    dsimp only
    split
    · exact .done (by simp)
    · split
      · exact .done (by simp)
      · refine .bind (.any _) fun serial _ => .done ?_
        rintro m ⟨⟩
        exact ⟨rfl, rfl⟩

theorem CarloGavazzi.all_probe_setup (link : Link) (setup : Setup) :
    (probe link setup : Job (Except MeterError (CarloGavazzi K))).All (fun _ => True)
      fun r => ∀ m, r = .ok m → m.setup = setup ∧ m.cache = .empty := by
  refine .bind (.any _) fun model _ => ?_
  cases model with
  | error e => exact .done (by simp)
  | ok registers =>
    dsimp only
    split
    · exact .done (by simp)
    · refine .bind (.any _) fun serial _ => ?_
      split
      · refine .bind (.any _) fun switched _ => .done ?_
        cases switched with
        | error e => simp [Except.map]
        | ok u =>
          rintro m ⟨⟩
          exact ⟨rfl, rfl⟩
      · refine .done ?_
        rintro m ⟨⟩
        exact ⟨rfl, rfl⟩

namespace FoundFor

variable {setup : Setup} {m : Meter K}

theorem setup_eq (h : m.FoundFor setup) : m.setup = setup := by
  cases h with
  | @abb link answer m found => exact ((Abb.all_probe_setup link setup).outcome answer m found).1
  | @carloGavazzi link answer m found =>
    exact ((CarloGavazzi.all_probe_setup link setup).outcome answer m found).1

theorem eq_keeping (h : m.FoundFor setup) : m = m.keeping .empty := by
  cases h with
  | @abb link answer m found =>
    rw [keeping, ← ((Abb.all_probe_setup link setup).outcome answer m found).2]
  | @carloGavazzi link answer m found =>
    rw [keeping, ← ((CarloGavazzi.all_probe_setup link setup).outcome answer m found).2]

end FoundFor

theorem keptAfter_nil (m : Meter K) : m.keptAfter [] = .empty := by
  unfold keptAfter
  split_ifs <;> rfl

theorem after_eq {setup : Setup} {m : Meter K} (h : m.FoundFor setup) (rounds : List Round) :
    m.after rounds = m.keeping (m.keptAfter rounds) := by
  induction rounds using List.reverseRecOn with
  | nil =>
    rw [keptAfter_nil]
    exact h.eq_keeping
  | append_singleton rounds c ih =>
    unfold after at ih ⊢
    rw [List.foldl_append, ih, List.foldl_cons, List.foldl_nil, outcome_update h,
      keptNext_keptAfter]

/-! ## What is shown -/

/-- Readings that show instant values and counters as a setup asks for: each phase on the line that
it feeds, zeros on the others, and totals where all lines are claimed. -/
structure Shows (setup : Setup) (singlePhase : Bool) (state : State) (usage : Usage K)
    (r : Readings K) : Prop where
  lines : ∀ pair ∈ phasePairs setup.lines singlePhase,
    r.state.at pair.2 = state.at pair.1 ∧ r.usage.at pair.2 = usage.at pair.1
  others : ∀ line, (∀ pair ∈ phasePairs setup.lines singlePhase, pair.2 ≠ line) →
    r.state.at line = State.zero.at line ∧ r.usage.at line = Usage.zero.at line
  totals : setup.ClaimsTotals → r.totals = (usage.totalConsumed, usage.totalProvided)
  noTotals : ¬ setup.ClaimsTotals → r.totals = (Quantity.zero, Quantity.zero)

theorem shows_fill {setup : Setup} (hlines : ∀ line ∈ setup.lines, line < lineCount)
    (singlePhase : Bool) {c : Cache K} (hstate : ¬ setup.has .state → c.state = .zero)
    (husage : ¬ setup.has .usage → c.usage = .zero) :
    Shows setup singlePhase c.state c.usage (c.fill setup singlePhase .zero) where
  lines pair hpair := by
    obtain ⟨hphase, hline⟩ := lt_of_mem_phasePairs hlines hpair
    have hinj := fun q hq heq => phasePairs_inj (p := q) hq hpair heq
    rw [Cache.state_fill, Cache.usage_fill]
    constructor
    · split_ifs with hhas
      · exact at_mergeState_of_mem _ _ hpair hinj hphase hline
      · rw [hstate hhas]
        simp only [Readings.zero, State.at, State.zero, PerLine.get?_const _ hphase,
          PerLine.get?_const _ hline]
    · split_ifs with hhas
      · exact at_mergeUsage_of_mem _ _ _ hpair hinj hphase hline
      · rw [husage hhas]
        simp only [Readings.zero, Usage.at, Usage.zero, PerLine.get?_const _ hphase,
          PerLine.get?_const _ hline]
  others line hline := by
    rw [Cache.state_fill, Cache.usage_fill]
    constructor
    · split_ifs
      · exact at_mergeState _ _ hline
      · rfl
    · split_ifs
      · exact at_mergeUsage _ _ _ hline
      · rfl
  totals hclaim := (c.totals_fill setup singlePhase .zero).1 hclaim
  noTotals hclaim := (c.totals_fill setup singlePhase .zero).2 hclaim

/-- The readings of a poll show what was read last, in this round or before, and a poll tells of a
change when it reads instant values that differ from those that were read before. -/
theorem update_shows_latest {slot : SlotConfig} {role : Role} (hslot : slot.fault? role = none)
    {m : Meter K} (hm : m.FoundFor (slot.slot role).setup) (rounds : List Round) (c : Round) :
    let updated := ((m.after rounds).update c.now .zero).outcome c.answer
    Shows m.setup m.isSinglePhase ((m.latestState? (rounds ++ [c])).getD .zero)
        ((m.latestUsage? (rounds ++ [c])).getD .zero) updated.2.1 ∧
      (updated.1 = true ↔
        ∃ state, m.stateRead? c = some state ∧
          ((m.latestState? rounds).getD .zero != state) = true) := by
  intro updated
  have hupdated : updated = ((m.stateRead? c).any ((m.keptAfter rounds).state != ·),
      (m.keptAfter (rounds ++ [c])).fill m.setup m.isSinglePhase .zero,
      m.keeping (m.keptAfter (rounds ++ [c]))) := by
    rw [← keptNext_keptAfter, ← outcome_update hm, ← after_eq hm]
  have hlines : ∀ line ∈ m.setup.lines, line < lineCount := by
    rw [hm.setup_eq]
    exact slot.lines_lt hslot
  rw [hupdated]
  refine ⟨shows_fill hlines _ (keptAfter_state_of_not_has m _) (keptAfter_usage_of_not_has m _), ?_⟩
  exact Option.any_eq_true _ _

/-! ## An analyzer -/

def analyzerSlot : SlotConfig :=
  ⟨"tcp://a", .modbus, some .carloGavazzi, 1, 0, [0, 1, 2], [.state, .usage], 1000⟩

/-- An analyzer that keeps its serial number to itself. -/
def analyzer : CarloGavazzi Rat :=
  { link := ⟨0, "tcp://a", 1, 0, CarloGavazzi.encoding, false⟩
    setup := (analyzerSlot.slot .grid).setup, family := .em3xx, modelId := 341, serial := ""
    cache := .empty }

/-- A bus with the analyzer, whose registers all read four. -/
def analyzerBus : Segment :=
  let registers : Registers := fun address =>
    if address = 11 then some 341 else if address < 0x5000 then some 4 else none
  { Segment.new with devices := [(1, { Device.new with holding := registers })] }

/-- A round on a bus at the start of some minute. -/
def roundOn (bus : Segment) (minute : Int) : Round :=
  let site : Site :=
    { Site.new [("tcp://a", bus)] [] ⟨fun _ => .timeout, .endOfStream⟩ with
      clients := [.new "tcp://a" 0] }
  ⟨⟨60000000 * minute⟩, fun q => (site.answer q).1⟩

theorem analyzer_found : (carloGavazzi analyzer).FoundFor (analyzerSlot.slot .grid).setup := by
  have found : (CarloGavazzi.probe analyzer.link (analyzerSlot.slot .grid).setup).outcome
      (roundOn analyzerBus 0).answer = .ok analyzer := rfl
  exact .carloGavazzi found

theorem analyzer_keeps :
    let m := carloGavazzi analyzer
    let good := roundOn analyzerBus 0
    let bad := roundOn { analyzerBus with isFailing := true } 1
    let updated := ((m.after [good]).update bad.now .zero).outcome bad.answer
    analyzerSlot.fault? .grid = none ∧ m.FoundFor (analyzerSlot.slot .grid).setup ∧
      (m.stateRead? good).isSome ∧ (m.usageRead? good).isSome ∧
      Shows m.setup false ((m.stateRead? good).getD .zero) ((m.usageRead? good).getD .zero)
        updated.2.1 ∧
      updated.1 = false := by
  intro m good bad updated
  have hslot : analyzerSlot.fault? .grid = none := by decide +kernel
  have hbad : m.stateRead? bad = none ∧ m.usageRead? bad = none := ⟨rfl, rfl⟩
  have hstate : m.latestState? ([good] ++ [bad]) = m.stateRead? good := by
    rw [latestState?_snoc, hbad.1, Option.none_or, ← List.nil_append [good], latestState?_snoc]
    exact Option.or_none
  have husage : m.latestUsage? ([good] ++ [bad]) = m.usageRead? good := by
    rw [latestUsage?_snoc, hbad.2, Option.none_or, ite_self, ← List.nil_append [good],
      latestUsage?_snoc, if_neg (by simp)]
    exact Option.or_none
  obtain ⟨hshows, hchanged⟩ := update_shows_latest hslot analyzer_found [good] bad
  rw [hstate, husage] at hshows
  refine ⟨hslot, analyzer_found, rfl, rfl, hshows, ?_⟩
  rw [← Bool.not_eq_true]
  intro hflag
  obtain ⟨state, hread, -⟩ := hchanged.1 hflag
  rw [hbad.1] at hread
  cases hread

end HomeMetering.Meter
