import HomeMetering.Proofs.Meter.Refreshing

/-!
# Counters that could not be read

The gate of a meter is shut by the poll that it opens for, whatever becomes of the read. So counters
that could not be read are not tried again before the minute of the hour changes from one poll to
the next, and until then those from before the failure are reported, however often the device would
have answered.
-/

namespace HomeMetering.Meter

open Electricity Modbus Site Site.Job

/-! ## Blocks that a round asks for -/

namespace Round

variable {α β : Type} (c : Round) (link : Link) (block : Block)

/-- A job asks for a block in a round, whether it is answered or not. -/
def AsksFor (job : Job α) : Prop := .read link.client block ∈ job.asked c.answer

theorem not_asksFor_pure (a : α) : ¬ c.AsksFor link block (pure a : Job α) := List.not_mem_nil

theorem asksFor_seq (x : Job α) (f : α → Job β) :
    c.AsksFor link block (x >>= f) ↔
      c.AsksFor link block x ∨ c.AsksFor link block (f (x.outcome c.answer)) := by
  unfold AsksFor
  rw [asked_seq, List.mem_append]

theorem asksFor_map (x : Job α) (f : α → β) :
    c.AsksFor link block (do return f (← x)) ↔ c.AsksFor link block x := by
  rw [asksFor_seq]
  exact or_iff_left (c.not_asksFor_pure link block _)

theorem asksFor_read (b : Block) : c.AsksFor link block (link.read b) ↔ block = b := by
  have hasked : (link.read b).asked c.answer =
      [.lock link.client, .select link.client link.unit, .read link.client b,
        .unlock link.client] := rfl
  unfold AsksFor
  rw [hasked]
  simp

variable {K : Type}

theorem asksFor_pollState (setup : Setup) (cache : Cache K)
    (instant : Job (Except BusError State)) :
    c.AsksFor link block (pollState setup cache instant) ↔
      setup.has .state ∧ c.AsksFor link block instant := by
  unfold pollState
  split_ifs with hhas
  · rw [asksFor_seq, and_iff_right hhas]
    refine or_iff_left ?_
    cases instant.outcome c.answer <;> exact c.not_asksFor_pure link block _
  · exact iff_of_false (c.not_asksFor_pure link block _) fun h => hhas h.1

theorem asksFor_pollUsage (setup : Setup) (cache : Cache K)
    (totals : Job (Except BusError (Usage K))) :
    c.AsksFor link block (pollUsage setup c.now cache totals) ↔
      setup.has .usage ∧ (cache.gate.due c.now).1 = true ∧ c.AsksFor link block totals := by
  unfold pollUsage
  split_ifs with hhas
  · rw [and_iff_right hhas]
    split
    · rename_i gate hdue
      rw [asksFor_seq, hdue]
      refine (or_iff_left ?_).trans (and_iff_right rfl).symm
      cases totals.outcome c.answer <;> exact c.not_asksFor_pure link block _
    · rename_i gate hdue
      rw [hdue]
      exact iff_of_false (c.not_asksFor_pure link block _) fun h => Bool.false_ne_true h.1
  · exact iff_of_false (c.not_asksFor_pure link block _) fun h => hhas h.1

theorem asksFor_poll (setup : Setup) (cache : Cache K) {instant : Job (Except BusError State)}
    (hinstant : ¬ c.AsksFor link block instant) {totals : Job (Except BusError (Usage K))}
    (hhas : setup.has .usage) (htotals : c.AsksFor link block totals) :
    c.AsksFor link block (poll setup c.now cache instant totals) ↔
      (cache.gate.due c.now).1 = true := by
  unfold poll
  rw [asksFor_seq, asksFor_pollState, outcome_pollState]
  dsimp only
  rw [asksFor_map, asksFor_pollUsage]
  simp [hinstant, hhas, htotals]

end Round

variable {K : Type} [Quantity K]

theorem Abb.asksFor_readTotals (m : Abb K) (c : Round) :
    c.AsksFor m.link totalsBlock m.readTotals := by
  unfold readTotals
  rw [Round.asksFor_seq]
  exact .inl ((c.asksFor_read m.link totalsBlock totalsBlock).2 rfl)

theorem CarloGavazzi.asksFor_readTotals (m : CarloGavazzi K) (c : Round) (block : Block) :
    c.AsksFor m.link block m.readTotals ↔
      block = (counterData m.family.isSinglePhase : CounterData K).block :=
  (c.asksFor_map m.link block _ _).trans (c.asksFor_read m.link block _)

theorem CarloGavazzi.block_counterData_ne (singlePhase : Bool) :
    (counterData singlePhase : CounterData K).block ≠ instantBlock singlePhase := by
  intro h
  have haddress := congrArg Block.address h
  cases singlePhase with
  | true => exact absurd haddress (show (0x0010 : UInt16) ≠ 0x0000 by decide)
  | false => exact absurd haddress (show (0x0034 : UInt16) ≠ 0x0000 by decide)

theorem Victron.asksFor_readTotals (m : Victron K) (c : Round) (block : Block) :
    c.AsksFor m.link block m.readTotals ↔ block = m.service.totalsBlock :=
  (c.asksFor_map m.link block _ _).trans (c.asksFor_read m.link block _)

omit [Quantity K] in
theorem Victron.not_asksFor_identified (m : Victron K) (c : Round) :
    ¬ c.AsksFor m.link m.service.totalsBlock m.identified := by
  unfold identified
  split_ifs
  · unfold identify
    rw [Round.asksFor_seq, not_or, c.asksFor_read]
    refine ⟨(m.service.serialBlock_ne.2 .usage).symm, ?_⟩
    cases (m.link.read m.service.serialBlock).outcome c.answer with
    | error e => exact c.not_asksFor_pure m.link _ _
    | ok registers =>
      dsimp only
      rw [Round.asksFor_seq, not_or]
      refine ⟨mt (c.asksFor_read m.link _ _).1 (m.service.phaseCountBlock_ne .usage).symm, ?_⟩
      split <;> exact c.not_asksFor_pure m.link _ _
  · exact c.not_asksFor_pure m.link _ _

/-- The block that counters are read from; where there are two, the one that is read first. -/
def countersBlock? (m : Meter K) : Option Block :=
  match m with
  | abb _ => some Abb.totalsBlock
  | carloGavazzi m =>
    some (CarloGavazzi.counterData m.family.isSinglePhase : CarloGavazzi.CounterData K).block
  | victron m => some m.service.totalsBlock
  | _ => none

/-- A poll tries to read the counters. -/
def AsksCounters (m : Meter K) (c : Round) : Prop :=
  ∃ link block, m.link? = some link ∧ m.countersBlock? = some block ∧
    c.AsksFor link block (m.update c.now .zero)

variable {m : Meter K}

theorem asksCounters_of_link {link : Link} {block : Block} (hlink : m.link? = some link)
    (hblock : m.countersBlock? = some block) (c : Round) :
    m.AsksCounters c ↔ c.AsksFor link block (m.update c.now .zero) := by
  constructor
  · rintro ⟨link', block', hlink', hblock', hasks⟩
    rw [hlink] at hlink'
    rw [hblock] at hblock'
    cases hlink'
    cases hblock'
    exact hasks
  · exact fun hasks => ⟨link, block, hlink, hblock, hasks⟩

theorem asksCounters_iff (hm : m.PollsCounters) (c : Round) :
    m.AsksCounters c ↔ m.CountersDue c := by
  cases m with
  | abb m =>
    have hinstant : ¬ c.AsksFor m.link Abb.totalsBlock m.readInstant := by
      rw [Abb.readInstant, c.asksFor_map, c.asksFor_read]
      decide
    rw [asksCounters_of_link (m := abb m) rfl rfl, update, c.asksFor_map, Abb.update, c.asksFor_map]
    exact c.asksFor_poll m.link _ m.setup m.cache hinstant hm (m.asksFor_readTotals c)
  | carloGavazzi m =>
    have hinstant : ¬ c.AsksFor m.link
        (CarloGavazzi.counterData m.family.isSinglePhase : CarloGavazzi.CounterData K).block
        m.readInstant := by
      rw [CarloGavazzi.readInstant, c.asksFor_map, c.asksFor_read]
      exact CarloGavazzi.block_counterData_ne _
    rw [asksCounters_of_link (m := carloGavazzi m) rfl rfl, update, c.asksFor_map,
      CarloGavazzi.update, c.asksFor_map]
    exact c.asksFor_poll m.link _ m.setup m.cache hinstant hm
      ((m.asksFor_readTotals c _).2 rfl)
  | victron m =>
    obtain ⟨hhas, hrole⟩ := hm
    let m' := m.identified.outcome c.answer
    obtain ⟨hlink, hsetup, hcache⟩ := m.identified_keeps c
    have hservice : m'.service = m.service :=
      congrArg (fun setup : Setup => Victron.Service.of setup.role) hsetup
    have hinstant : ¬ c.AsksFor m.link m.service.totalsBlock m'.readInstant := by
      rw [← hlink, ← hservice, Victron.readInstant, c.asksFor_map, c.asksFor_read]
      exact m'.service.instantBlock_ne.symm
    have htotals : c.AsksFor m.link m.service.totalsBlock m'.readTotals := by
      rw [← hlink, ← hservice]
      exact (m'.asksFor_readTotals c _).2 rfl
    rw [asksCounters_of_link (m := victron m) rfl rfl, update, c.asksFor_map,
      Victron.update_of_lines _ hrole, c.asksFor_seq, or_iff_right (m.not_asksFor_identified c),
      c.asksFor_map]
    show _ ↔ (m.cache.gate.due c.now).1 = true
    rw [← hcache]
    exact c.asksFor_poll m.link _ m'.setup m'.cache hinstant (hsetup ▸ hhas) htotals
  | dsmr m | playback m => exact hm.elim

/-- The counters that a poll of fresh readings gives. -/
def reported (m : Meter K) (c : Round) : Usage K :=
  ((m.update c.now .zero).outcome c.answer).2.1.usage

theorem reported_eq (hm : m.PollsCounters) (c : Round) :
    m.reported c =
      fillUsage .zero (m.after [c]).kept.usage (m.after [c]).setup.lines
        (m.after [c]).isSinglePhase := by
  have hfill (kept : Cache K) (setup : Setup) (hhas : setup.has .usage) (singlePhase : Bool) :
      (kept.fill setup singlePhase .zero).usage =
        fillUsage .zero kept.usage setup.lines singlePhase := by
    rw [Cache.usage_fill, if_pos hhas]
    rfl
  unfold reported after
  rw [List.foldl_cons, List.foldl_nil]
  cases m with
  | abb m =>
    rw [update, outcome_seq, Abb.update, outcome_seq]
    exact hfill _ m.setup hm _
  | carloGavazzi m =>
    rw [update, outcome_seq, CarloGavazzi.update, outcome_seq]
    exact hfill _ m.setup hm _
  | victron m =>
    obtain ⟨hhas, hrole⟩ := hm
    obtain ⟨-, hsetup, -⟩ := m.identified_keeps c
    rw [update, outcome_seq, ← Victron.polled, Victron.polled_eq hrole]
    exact hfill _ (m.identified.outcome c.answer).setup (hsetup ▸ hhas) _
  | dsmr m | playback m => exact hm.elim

/-! ## Runs of polls -/

section

variable (m : Meter K) (polls : Nat → Round)

/-- Whether a poll of a run tries to read the counters. -/
def AsksAt (n : Nat) : Prop := (m.polledBy polls n).AsksCounters (polls n)

/-- The counters that the device would give in a poll of a run. -/
def answeredAt (n : Nat) : Option (Usage K) := (m.polledBy polls n).countersIn (polls n)

def FailsAt (n : Nat) : Prop := m.AsksAt polls n ∧ m.answeredAt polls n = none

/-- A poll after one that failed to read the counters tries again. -/
def RetriesFailures : Prop := ∀ n, m.FailsAt polls n → m.AsksAt polls (n + 1)

/-- The first poll after another one in which the device answers. -/
structure IsFirstAnswer (n k : Nat) : Prop where
  after : n < k
  answers : (m.answeredAt polls k).isSome
  since : ∀ i, n < i → i < k → m.answeredAt polls i = none

/-- The counters that are there after poll `j` were read in poll `i`. -/
structure IsFrom (j i : Nat) : Prop where
  le : i ≤ j
  asks : m.AsksAt polls i
  answers : (m.answeredAt polls i).isSome
  since : ∀ k, i < k → k ≤ j → m.AsksAt polls k → m.answeredAt polls k = none

/-- From a poll on, no counters are older than that poll. -/
def IsCurrentFrom (k : Nat) : Prop := ∀ j, k ≤ j → ∃ i, k ≤ i ∧ m.IsFrom polls j i

end

section

variable {polls : Nat → Round} {n k : Nat}

/-- A poll in which the device answers brings its counters up to date when it asks for them. -/
theorem isCurrentFrom_iff (hanswers : (m.answeredAt polls k).isSome) :
    m.IsCurrentFrom polls k ↔ m.AsksAt polls k := by
  constructor
  · intro h
    obtain ⟨i, hki, hfrom⟩ := h k le_rfl
    rw [le_antisymm hki hfrom.le]
    exact hfrom.asks
  · intro hasks j hj
    induction hj with
    | refl => exact ⟨k, le_rfl, le_rfl, hasks, hanswers, fun i hi hik => absurd hi (by omega)⟩
    | @step j hj ih =>
      by_cases hread : m.AsksAt polls (j + 1) ∧ (m.answeredAt polls (j + 1)).isSome
      · exact ⟨j + 1, Nat.le_succ_of_le hj, le_rfl, hread.1, hread.2,
          fun i hi hij => absurd hi (by omega)⟩
      · obtain ⟨i, hki, hfrom⟩ := ih
        refine ⟨i, hki, Nat.le_succ_of_le hfrom.le, hfrom.asks, hfrom.answers,
          fun l hil hlj hl => ?_⟩
        rcases Nat.le_succ_iff.1 hlj with hlj | rfl
        · exact hfrom.since l hil hlj hl
        · exact Option.not_isSome_iff_eq_none.1 fun hsome => hread ⟨hl, hsome⟩

theorem RetriesFailures.asksAt (hretries : m.RetriesFailures polls) (hfails : m.FailsAt polls n)
    (hfirst : m.IsFirstAnswer polls n k) : m.AsksAt polls k := by
  have hasks : ∀ d, n + d < k → m.AsksAt polls (n + d + 1) := by
    intro d
    induction d with
    | zero => exact fun _ => hretries n hfails
    | succ d ih =>
      intro hd
      exact hretries (n + d + 1) ⟨ih (by omega), hfirst.since _ (by omega) (by omega)⟩
  have hk := hasks (k - n - 1) (by have := hfirst.after; omega)
  rwa [show n + (k - n - 1) + 1 = k by have := hfirst.after; omega] at hk

variable (hm : m.PollsCounters)

include hm

theorem asksAt_iff_due : m.AsksAt polls n ↔ (m.polledBy polls n).CountersDue (polls n) :=
  asksCounters_iff (pollsCounters_polledBy hm polls n) (polls n)

/-- The poll before has shut the gate for its minute, whether it could read the counters or not. -/
theorem asksAt_succ_iff :
    m.AsksAt polls (n + 1) ↔ (polls n).minute ≠ (polls (n + 1)).minute := by
  rw [asksAt_iff_due hm, CountersDue, (roundKeeps_polledBy hm polls n).gate, MinuteGate.snd_due,
    MinuteGate.fst_due, ne_eq, Option.some.injEq]
  rfl

theorem usage_polledBy_succ_of_answered {usage : Usage K} (hasks : m.AsksAt polls n)
    (h : m.answeredAt polls n = some usage) : (m.polledBy polls (n + 1)).kept.usage = usage := by
  rw [(roundKeeps_polledBy hm polls n).due ((asksAt_iff_due hm).1 hasks)]
  exact congrArg (fun counters => counters.getD (m.polledBy polls n).kept.usage) h

theorem usage_polledBy_succ_of_none (h : m.AsksAt polls n → m.answeredAt polls n = none) :
    (m.polledBy polls (n + 1)).kept.usage = (m.polledBy polls n).kept.usage := by
  by_cases hasks : m.AsksAt polls n
  · rw [(roundKeeps_polledBy hm polls n).due ((asksAt_iff_due hm).1 hasks)]
    exact congrArg (fun counters => counters.getD (m.polledBy polls n).kept.usage) (h hasks)
  · exact (roundKeeps_polledBy hm polls n).notDue (mt (asksAt_iff_due hm).2 hasks)

theorem IsFrom.usage_eq {j i : Nat} (h : m.IsFrom polls j i) :
    m.answeredAt polls i = some (m.polledBy polls (j + 1)).kept.usage := by
  obtain ⟨usage, husage⟩ := Option.isSome_iff_exists.1 h.answers
  rw [husage]
  refine congrArg some (Eq.symm ?_)
  -- Nothing is read after poll `i`, so its counters stay.
  have hstays : ∀ d, i + d ≤ j → (m.polledBy polls (i + d + 1)).kept.usage = usage := by
    intro d
    induction d with
    | zero => exact fun _ => usage_polledBy_succ_of_answered hm h.asks husage
    | succ d ih =>
      intro hd
      rw [usage_polledBy_succ_of_none hm (h.since (i + (d + 1)) (by omega) hd)]
      exact ih (by omega)
  have hj := hstays (j - i) (by have := h.le; omega)
  rwa [Nat.add_sub_cancel' h.le] at hj

/-- While the minute of the hour is that of a failed poll, the counters from before it stay. -/
theorem stays_of_failsAt (hfails : m.FailsAt polls n)
    (hsame : ∀ i, n ≤ i → i < k → (polls i).minute = (polls (i + 1)).minute) :
    (∀ i, n < i → i ≤ k → ¬ m.AsksAt polls i) ∧
      ∀ i, n ≤ i → i ≤ k →
        (m.polledBy polls (i + 1)).kept.usage = (m.polledBy polls n).kept.usage := by
  have hnot : ∀ i, n < i → i ≤ k → ¬ m.AsksAt polls i := by
    intro i hi hik
    obtain ⟨i, rfl⟩ := Nat.exists_eq_succ_of_ne_zero (Nat.ne_zero_of_lt hi)
    rw [asksAt_succ_iff hm, not_not]
    exact hsame i (Nat.le_of_lt_succ hi) hik
  refine ⟨hnot, fun i hi => ?_⟩
  induction hi with
  | refl => exact fun _ => usage_polledBy_succ_of_none hm fun _ => hfails.2
  | @step i hi ih =>
    intro hik
    rw [usage_polledBy_succ_of_none hm
      fun hasks => absurd hasks (hnot _ (Nat.lt_succ_of_le hi) hik)]
    exact ih (Nat.le_of_lt hik)

end

/-- Counters that could not be read are tried again by the next poll just when that one is in
another minute of the hour. What a poll reports was read last, and is out of date after a failure
when the device answers first to a poll in the minute of the poll before it. -/
theorem retriesFailures_iff (hm : m.PollsCounters) (polls : Nat → Round) :
    (m.RetriesFailures polls ↔
      ∀ n, m.FailsAt polls n → (polls n).minute ≠ (polls (n + 1)).minute) ∧
    (∀ n k, m.FailsAt polls n → m.IsFirstAnswer polls n (k + 1) →
      (m.IsCurrentFrom polls (k + 1) ↔ (polls k).minute ≠ (polls (k + 1)).minute)) ∧
    (m.RetriesFailures polls → ∀ n k, m.FailsAt polls n → m.IsFirstAnswer polls n k →
      m.IsCurrentFrom polls k) ∧
    (∀ n k, m.FailsAt polls n →
      (∀ i, n ≤ i → i < k → (polls i).minute = (polls (i + 1)).minute) →
      (∀ i, n < i → i ≤ k → ¬ m.AsksAt polls i) ∧
        ∀ i, n ≤ i → i ≤ k →
          (m.polledBy polls (i + 1)).kept.usage = (m.polledBy polls n).kept.usage) ∧
    (∀ j i, m.IsFrom polls j i →
      m.answeredAt polls i = some (m.polledBy polls (j + 1)).kept.usage) ∧
    ∀ j, (m.polledBy polls j).reported (polls j) =
      let m' := m.polledBy polls (j + 1)
      fillUsage .zero m'.kept.usage m'.setup.lines m'.isSinglePhase := by
  refine ⟨?_, fun n k _ hfirst => ?_, fun h n k hfails hfirst => ?_,
    fun n k hfails hsame => stays_of_failsAt hm hfails hsame, fun j i h => h.usage_eq hm,
    fun j => ?_⟩
  · exact forall₂_congr fun n _ => asksAt_succ_iff hm
  · rw [isCurrentFrom_iff hfirst.answers, asksAt_succ_iff hm]
  · exact (isCurrentFrom_iff hfirst.answers).2 (h.asksAt hfails hfirst)
  · rw [reported_eq (pollsCounters_polledBy hm polls j), ← polledBy_succ]

/-- Polls of an analyzer at some interval of microseconds, whose bus fails at first. -/
def failingAtFirst (interval : Nat) (n : Nat) : Round :=
  { roundOn (if n = 0 then { analyzerBus with isFailing := true } else analyzerBus) 0 with
    now := Instant.every ⟨0⟩ interval n }

theorem failingAtFirst_failsAt (interval : Nat) :
    (carloGavazzi analyzer).FailsAt (failingAtFirst interval) 0 :=
  ⟨(asksAt_iff_due (m := carloGavazzi analyzer) rfl).2 rfl, rfl⟩

theorem failingAtFirst_retries :
    let m := carloGavazzi analyzer
    let polls := failingAtFirst 60000000
    m.PollsCounters ∧ m.FailsAt polls 0 ∧ m.RetriesFailures polls ∧ m.IsCurrentFrom polls 1 := by
  intro m polls
  have hminutes : ∀ n, (polls n).minute ≠ (polls (n + 1)).minute := by
    intro n
    show (Instant.every ⟨0⟩ 60000000 n).minuteOfHour ≠
      (Instant.every ⟨0⟩ 60000000 (n + 1)).minuteOfHour
    rw [ne_eq, Instant.minuteOfHour_eq_iff, Instant.minutes_eq, Instant.minutes_eq,
      Instant.micros_every_succ]
    omega
  have hfails : m.FailsAt polls 0 := failingAtFirst_failsAt _
  obtain ⟨hretries, -, hcurrent, -⟩ := retriesFailures_iff (m := m) rfl polls
  have hall : m.RetriesFailures polls := hretries.2 fun n _ => hminutes n
  exact ⟨rfl, hfails, hall, hcurrent hall 0 1 hfails
    ⟨Nat.one_pos, by decide +kernel, fun i hi hi' => absurd hi (by omega)⟩⟩

theorem failingAtFirst_not_retried :
    let m := carloGavazzi analyzer
    let polls := failingAtFirst 1000000
    m.PollsCounters ∧ m.FailsAt polls 0 ∧ ¬ m.AsksAt polls 1 ∧ m.IsFirstAnswer polls 0 1 ∧
      ¬ m.IsCurrentFrom polls 1 := by
  intro m polls
  have hm : m.PollsCounters := rfl
  have hnot : ¬ m.AsksAt polls 1 := by
    rw [asksAt_succ_iff hm]
    decide +kernel
  have hfirst : m.IsFirstAnswer polls 0 1 :=
    ⟨Nat.one_pos, by decide +kernel, fun i hi hi' => absurd hi (by omega)⟩
  exact ⟨hm, failingAtFirst_failsAt _, hnot, hfirst,
    mt (isCurrentFrom_iff hfirst.answers).1 hnot⟩

end HomeMetering.Meter
