import HomeMetering.Proofs.Meter.Moving
import HomeMetering.Proofs.Quantity
import Mathlib.Tactic.Ring

/-!
# Totals spread over lines

Where a device counts a flow of energy in total only, its meter gives each of its lines an even
share. Which phases are decoded, how many shares there are, which lines they go to and whether a
total is set beside them is decided in different places. They agree: what the readings show in total
is what the device told last.
-/

namespace HomeMetering

open Electricity Modbus Site Site.Job

/-- A direction in which energy is counted. -/
inductive Flow where
  | consumed
  | provided

namespace Electricity.Usage

variable {K : Type}

def ofLines (u : Usage K) : Flow → PerLine K
  | .consumed => u.consumed
  | .provided => u.provided

def ofTotal (u : Usage K) : Flow → K
  | .consumed => u.setConsumed
  | .provided => u.setProvided

/-- What is reported in total. -/
def inTotal [Quantity K] (u : Usage K) : Flow → K
  | .consumed => u.totalConsumed
  | .provided => u.totalProvided

theorem ofLines_zero [Quantity K] (flow : Flow) :
    (zero : Usage K).ofLines flow = .const Quantity.zero := by
  cases flow <;> rfl

theorem ofTotal_zero [Quantity K] (flow : Flow) :
    (zero : Usage K).ofTotal flow = Quantity.zero := by
  cases flow <;> rfl

theorem inTotal_eq [Quantity K] (u : Usage K) (flow : Flow) :
    u.inTotal flow = totalOr (u.ofTotal flow) (u.ofLines flow) := by
  cases flow <;> rfl

end Electricity.Usage

/-! ## Even shares -/

theorem PerLine.sum_set {p : PerLine Rat} {line : LineIndex} (h : p.get? line = some 0) (a : Rat) :
    (p.set line a).toList.sum = p.toList.sum + a := by
  match line, h with
  | 0, h | 1, h | 2, h =>
    have hzero := Option.some.inj h
    simp only [set, toList, List.sum_cons, List.sum_nil, hzero]
    ring

/-- A total spread evenly over some lines. -/
def spread (total : Rat) (lines : List LineIndex) : PerLine Rat :=
  lines.foldl (fun p line => p.set line (total / lines.length)) (.const 0)

/-- Lines that a total can be spread over. -/
structure CanShare (lines : List LineIndex) : Prop where
  ne_nil : lines ≠ []
  nodup : lines.Nodup
  lt : ∀ line ∈ lines, line < lineCount

theorem sum_foldl_set {lines : List LineIndex} (hnodup : lines.Nodup) (share : Rat)
    {p : PerLine Rat} (hzero : ∀ line ∈ lines, p.get? line = some 0) :
    (lines.foldl (fun p line => p.set line share) p).toList.sum =
      p.toList.sum + lines.length * share := by
  induction lines generalizing p with
  | nil => simp
  | cons line lines ih =>
    obtain ⟨hnot, hnodup⟩ := List.nodup_cons.1 hnodup
    have hrest : ∀ l ∈ lines, (p.set line share).get? l = some 0 := by
      intro l hl
      have hne : line ≠ l := fun heq => hnot (heq ▸ hl)
      rw [PerLine.get?_set, if_neg fun h => hne h.1]
      exact hzero l (List.mem_cons_of_mem _ hl)
    rw [List.foldl_cons, ih hnodup hrest, PerLine.sum_set (hzero line List.mem_cons_self),
      List.length_cons, Nat.cast_succ]
    ring

namespace CanShare

variable {lines : List LineIndex} (h : CanShare lines) (total : Rat)

include h

theorem length_ne_zero : (lines.length : Rat) ≠ 0 :=
  Nat.cast_ne_zero.2 fun hzero => h.ne_nil (List.length_eq_zero_iff.1 hzero)

theorem sum_spread : (spread total lines).toList.sum = total := by
  have hzero : ∀ line ∈ lines, (PerLine.const (0 : Rat)).get? line = some 0 :=
    fun line hline => PerLine.get?_const 0 (h.lt line hline)
  have hconst : (PerLine.const (0 : Rat)).toList.sum = 0 := by simp [PerLine.const, PerLine.toList]
  rw [spread, sum_foldl_set h.nodup _ hzero, hconst, zero_add,
    mul_div_cancel₀ total h.length_ne_zero]

theorem get?_spread {line : LineIndex} (hline : line ∈ lines) :
    (spread total lines).get? line = some (total / lines.length) := by
  refine Meter.foldl_view (PerLine.get? · line) (· = line) _ ?_ ?_ ⟨line, hline, rfl⟩
  · rintro p l hl rfl
    rw [PerLine.get?_set, if_pos ⟨rfl, h.lt l hl⟩]
  · intro p l _ hne
    rw [PerLine.get?_set, if_neg fun heq => hne heq.1]

theorem filter_eq_self : lines.filter (· < lineCount) = lines :=
  List.filter_eq_self.2 fun line hline => decide_eq_true (h.lt line hline)

theorem splitEvenly_eq : Meter.splitEvenly total lines = total / lines.length := by
  have hnot : ¬ lines.isEmpty = true := fun hnil => h.ne_nil (List.isEmpty_iff.1 hnil)
  rw [Meter.splitEvenly, if_neg hnot]
  rfl

end CanShare

theorem Electricity.Usage.totalOr_of_sum {set total : Rat} {lines : PerLine Rat}
    (hset : set = total ∨ set = 0) (hsum : lines.toList.sum = total) :
    totalOr set lines = total := by
  unfold totalOr
  rw [Quantity.rat_total, hsum]
  split_ifs with hzero
  · rfl
  · exact hset.resolve_right fun heq => hzero ((Quantity.rat_isZero _).2 heq)

/-- Counters of which one flow is a total spread over some phases, set beside them or not. -/
structure IsSpread (u : Usage Rat) (flow : Flow) (total : Rat) (phases : List Nat) : Prop where
  lines : u.ofLines flow = spread total phases
  set : u.ofTotal flow = total ∨ u.ofTotal flow = 0

theorem IsSpread.inTotal {u : Usage Rat} {flow : Flow} {total : Rat} {phases : List Nat}
    (h : IsSpread u flow total phases) (hphases : CanShare phases) : u.inTotal flow = total := by
  rw [u.inTotal_eq]
  refine Usage.totalOr_of_sum h.set ?_
  rw [h.lines, hphases.sum_spread]

/-! ## From phases to lines -/

namespace Meter

theorem canShare_devicePhases {lines : List LineIndex} (h : CanShare lines) (singlePhase : Bool) :
    CanShare (devicePhases lines singlePhase) := by
  cases singlePhase with
  | true =>
    refine ⟨List.cons_ne_nil 0 [], List.nodup_singleton 0, fun line hline => ?_⟩
    rw [List.mem_singleton.1 hline]
    decide
  | false =>
    unfold devicePhases
    rw [if_neg Bool.false_ne_true, h.filter_eq_self]
    exact h

/-- The lines that a device feeds. -/
def fedLines (lines : List LineIndex) (singlePhase : Bool) : List LineIndex :=
  (phasePairs lines singlePhase).map Prod.snd

theorem canShare_fedLines {lines : List LineIndex} (h : CanShare lines) (singlePhase : Bool) :
    CanShare (fedLines lines singlePhase) := by
  cases singlePhase with
  | true =>
    obtain ⟨line, rest, rfl⟩ := List.exists_cons_of_ne_nil h.ne_nil
    refine ⟨List.cons_ne_nil line [], List.nodup_singleton line, fun l hl => ?_⟩
    rw [List.mem_singleton.1 hl]
    exact h.lt line List.mem_cons_self
  | false =>
    have hsame : fedLines lines false = devicePhases lines false := by
      unfold fedLines phasePairs devicePhases
      simp [Function.comp_def]
    rw [hsame]
    exact canShare_devicePhases h false

theorem map_fst_phasePairs {lines : List LineIndex} (h : lines ≠ []) (singlePhase : Bool) :
    (phasePairs lines singlePhase).map Prod.fst = devicePhases lines singlePhase := by
  obtain ⟨line, rest, rfl⟩ := List.exists_cons_of_ne_nil h
  unfold phasePairs devicePhases
  cases singlePhase <;> simp [Function.comp_def]

section

variable {K : Type} [Quantity K]

theorem ofLines_mergeUsage (dst src : Usage K) (pairs : List (Nat × LineIndex)) (withTotals : Bool)
    (flow : Flow) :
    (mergeUsage dst src pairs withTotals).ofLines flow =
      pairs.foldl (fun p pair =>
        p.set pair.2 (((src.ofLines flow).get? pair.1).getD Quantity.zero)) (dst.ofLines flow) := by
  have hfold : (pairs.foldl (fun acc pair => acc.copyLine src pair.1 pair.2) dst).ofLines flow =
      pairs.foldl (fun p pair =>
        p.set pair.2 (((src.ofLines flow).get? pair.1).getD Quantity.zero)) (dst.ofLines flow) := by
    refine (List.foldl_hom (Usage.ofLines · flow) fun u pair => ?_).symm
    cases flow <;> rfl
  rw [← hfold]
  unfold mergeUsage
  cases withTotals <;> cases flow <;> rfl

theorem ofTotal_mergeUsage (dst src : Usage K) (pairs : List (Nat × LineIndex)) (withTotals : Bool)
    (flow : Flow) :
    (mergeUsage dst src pairs withTotals).ofTotal flow =
      if withTotals then src.inTotal flow else dst.ofTotal flow := by
  obtain ⟨hconsumed, hprovided⟩ := setTotals_mergeUsage dst src pairs withTotals
  cases flow
  · exact hconsumed
  · exact hprovided

end

/-- What was spread over the phases of a device is spread over the lines that they feed. -/
theorem isSpread_fillUsage {u : Usage Rat} {flow : Flow} {total : Rat} {lines : List LineIndex}
    {singlePhase : Bool} (h : CanShare lines)
    (hu : IsSpread u flow total (devicePhases lines singlePhase)) :
    IsSpread (fillUsage .zero u lines singlePhase) flow total (fedLines lines singlePhase) := by
  have hphases := canShare_devicePhases h singlePhase
  have hlength : (fedLines lines singlePhase).length = (devicePhases lines singlePhase).length := by
    rw [← map_fst_phasePairs h.ne_nil, fedLines, List.length_map, List.length_map]
  have hshare : ∀ pair ∈ phasePairs lines singlePhase,
      ((u.ofLines flow).get? pair.1).getD Quantity.zero =
        total / (fedLines lines singlePhase).length := by
    intro pair hpair
    have hphase : pair.1 ∈ devicePhases lines singlePhase := by
      rw [← map_fst_phasePairs h.ne_nil]
      exact List.mem_map_of_mem hpair
    rw [hu.lines, hphases.get?_spread total hphase, hlength]
    rfl
  constructor
  · rw [fillUsage, ofLines_mergeUsage, Usage.ofLines_zero, spread, fedLines, List.foldl_map]
    refine List.foldl_ext _ _ _ fun p pair hpair => ?_
    rw [hshare pair hpair, fedLines]
  · rw [fillUsage, ofTotal_mergeUsage, hu.inTotal hphases]
    split_ifs
    · exact .inl rfl
    · exact .inr (Usage.ofTotal_zero flow)

/-! ## What is decoded -/

theorem isSpread_foldl {step : Usage Rat → Nat → Usage Rat} {flow : Flow} {total : Rat}
    {phases : List Nat} (h : CanShare phases)
    (hlines : ∀ u phase, (step u phase).ofLines flow =
      (u.ofLines flow).set phase (splitEvenly total phases))
    (htotal : ∀ u phase, (step u phase).ofTotal flow = u.ofTotal flow) :
    IsSpread (phases.foldl step .zero) flow total phases := by
  have hzero : (Usage.zero : Usage Rat).ofLines flow = .const 0 := Usage.ofLines_zero flow
  constructor
  · rw [spread, ← hzero, ← h.splitEvenly_eq]
    exact (List.foldl_hom (Usage.ofLines · flow) fun u phase => (hlines u phase).symm).symm
  · have hkeeps : (phases.foldl step .zero).ofTotal flow = (Usage.zero : Usage Rat).ofTotal flow :=
      foldl_keeps (Usage.ofTotal · flow) .zero fun u phase _ => htotal u phase
    exact .inr (hkeeps.trans (Usage.ofTotal_zero flow))

theorem CarloGavazzi.isSpread_usageOf (data : CounterData Rat) (e : Encoding) {phases : List Nat}
    (h : CanShare phases) (registers : List UInt16) :
    IsSpread (usageOf data e phases registers) .provided (data.providedTotal.read e registers)
      phases := by
  have hfold : IsSpread (phases.foldl (addPhase data e phases registers) .zero) .provided
      (data.providedTotal.read e registers) phases :=
    isSpread_foldl h (fun _ _ => rfl) fun _ _ => rfl
  unfold usageOf
  cases data.consumedTotal with
  | none => exact hfold
  | some datum => exact ⟨hfold.lines, .inl rfl⟩

theorem Victron.isSpread_gridUsage (e : Encoding) {phases : List Nat} (h : CanShare phases)
    (registers : List UInt16) :
    IsSpread (gridUsage e phases registers) .provided (exportTotal e registers) phases := by
  have hfold : IsSpread (phases.foldl (fun (u : Usage Rat) phase =>
      { u with
        consumed := u.consumed.set phase (phaseValue phaseCounters e registers phase)
        provided := u.provided.set phase (splitEvenly (exportTotal e registers) phases) }) .zero)
      .provided (exportTotal e registers) phases :=
    isSpread_foldl h (fun _ _ => rfl) fun _ _ => rfl
  exact ⟨hfold.lines, .inl rfl⟩

/-- The objects of a telegram that count a flow, one for each tariff. -/
def tariffs : Flow → List String
  | .consumed => Telegram.consumedCodes
  | .provided => Telegram.providedCodes

/-- What a telegram tells of a flow, over all tariffs. -/
def inTelegram (t : Telegram) (flow : Flow) : Rat :=
  (((tariffs flow).filterMap t.number?).map Decimal.Binary.fractionOf).sum

theorem getD_sumOf? (t : Telegram) (flow : Flow) :
    (Telegram.sumOf? (fun code => (t.number? code).map Quantity.ofDouble) (tariffs flow)).getD
      Quantity.zero = inTelegram t flow := by
  have hmap : (tariffs flow).filterMap (fun code => (t.number? code).map Quantity.ofDouble) =
      ((tariffs flow).filterMap t.number?).map Decimal.Binary.fractionOf :=
    List.map_filterMap.symm
  unfold Telegram.sumOf? inTelegram
  rw [hmap]
  cases ((tariffs flow).filterMap t.number?).map Decimal.Binary.fractionOf with
  | nil => rfl
  | cons x xs => exact Quantity.rat_total (x :: xs)

theorem Dsmr.isSpread_usageOf (number? : String → Option Rat) {lines : List LineIndex}
    (h : CanShare lines) (flow : Flow) :
    IsSpread (Telegram.usageOf number? lines) flow
      ((Telegram.sumOf? number? (tariffs flow)).getD Quantity.zero) lines := by
  have hfold : ∀ consumed provided : Rat,
      IsSpread (lines.foldl (fun (u : Usage Rat) line =>
        { u with
          consumed := u.consumed.set line (splitEvenly consumed lines)
          provided := u.provided.set line (splitEvenly provided lines) }) .zero)
        flow (match flow with | .consumed => consumed | .provided => provided) lines := by
    intro consumed provided
    cases flow <;> exact isSpread_foldl h (fun _ _ => rfl) fun _ _ => rfl
  unfold Telegram.usageOf
  rw [h.filter_eq_self]
  cases flow <;> exact ⟨(hfold _ _).lines, .inl rfl⟩

theorem Dsmr.isSpread_values (t : Telegram) {lines : List LineIndex} (h : CanShare lines)
    (flow : Flow) :
    IsSpread (t.values lines).usage flow (inTelegram t flow) (devicePhases lines false) := by
  have hphases : devicePhases lines false = lines := h.filter_eq_self
  rw [hphases, ← getD_sumOf?]
  exact isSpread_usageOf _ h flow

/-! ## Polls -/

/-- The registers with the totals, if a poll reads them. -/
def CarloGavazzi.totalsIn? (c : Round) (m : CarloGavazzi Rat) : Option (List UInt16) :=
  let data : CounterData Rat := counterData m.family.isSinglePhase
  if m.cache.gate.last = some c.minute then none else c.read? m.link data.block

def Victron.totalsIn? (c : Round) (m : Victron Rat) : Option (List UInt16) :=
  if m.cache.gate.last = some c.minute then none else c.read? m.link (Service.totalsBlock .grid)

/-- The telegram that a poll is the first to see. -/
def Dsmr.telegramIn? (c : Round) (m : Dsmr Rat) : Option Telegram :=
  match c.answer (.latest m.port) with
  | some (count, t) => if count = m.seen then none else some t
  | none => none

/-- The total of a flow, if a poll reads it from the device. A service of a GX has to have told its
number of phases by then. -/
def total? (m : Meter Rat) (c : Round) (flow : Flow) : Option Rat :=
  match m, flow with
  | carloGavazzi m, .provided =>
    let data : CarloGavazzi.CounterData Rat := CarloGavazzi.counterData m.family.isSinglePhase
    (m.totalsIn? c).map (data.providedTotal.read m.link.encoding)
  | victron m, .provided =>
    if (m.identified.outcome c.answer).phaseCount = none then none
    else (m.totalsIn? c).map (Victron.exportTotal m.link.encoding)
  | dsmr m, flow => (m.telegramIn? c).map (inTelegram · flow)
  | _, _ => none

/-- The total of a flow that polls read last. -/
def lastTotal? (m : Meter Rat) (flow : Flow) : List Round → Option Rat
  | [] => none
  | c :: rounds => ((m.after [c]).lastTotal? flow rounds).or (m.total? c flow)

/-- A meter of a setup that spreads a flow. -/
inductive SpreadsFlow (setup : Setup) : Meter Rat → Flow → Prop
  | carloGavazzi {m : CarloGavazzi Rat} (hsetup : m.setup = setup) :
    SpreadsFlow setup (.carloGavazzi m) .provided
  | victron {m : Victron Rat} (hsetup : m.setup = setup) (hrole : setup.role = .grid)
    (h : m.Coherent) : SpreadsFlow setup (.victron m) .provided
  | dsmr {m : Dsmr Rat} (hsetup : m.setup = setup) (flow : Flow) :
    SpreadsFlow setup (.dsmr m) flow

/-- A GX is not asked for its number of phases any more. -/
def IsSettled : Meter Rat → Prop
  | victron m => m.phaseCount ≠ none
  | _ => True

/-- What a meter keeps of a flow is a total, spread over phases that stay the same. -/
structure KeepsSpread (m : Meter Rat) (flow : Flow) (total : Rat) : Prop where
  counters : IsSpread m.kept.usage flow total (devicePhases m.setup.lines m.isSinglePhase)
  settled : m.IsSettled

theorem isSpread_getD {α : Type} {read : Option α} {decode : α → Usage Rat} {tell : α → Rat}
    {kept : Usage Rat} {flow : Flow} {total : Rat} {phases : List Nat}
    (hdecode : ∀ a, IsSpread (decode a) flow (tell a) phases)
    (h : read.map tell = some total ∨ read.map tell = none ∧ IsSpread kept flow total phases) :
    IsSpread ((read.map decode).getD kept) flow total phases := by
  cases read with
  | none =>
    rcases h with h | ⟨-, hkept⟩
    · cases h
    · exact hkept
  | some a =>
    rcases h with h | ⟨h, -⟩
    · exact Option.some.inj h ▸ hdecode a
    · cases h

theorem CarloGavazzi.after_singleton (c : Round) (m : CarloGavazzi Rat) :
    (carloGavazzi m).after [c] = .carloGavazzi { m with
      cache := ((poll m.setup c.now m.cache m.readInstant m.readTotals).outcome c.answer).2 } := by
  unfold Meter.after
  rw [List.foldl_cons, List.foldl_nil]
  simp only [Meter.update, CarloGavazzi.update]
  rw [outcome_seq, outcome_seq]
  rfl

theorem CarloGavazzi.usage_poll (c : Round) {m : CarloGavazzi Rat} (husage : m.setup.has .usage) :
    ((poll m.setup c.now m.cache m.readInstant m.readTotals).outcome c.answer).2.usage =
      ((m.totalsIn? c).map
        (usageOf (counterData m.family.isSinglePhase) m.link.encoding m.phases)).getD
          m.cache.usage := by
  rw [outcome_poll, outcome_readTotals, if_pos husage]
  unfold totalsIn? Round.minute
  dsimp only
  split_ifs <;> rfl

theorem Victron.after_singleton (c : Round) (m : Victron Rat) :
    (victron m).after [c] = .victron (m.polled c).2.2 := by
  unfold Meter.after
  rw [List.foldl_cons, List.foldl_nil]
  simp only [Meter.update]
  rw [outcome_seq]
  rfl

theorem Victron.usage_polled (c : Round) {m : Victron Rat} (husage : m.setup.has .usage)
    (hrole : m.setup.role = .grid) :
    (m.polled c).2.2.cache.usage = ((m.totalsIn? c).map
      (gridUsage m.link.encoding (m.identified.outcome c.answer).phases)).getD m.cache.usage := by
  have hservice : m.service = .grid := by
    unfold service
    rw [hrole]
    rfl
  rw [cache_polled (by rw [hrole]; decide), if_pos husage, hservice]
  unfold totalsIn?
  dsimp only
  split_ifs <;> rfl

theorem Dsmr.after_singleton (c : Round) (m : Dsmr Rat) :
    (dsmr m).after [c] = .dsmr (m.refresh (c.answer (.latest m.port))).2 := rfl

theorem Dsmr.usage_refresh (c : Round) (m : Dsmr Rat) :
    (m.refresh (c.answer (.latest m.port))).2.cache.usage =
      ((m.telegramIn? c).map fun t => (t.values m.setup.lines).usage).getD m.cache.usage := by
  unfold refresh telegramIn?
  cases c.answer (.latest m.port) with
  | none => rfl
  | some latest =>
    dsimp only
    split_ifs <;> rfl

section

variable (c : Round) {flow : Flow} {total : Rat}

theorem CarloGavazzi.keepsSpread {m : CarloGavazzi Rat} (hlines : CanShare m.setup.lines)
    (husage : m.setup.has .usage)
    (h : (carloGavazzi m).total? c .provided = some total ∨
      (carloGavazzi m).total? c .provided = none ∧ (carloGavazzi m).KeepsSpread .provided total) :
    ((carloGavazzi m).after [c]).KeepsSpread .provided total := by
  have hcounters : IsSpread
      ((poll m.setup c.now m.cache m.readInstant m.readTotals).outcome c.answer).2.usage
      .provided total m.phases := by
    rw [usage_poll c husage]
    refine isSpread_getD (isSpread_usageOf _ _ (canShare_devicePhases hlines _)) ?_
    exact h.imp id fun hkept => ⟨hkept.1, hkept.2.counters⟩
  rw [after_singleton]
  exact ⟨hcounters, trivial⟩

theorem Victron.outcome_identified_of_known {m : Victron Rat} (hm : m.Coherent)
    (hknown : m.phaseCount ≠ none) : m.identified.outcome c.answer = m := by
  have hidentified : m.isIdentified = true := by
    rw [← Bool.not_eq_false]
    exact fun hnot => hknown (hm.known hnot)
  rw [outcome_identified_eq, if_neg (by simp [hidentified])]

theorem Victron.keepsSpread {m : Victron Rat} (hm : m.Coherent) (hrole : m.setup.role = .grid)
    (hlines : CanShare m.setup.lines) (husage : m.setup.has .usage)
    (h : (victron m).total? c .provided = some total ∨
      (victron m).total? c .provided = none ∧ (victron m).KeepsSpread .provided total) :
    ((victron m).after [c]).KeepsSpread .provided total := by
  -- A total counts once the number of phases is known, and then that number stays.
  have hknown : (m.identified.outcome c.answer).phaseCount ≠ none := by
    rcases h with htotal | ⟨-, hkept⟩
    · intro hnone
      simp [total?, hnone] at htotal
    · rw [outcome_identified_of_known c hm hkept.settled]
      exact hkept.settled
  have htold : (victron m).total? c .provided =
      (m.totalsIn? c).map (exportTotal m.link.encoding) := if_neg hknown
  rw [htold] at h
  have hphases : devicePhases (m.polled c).2.2.setup.lines (m.polled c).2.2.isSinglePhase =
      (m.identified.outcome c.answer).phases := by
    rw [setup_polled hm.role, isSinglePhase_polled_eq hm.role, phases, (m.identified_keeps c).2.1]
  have hshare : CanShare (m.identified.outcome c.answer).phases := by
    rw [← hphases, setup_polled hm.role]
    exact canShare_devicePhases hlines _
  have hcounters : IsSpread (m.polled c).2.2.cache.usage .provided total
      (m.identified.outcome c.answer).phases := by
    rw [usage_polled c husage hrole]
    refine isSpread_getD (isSpread_gridUsage _ hshare) (h.imp id fun hkept => ⟨hkept.1, ?_⟩)
    rw [outcome_identified_of_known c hm hkept.2.settled]
    exact hkept.2.counters
  rw [after_singleton]
  refine ⟨?_, ?_⟩
  · rw [← hphases] at hcounters
    exact hcounters
  · rw [polled_eq hm.role]
    exact hknown

theorem Dsmr.keepsSpread {m : Dsmr Rat} (hlines : CanShare m.setup.lines)
    (h : (dsmr m).total? c flow = some total ∨
      (dsmr m).total? c flow = none ∧ (dsmr m).KeepsSpread flow total) :
    ((dsmr m).after [c]).KeepsSpread flow total := by
  have hcounters : IsSpread (m.refresh (c.answer (.latest m.port))).2.cache.usage flow total
      (devicePhases m.setup.lines false) := by
    rw [usage_refresh]
    refine isSpread_getD (fun t => isSpread_values t hlines flow) ?_
    exact h.imp id fun hkept => ⟨hkept.1, hkept.2.counters⟩
  rw [← m.setup_refresh (c.answer (.latest m.port))] at hcounters
  rw [after_singleton]
  exact ⟨hcounters, trivial⟩

end

/-! ## Runs -/

namespace SpreadsFlow

variable {setup : Setup} {m : Meter Rat} {flow : Flow} {total : Rat}

theorem setup_eq (h : m.SpreadsFlow setup flow) : m.setup = setup := by
  cases h <;> assumption

theorem isDevice (h : m.SpreadsFlow setup flow) : m.IsDevice := by
  cases h <;> trivial

theorem next (h : m.SpreadsFlow setup flow) (c : Round) : (m.after [c]).SpreadsFlow setup flow := by
  cases h with
  | @carloGavazzi m hsetup =>
    rw [CarloGavazzi.after_singleton]
    exact .carloGavazzi hsetup
  | @victron m hsetup hrole hm =>
    rw [Victron.after_singleton]
    exact .victron ((Victron.setup_polled hm.role c).trans hsetup) hrole (hm.polled c)
  | @dsmr m hsetup flow =>
    rw [Dsmr.after_singleton]
    exact .dsmr ((m.setup_refresh _).trans hsetup) flow

theorem after (h : m.SpreadsFlow setup flow) (rounds : List Round) :
    (m.after rounds).SpreadsFlow setup flow := by
  induction rounds generalizing m with
  | nil => exact h
  | cons c rounds ih => exact ih (h.next c)

/-- A poll that reads a total keeps it spread, and one that reads none keeps the one before. -/
theorem keepsSpread_next (h : m.SpreadsFlow setup flow) (hlines : CanShare setup.lines)
    (husage : setup.has .usage) {c : Round}
    (htotal : m.total? c flow = some total ∨ m.total? c flow = none ∧ m.KeepsSpread flow total) :
    (m.after [c]).KeepsSpread flow total := by
  cases h with
  | @carloGavazzi m hsetup =>
    subst hsetup
    exact CarloGavazzi.keepsSpread c hlines husage htotal
  | @victron m hsetup hrole hm =>
    subst hsetup
    exact Victron.keepsSpread c hm hrole hlines husage htotal
  | @dsmr m hsetup flow =>
    subst hsetup
    exact Dsmr.keepsSpread c hlines htotal

theorem keepsSpread_after (h : m.SpreadsFlow setup flow) (hlines : CanShare setup.lines)
    (husage : setup.has .usage) {rounds : List Round}
    (htotal : m.lastTotal? flow rounds = some total ∨
      m.lastTotal? flow rounds = none ∧ m.KeepsSpread flow total) :
    (m.after rounds).KeepsSpread flow total := by
  induction rounds generalizing m with
  | nil =>
    rcases htotal with htotal | ⟨-, hkept⟩
    · cases htotal
    · exact hkept
  | cons c rounds ih =>
    -- A later round may read a total again, and that one is shown then.
    have hrest : (m.after [c]).lastTotal? flow rounds = some total ∨
        (m.after [c]).lastTotal? flow rounds = none ∧ (m.after [c]).KeepsSpread flow total := by
      rw [lastTotal?] at htotal
      cases hlater : (m.after [c]).lastTotal? flow rounds with
      | some later =>
        rw [hlater] at htotal
        simpa using htotal
      | none =>
        rw [hlater] at htotal
        exact .inr ⟨rfl, h.keepsSpread_next hlines husage htotal⟩
    exact ih (h.next c) hrest

theorem usage_write (h : m.SpreadsFlow setup flow) (husage : setup.has .usage)
    (r : Readings Rat) :
    (m.write r).usage = fillUsage r.usage m.kept.usage m.setup.lines m.isSinglePhase := by
  cases h with
  | carloGavazzi hsetup =>
    exact (Cache.usage_fill ..).trans (if_pos (hsetup ▸ husage))
  | @victron m hsetup hrole hm =>
    have hwrite : (Meter.victron m).write r = m.cache.fill m.setup m.isSinglePhase r :=
      if_neg hm.role
    rw [hwrite]
    exact (Cache.usage_fill ..).trans (if_pos (hsetup ▸ husage))
  | @dsmr m hsetup flow =>
    exact (m.fill_eq r).2.trans ((Cache.usage_fill ..).trans (if_pos (hsetup ▸ husage)))

end SpreadsFlow

theorem after_snoc {K : Type} [Quantity K] (m : Meter K) (rounds : List Round) (c : Round) :
    m.after (rounds ++ [c]) = (((m.after rounds).update c.now .zero).outcome c.answer).2.2 := by
  unfold after
  rw [List.foldl_append, List.foldl_cons, List.foldl_nil]

theorem outcome_update_readings {K : Type} [Quantity K] {m : Meter K} (h : m.IsDevice)
    (c : Round) (r : Readings K) :
    ((m.update c.now r).outcome c.answer).2.1 =
      ((m.update c.now r).outcome c.answer).2.2.write r := by
  rw [update_eq c.now h, outcome_seq]
  rfl

/-- Spreading conserves: the readings of a poll show in total what the device told last, in this
round or before. -/
theorem inTotal_eq_lastTotal {slot : SlotConfig} {role : Role} (hslot : slot.fault? role = none)
    (hlines : slot.lines ≠ []) (husage : .usage ∈ slot.attributes) {m : Meter Rat} {flow : Flow}
    (hm : m.SpreadsFlow (slot.slot role).setup flow) (rounds : List Round) (c : Round) {total : Rat}
    (htotal : m.lastTotal? flow (rounds ++ [c]) = some total) :
    (((m.after rounds).update c.now .zero).outcome c.answer).2.1.usage.inTotal flow = total := by
  have hlegal := SlotConfig.fault?_eq_none.1 hslot
  have hshare : CanShare (slot.slot role).setup.lines :=
    ⟨hlines, hlegal.nodup_lines, hlegal.lines_lt⟩
  have hhas : (slot.slot role).setup.has .usage := Setup.has_iff.2 husage
  have hkept := hm.keepsSpread_after hshare hhas (.inl htotal)
  have hafter := hm.after (rounds ++ [c])
  rw [← hafter.setup_eq] at hshare
  rw [outcome_update_readings (hm.after rounds).isDevice, ← after_snoc, hafter.usage_write hhas]
  exact (isSpread_fillUsage hshare hkept.counters).inTotal (canShare_fedLines hshare _)

/-! ## A single phase on two lines -/

def twoLinesSlot : SlotConfig :=
  ⟨"tcp://gx", .modbus, some .victron, 30, 0, [2, 0], [.state, .usage], 1000⟩

/-- A service tells of a single phase and of three kWh provided. -/
def exportRound : Round :=
  Round.answering
    [(Victron.Service.serialBlock .grid, List.replicate 7 0x4141),
      (Victron.Service.phaseCountBlock .grid, [1]),
      (Victron.Service.totalsBlock .grid, List.replicate 15 0 ++ [300])]

theorem export_stays_in_total :
    let m : Meter Rat := .victron (Victron.gx Victron.gxLink (twoLinesSlot.slot .grid).setup)
    let silent : Round := { Round.answering [] with now := ⟨60000000⟩ }
    twoLinesSlot.fault? .grid = none ∧
      m.SpreadsFlow (twoLinesSlot.slot .grid).setup .provided ∧
      m.lastTotal? .provided ([exportRound] ++ [silent]) = some 3 ∧
      (((m.after [exportRound]).update silent.now .zero).outcome
        silent.answer).2.1.usage.inTotal .provided = 3 := by
  intro m silent
  have hslot : twoLinesSlot.fault? .grid = none := by decide +kernel
  have hfound : m.SpreadsFlow (twoLinesSlot.slot .grid).setup .provided :=
    .victron rfl rfl (Victron.coherent_of_probe
      (Victron.outcome_probe_gx Victron.gxLink (by decide)) (by decide))
  have htotal : m.lastTotal? .provided ([exportRound] ++ [silent]) = some 3 := by decide +kernel
  exact ⟨hslot, hfound, htotal, inTotal_eq_lastTotal hslot (List.cons_ne_nil 2 [0])
    (by decide) hfound [exportRound] silent htotal⟩

end Meter

end HomeMetering
