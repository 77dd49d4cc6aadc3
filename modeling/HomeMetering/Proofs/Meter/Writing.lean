import HomeMetering.Meter
import HomeMetering.Proofs.Site.Jobs
import Mathlib.Data.List.Induction
import Mathlib.Tactic.SplitIfs

/-!
# What a meter writes

A poll asks the device and then writes what is kept. Of every cell of the readings, an attribute of
a line, the meter writes its own value or none: what other cells hold has no say in it, and a cell
that the setup does not claim stays as it is.
-/

namespace HomeMetering

open Electricity Site

/-! ## Cells -/

/-- The cells that a setup claims. -/
def Setup.claims (s : Setup) : List (Attribute × LineIndex) :=
  s.attributes.flatMap fun a => s.lines.map fun line => (a, line)

theorem Setup.mem_claims {s : Setup} {a : Attribute} {line : LineIndex} :
    (a, line) ∈ s.claims ↔ a ∈ s.attributes ∧ line ∈ s.lines := by
  simp [claims]

theorem Setup.has_iff {s : Setup} {a : Attribute} : s.has a = true ↔ a ∈ s.attributes := by
  simp [has]

/-- Whether a setup claims the counters of every line, and with them the totals. -/
def Setup.ClaimsTotals (s : Setup) : Prop := ∀ line < lineCount, (Attribute.usage, line) ∈ s.claims

theorem Setup.claimsTotals_iff {s : Setup} :
    s.ClaimsTotals ↔ s.has .usage = true ∧ Meter.coversAllLines s.lines = true := by
  simp only [ClaimsTotals, mem_claims, has_iff, Meter.coversAllLines, List.all_eq_true,
    List.mem_range, List.contains_iff_mem]
  constructor
  · intro h
    exact ⟨(h 0 (by decide)).1, fun line hline => (h line hline).2⟩
  · rintro ⟨husage, hlines⟩ line hline
    exact ⟨husage, hlines line hline⟩

def Electricity.State.at (s : State) (line : LineIndex) :
    Option Float32 × Option Float32 × Option Float32 :=
  (s.current.get? line, s.power.get? line, s.voltage.get? line)

def Electricity.Usage.at {K : Type} (u : Usage K) (line : LineIndex) : Option K × Option K :=
  (u.consumed.get? line, u.provided.get? line)

namespace Readings

variable {K : Type}

/-- What readings hold of one attribute on one line. -/
inductive Cell (K : Type) where
  | state (instant : Option Float32 × Option Float32 × Option Float32)
  | usage (counters : Option K × Option K)

def cell (r : Readings K) : Attribute → LineIndex → Cell K
  | .state, line => .state (r.state.at line)
  | .usage, line => .usage (r.usage.at line)

/-- The totals that were set. -/
def totals (r : Readings K) : K × K := (r.usage.setConsumed, r.usage.setProvided)

theorem cell_eq {r r' : Readings K} (hstate : r.state = r'.state) (husage : r.usage = r'.usage)
    (a : Attribute) (line : LineIndex) : r.cell a line = r'.cell a line := by
  cases a with
  | state => exact congrArg (fun s : State => Cell.state (s.at line)) hstate
  | usage => exact congrArg (fun u : Usage K => Cell.usage (u.at line)) husage

theorem totals_eq {r r' : Readings K} (husage : r.usage = r'.usage) : r.totals = r'.totals := by
  unfold totals
  rw [husage]

end Readings

variable {K : Type} [Quantity K]

/-! ## Lines -/

theorem forall_lt_lineCount {P : LineIndex → Prop} :
    (∀ line < lineCount, P line) ↔ P 0 ∧ P 1 ∧ P 2 := by
  constructor
  · exact fun h => ⟨h 0 (by decide), h 1 (by decide), h 2 (by decide)⟩
  · rintro ⟨h0, h1, h2⟩ line hline
    match line, hline with
    | 0, _ => exact h0
    | 1, _ => exact h1
    | 2, _ => exact h2

theorem PerLine.some_getD_get? {α : Type} (p : PerLine α) (a : α) {i : LineIndex}
    (h : i < lineCount) : some ((p.get? i).getD a) = p.get? i := by
  match i, h with
  | 0, _ | 1, _ | 2, _ => rfl

theorem PerLine.get?_const {α : Type} (a : α) {i : LineIndex} (h : i < lineCount) :
    (PerLine.const a).get? i = some a := by
  match i, h with
  | 0, _ | 1, _ | 2, _ => rfl

theorem Electricity.State.at_copyLine (dst src : State) (phase i line : LineIndex) :
    (dst.copyLine src phase i).at line =
      if i = line ∧ i < lineCount then
        (some ((src.current.get? phase).getD 0), some ((src.power.get? phase).getD 0),
          some ((src.voltage.get? phase).getD 0))
      else dst.at line := by
  unfold State.at copyLine lineCount
  dsimp only
  rw [PerLine.get?_set, PerLine.get?_set, PerLine.get?_set]
  split_ifs <;> rfl

theorem Electricity.Usage.at_copyLine (dst src : Usage K) (phase i line : LineIndex) :
    (dst.copyLine src phase i).at line =
      if i = line ∧ i < lineCount then
        (some ((src.consumed.get? phase).getD Quantity.zero),
          some ((src.provided.get? phase).getD Quantity.zero))
      else dst.at line := by
  unfold Usage.at copyLine lineCount
  dsimp only
  rw [PerLine.get?_set, PerLine.get?_set]
  split_ifs <;> rfl

namespace Meter

theorem mem_phasePairs_iff {lines : List LineIndex} {singlePhase : Bool} {pair : Nat × LineIndex} :
    pair ∈ phasePairs lines singlePhase ↔
      if singlePhase then pair.1 = 0 ∧ lines.head? = some pair.2
      else pair.1 = pair.2 ∧ pair.2 ∈ lines ∧ pair.2 < lineCount := by
  unfold phasePairs
  obtain ⟨phase, line⟩ := pair
  split_ifs
  · simp [eq_comm, and_comm]
  · simp only [List.mem_map, List.mem_filter, decide_eq_true_eq, Prod.mk.injEq]
    constructor
    · rintro ⟨line, hline, rfl, rfl⟩
      exact ⟨rfl, hline⟩
    · rintro ⟨rfl, hline⟩
      exact ⟨phase, hline, rfl, rfl⟩

theorem mem_phasePairs {lines : List LineIndex} {singlePhase : Bool} {pair : Nat × LineIndex}
    (h : pair ∈ phasePairs lines singlePhase) : pair.2 ∈ lines := by
  rw [mem_phasePairs_iff] at h
  split_ifs at h
  · exact List.mem_of_mem_head? h.2
  · exact h.2.1

theorem phasePairs_inj {lines : List LineIndex} {singlePhase : Bool} {p q : Nat × LineIndex}
    (hp : p ∈ phasePairs lines singlePhase) (hq : q ∈ phasePairs lines singlePhase)
    (h : p.2 = q.2) : p = q := by
  rw [mem_phasePairs_iff] at hp hq
  refine Prod.ext ?_ h
  split_ifs at hp hq
  · rw [hp.1, hq.1]
  · rw [hp.1, hq.1, h]

theorem lt_of_mem_phasePairs {lines : List LineIndex} (hlines : ∀ line ∈ lines, line < lineCount)
    {singlePhase : Bool} {pair : Nat × LineIndex} (h : pair ∈ phasePairs lines singlePhase) :
    pair.1 < lineCount ∧ pair.2 < lineCount := by
  have hline := hlines pair.2 (mem_phasePairs h)
  rw [mem_phasePairs_iff] at h
  split_ifs at h
  · exact ⟨h.1 ▸ (by decide), hline⟩
  · exact ⟨h.1 ▸ hline, hline⟩

theorem at_mergeState_congr {dst dst' : State} (src : State) (pairs : List (Nat × LineIndex))
    {line : LineIndex} (h : dst.at line = dst'.at line) :
    (mergeState dst src pairs).at line = (mergeState dst' src pairs).at line := by
  unfold mergeState
  refine List.foldl_rel (r := fun s s' : State => s.at line = s'.at line) h ?_
  intro pair _ s s' hs
  rw [State.at_copyLine, State.at_copyLine, hs]

theorem at_mergeState (dst src : State) {pairs : List (Nat × LineIndex)} {line : LineIndex}
    (h : ∀ pair ∈ pairs, pair.2 ≠ line) : (mergeState dst src pairs).at line = dst.at line := by
  unfold mergeState
  refine List.foldlRecOn pairs _ (motive := fun s : State => s.at line = dst.at line) rfl ?_
  intro s hs pair hpair
  rw [State.at_copyLine, if_neg fun heq => h pair hpair heq.1, hs]

theorem at_mergeUsage_lines (dst src : Usage K) (pairs : List (Nat × LineIndex))
    (withTotals : Bool) (line : LineIndex) :
    (mergeUsage dst src pairs withTotals).at line =
      (pairs.foldl (fun acc pair => acc.copyLine src pair.1 pair.2) dst).at line := by
  unfold mergeUsage
  cases withTotals <;> rfl

theorem at_mergeUsage_congr {dst dst' : Usage K} (src : Usage K) (pairs : List (Nat × LineIndex))
    (withTotals : Bool) {line : LineIndex} (h : dst.at line = dst'.at line) :
    (mergeUsage dst src pairs withTotals).at line =
      (mergeUsage dst' src pairs withTotals).at line := by
  rw [at_mergeUsage_lines, at_mergeUsage_lines]
  refine List.foldl_rel (r := fun u u' : Usage K => u.at line = u'.at line) h ?_
  intro pair _ u u' hu
  rw [Usage.at_copyLine, Usage.at_copyLine, hu]

theorem at_mergeUsage (dst src : Usage K) {pairs : List (Nat × LineIndex)} (withTotals : Bool)
    {line : LineIndex} (h : ∀ pair ∈ pairs, pair.2 ≠ line) :
    (mergeUsage dst src pairs withTotals).at line = dst.at line := by
  rw [at_mergeUsage_lines]
  refine List.foldlRecOn pairs _ (motive := fun u : Usage K => u.at line = dst.at line) rfl ?_
  intro u hu pair hpair
  rw [Usage.at_copyLine, if_neg fun heq => h pair hpair heq.1, hu]

theorem foldl_keeps {α β γ : Type} {f : β → α → β} (view : β → γ) {l : List α} (b : β)
    (h : ∀ b, ∀ a ∈ l, view (f b a) = view b) : view (l.foldl f b) = view b :=
  List.foldlRecOn l f (motive := fun b' => view b' = view b) rfl
    fun b' hb' a ha => (h b' a ha).trans hb'

theorem InstantData.at_stateOf_of_not_mem (f : InstantData) (e : Modbus.Encoding)
    (current : Float32 → Float32 → Float32) {phases : List Nat} (registers : List UInt16)
    {phase : Nat} (h : phase ∉ phases) :
    (f.stateOf e current phases registers).at phase = State.zero.at phase := by
  refine foldl_keeps (fun s : State => s.at phase) .zero fun s p hp => ?_
  have hne : p ≠ phase := fun heq => h (heq ▸ hp)
  simp [State.at, InstantData.addPhase, PerLine.get?_set, hne]

theorem foldl_view {α β γ : Type} {f : β → α → β} (view : β → γ) (hits : α → Prop) {value : γ}
    {l : List α} (b : β) (hhit : ∀ b, ∀ a ∈ l, hits a → view (f b a) = value)
    (hmiss : ∀ b, ∀ a ∈ l, ¬ hits a → view (f b a) = view b) (h : ∃ a ∈ l, hits a) :
    view (l.foldl f b) = value := by
  induction l using List.reverseRecOn with
  | nil => simp at h
  | append_singleton l a ih =>
    rw [List.foldl_append, List.foldl_cons, List.foldl_nil]
    have hlast : a ∈ l ++ [a] := List.mem_append_right _ List.mem_cons_self
    by_cases ha : hits a
    · exact hhit _ a hlast ha
    · rw [hmiss _ a hlast ha]
      refine ih (fun b a ha => hhit b a (List.mem_append_left _ ha))
        (fun b a ha => hmiss b a (List.mem_append_left _ ha)) ?_
      obtain ⟨b, hb, hhits⟩ := h
      rcases List.mem_append.1 hb with hb | hb
      · exact ⟨b, hb, hhits⟩
      · exact absurd (List.mem_singleton.1 hb ▸ hhits) ha

section

variable {pairs : List (Nat × LineIndex)} {pair : Nat × LineIndex}

theorem at_mergeState_of_mem (dst src : State) (hmem : pair ∈ pairs)
    (hinj : ∀ q ∈ pairs, q.2 = pair.2 → q = pair) (hphase : pair.1 < lineCount)
    (hline : pair.2 < lineCount) : (mergeState dst src pairs).at pair.2 = src.at pair.1 := by
  refine foldl_view (fun s : State => s.at pair.2) (fun q => q.2 = pair.2) dst ?_ ?_
    ⟨pair, hmem, rfl⟩
  · intro s q hq heq
    rw [State.at_copyLine, if_pos ⟨heq, heq ▸ hline⟩, hinj q hq heq]
    simp only [PerLine.some_getD_get? _ _ hphase, State.at]
  · intro s q _ hne
    rw [State.at_copyLine, if_neg fun h => hne h.1]

theorem at_mergeUsage_of_mem (dst src : Usage K) (withTotals : Bool) (hmem : pair ∈ pairs)
    (hinj : ∀ q ∈ pairs, q.2 = pair.2 → q = pair) (hphase : pair.1 < lineCount)
    (hline : pair.2 < lineCount) :
    (mergeUsage dst src pairs withTotals).at pair.2 = src.at pair.1 := by
  rw [at_mergeUsage_lines]
  refine foldl_view (fun u : Usage K => u.at pair.2) (fun q => q.2 = pair.2) dst ?_ ?_
    ⟨pair, hmem, rfl⟩
  · intro u q hq heq
    rw [Usage.at_copyLine, if_pos ⟨heq, heq ▸ hline⟩, hinj q hq heq]
    simp only [PerLine.some_getD_get? _ _ hphase, Usage.at]
  · intro u q _ hne
    rw [Usage.at_copyLine, if_neg fun h => hne h.1]

end

theorem setTotals_mergeUsage (dst src : Usage K) (pairs : List (Nat × LineIndex))
    (withTotals : Bool) :
    (mergeUsage dst src pairs withTotals).setConsumed =
        (if withTotals then src.totalConsumed else dst.setConsumed) ∧
      (mergeUsage dst src pairs withTotals).setProvided =
        if withTotals then src.totalProvided else dst.setProvided := by
  have hlines : ∀ u : Usage K,
      (pairs.foldl (fun acc pair => acc.copyLine src pair.1 pair.2) u).setConsumed =
          u.setConsumed ∧
        (pairs.foldl (fun acc pair => acc.copyLine src pair.1 pair.2) u).setProvided =
          u.setProvided := by
    intro u
    exact List.foldlRecOn pairs _
      (motive := fun v : Usage K => v.setConsumed = u.setConsumed ∧ v.setProvided = u.setProvided)
      ⟨rfl, rfl⟩ fun _ hv _ _ => hv
  unfold mergeUsage
  cases withTotals
  · exact hlines dst
  · exact ⟨rfl, rfl⟩

/-! ## What is kept -/

namespace Cache

theorem state_fill (c : Cache K) (setup : Setup) (singlePhase : Bool) (r : Readings K) :
    (c.fill setup singlePhase r).state =
      if setup.has .state then mergeState r.state c.state (phasePairs setup.lines singlePhase)
      else r.state := by
  unfold fill
  dsimp only
  split_ifs <;> rfl

theorem usage_fill (c : Cache K) (setup : Setup) (singlePhase : Bool) (r : Readings K) :
    (c.fill setup singlePhase r).usage =
      if setup.has .usage then fillUsage r.usage c.usage setup.lines singlePhase
      else r.usage := by
  unfold fill
  dsimp only
  split_ifs <;> rfl

theorem cell_fill_congr (c : Cache K) (setup : Setup) (singlePhase : Bool) {r r' : Readings K}
    {a : Attribute} {line : LineIndex} (h : r.cell a line = r'.cell a line) :
    (c.fill setup singlePhase r).cell a line = (c.fill setup singlePhase r').cell a line := by
  cases a with
  | state =>
    refine congrArg Readings.Cell.state ?_
    rw [state_fill, state_fill]
    split_ifs
    · exact at_mergeState_congr _ _ (Readings.Cell.state.inj h)
    · exact Readings.Cell.state.inj h
  | usage =>
    refine congrArg Readings.Cell.usage ?_
    rw [usage_fill, usage_fill]
    split_ifs
    · exact at_mergeUsage_congr _ _ _ (Readings.Cell.usage.inj h)
    · exact Readings.Cell.usage.inj h

theorem cell_fill (c : Cache K) (setup : Setup) (singlePhase : Bool) (r : Readings K)
    {a : Attribute} {line : LineIndex} (h : (a, line) ∉ setup.claims) :
    (c.fill setup singlePhase r).cell a line = r.cell a line := by
  have hline : a ∈ setup.attributes →
      ∀ pair ∈ phasePairs setup.lines singlePhase, pair.2 ≠ line := by
    rintro ha pair hpair rfl
    exact h (Setup.mem_claims.2 ⟨ha, mem_phasePairs hpair⟩)
  cases a with
  | state =>
    refine congrArg Readings.Cell.state ?_
    rw [state_fill]
    split_ifs with hhas
    · exact at_mergeState _ _ (hline (Setup.has_iff.1 hhas))
    · rfl
  | usage =>
    refine congrArg Readings.Cell.usage ?_
    rw [usage_fill]
    split_ifs with hhas
    · exact at_mergeUsage _ _ _ (hline (Setup.has_iff.1 hhas))
    · rfl

theorem totals_fill (c : Cache K) (setup : Setup) (singlePhase : Bool) (r : Readings K) :
    (setup.ClaimsTotals →
        (c.fill setup singlePhase r).totals = (c.usage.totalConsumed, c.usage.totalProvided)) ∧
      (¬ setup.ClaimsTotals → (c.fill setup singlePhase r).totals = r.totals) := by
  unfold Readings.totals
  rw [usage_fill, Setup.claimsTotals_iff]
  constructor
  · rintro ⟨hhas, hcovers⟩
    rw [if_pos hhas, fillUsage, hcovers]
    rfl
  · intro hnot
    split_ifs with hhas
    · have hcovers : coversAllLines setup.lines = false := by
        rw [← Bool.not_eq_true]
        exact fun h => hnot ⟨hhas, h⟩
      have hset := setTotals_mergeUsage r.usage c.usage (phasePairs setup.lines singlePhase) false
      rw [fillUsage, hcovers]
      exact Prod.ext hset.1 hset.2
    · rfl

end Cache

/-! ## Meters -/

namespace Victron

/-- The meter of a service once it has told its number of phases, as far as it does. -/
def identified {K : Type} (m : Victron K) : Job (Victron K) :=
  if m.setup.has .state && !m.isIdentified then m.identify else pure m

theorem all_identified {K : Type} (m : Victron K) :
    m.identified.All (fun _ => True) fun m' => m'.setup = m.setup := by
  unfold identified
  split_ifs
  · refine .bind (.any _) fun serial _ => ?_
    cases serial with
    | error e => exact .done rfl
    | ok registers =>
      refine .bind (.any _) fun phaseCount _ => ?_
      cases phaseCount with
      | error e => exact .done rfl
      | ok registers => exact .done rfl
  · exact .done rfl

theorem update_of_lines (now : Instant) {m : Victron K} (h : m.setup.role ≠ .battery)
    (r : Readings K) :
    m.update now r = do
      let m ← m.identified
      let (changed, cache) ← poll m.setup now m.cache m.readInstant m.readTotals
      return (changed, cache.fill m.setup m.isSinglePhase r, { m with cache }) := by
  unfold update identified
  rw [if_neg h]
  split_ifs <;> rfl

end Victron

theorem Dsmr.setup_refresh (m : Dsmr K) (latest : Option (Nat × Telegram)) :
    (m.refresh latest).2.setup = m.setup := by
  unfold Dsmr.refresh
  split
  · split_ifs <;> rfl
  · rfl

/-- A meter with a device behind it. -/
def IsDevice {K : Type} : Meter K → Prop
  | playback _ => False
  | _ => True

/-- Asks the device: whether an instant value changed, and the meter with what it keeps. -/
def refresh (now : Instant) : Meter K → Job (Bool × Meter K)
  | abb m => do
    let (changed, cache) ← poll m.setup now m.cache m.readInstant m.readTotals
    return (changed, .abb { m with cache })
  | carloGavazzi m => do
    let (changed, cache) ← poll m.setup now m.cache m.readInstant m.readTotals
    return (changed, .carloGavazzi { m with cache })
  | victron m =>
    if m.setup.role = .battery then do
      match ← m.readBattery with
      | .ok battery =>
        let (changed, cache) := m.cache.storeBattery battery
        return (changed, .victron { m with cache })
      | .error _ => return (false, .victron m)
    else do
      let m ← m.identified
      let (changed, cache) ← poll m.setup now m.cache m.readInstant m.readTotals
      return (changed, .victron { m with cache })
  | dsmr m => do
    let (changed, m) := m.refresh (← Job.request (.latest m.port))
    return (changed, .dsmr m)
  | playback m => return (false, .playback m)

/-- Writes what is kept. -/
def write : Meter K → Readings K → Readings K
  | abb m, r => m.cache.fill m.setup m.family.isSinglePhase r
  | carloGavazzi m, r => m.cache.fill m.setup m.family.isSinglePhase r
  | victron m, r =>
    if m.setup.role = .battery then { r with battery := m.cache.battery }
    else m.cache.fill m.setup m.isSinglePhase r
  | dsmr m, r => m.fill r
  | playback _, r => r

theorem all_refresh (now : Instant) {m : Meter K} (h : m.IsDevice) :
    (m.refresh now).All (fun _ => True) fun x => x.2.setup = m.setup ∧ x.2.IsDevice := by
  cases m with
  | abb m => exact .bind (.any _) fun _ _ => .done ⟨rfl, trivial⟩
  | carloGavazzi m => exact .bind (.any _) fun _ _ => .done ⟨rfl, trivial⟩
  | victron m =>
    show Job.All _ _ (ite _ _ _)
    split_ifs
    · refine .bind (.any _) fun answer _ => ?_
      cases answer with
      | ok battery => exact .done ⟨rfl, trivial⟩
      | error e => exact .done ⟨rfl, trivial⟩
    · exact .bind m.all_identified fun m' hm' => .bind (.any _) fun _ _ => .done ⟨hm', trivial⟩
  | dsmr m => exact .bind (.any _) fun latest _ => .done ⟨m.setup_refresh latest, trivial⟩
  | playback m => exact h.elim

/-- A poll asks the device first, whatever the readings are, and then writes what is kept. -/
theorem update_eq (now : Instant) {m : Meter K} (h : m.IsDevice) (r : Readings K) :
    m.update now r = m.refresh now >>= fun x => pure (x.1, x.2.write r, x.2) := by
  cases m with
  | abb m => simp only [update, refresh, Abb.update, bind_assoc, pure_bind, write]
  | carloGavazzi m =>
    simp only [update, refresh, CarloGavazzi.update, bind_assoc, pure_bind, write]
  | victron m =>
    simp only [update, refresh]
    split_ifs with hrole
    · unfold Victron.update
      rw [if_pos hrole]
      simp only [Victron.updateBattery, bind_assoc, pure_bind]
      congr 1
      funext answer
      cases answer <;> simp [write, hrole]
    · rw [Victron.update_of_lines now hrole]
      simp only [bind_assoc]
      refine m.all_identified.bind_congr fun m' hm' => ?_
      simp only [pure_bind, write, hm', if_neg hrole]
      rfl
  | dsmr m => simp only [update, refresh, Dsmr.update, bind_assoc, pure_bind, write]
  | playback m => exact h.elim

theorem Dsmr.fill_eq (m : Dsmr K) (r : Readings K) :
    (m.fill r).state = (m.cache.fill m.setup false r).state ∧
      (m.fill r).usage = (m.cache.fill m.setup false r).usage := by
  unfold Dsmr.fill
  split_ifs <;> exact ⟨rfl, rfl⟩

/-- A meter with a device that counts on lines. -/
def FeedsLines {K : Type} (m : Meter K) : Prop := m.IsDevice ∧ m.setup.role ≠ .battery

/-- A meter of lines writes its cells and totals from its cache. -/
theorem write_eq_fill {m : Meter K} (h : m.FeedsLines) :
    ∃ (c : Cache K) (singlePhase : Bool), ∀ r : Readings K,
      (m.write r).state = (c.fill m.setup singlePhase r).state ∧
        (m.write r).usage = (c.fill m.setup singlePhase r).usage := by
  cases m with
  | abb m => exact ⟨m.cache, m.family.isSinglePhase, fun _ => ⟨rfl, rfl⟩⟩
  | carloGavazzi m => exact ⟨m.cache, m.family.isSinglePhase, fun _ => ⟨rfl, rfl⟩⟩
  | victron m =>
    refine ⟨m.cache, m.isSinglePhase, fun r => ?_⟩
    have hwrite : (victron m).write r = m.cache.fill m.setup m.isSinglePhase r := if_neg h.2
    exact ⟨congrArg Readings.state hwrite, congrArg Readings.usage hwrite⟩
  | dsmr m => exact ⟨m.cache, false, m.fill_eq⟩
  | playback m => exact h.1.elim

variable {m : Meter K} {r r' : Readings K} {a : Attribute} {line : LineIndex}

theorem cell_write_congr (h : m.FeedsLines) (hcell : r.cell a line = r'.cell a line) :
    (m.write r).cell a line = (m.write r').cell a line := by
  obtain ⟨c, singlePhase, hwrite⟩ := write_eq_fill h
  rw [Readings.cell_eq (hwrite r).1 (hwrite r).2, Readings.cell_eq (hwrite r').1 (hwrite r').2]
  exact c.cell_fill_congr m.setup singlePhase hcell

theorem cell_write (h : m.FeedsLines)
    (hclaim : (a, line) ∉ m.setup.claims) : (m.write r).cell a line = r.cell a line := by
  obtain ⟨c, singlePhase, hwrite⟩ := write_eq_fill h
  rw [Readings.cell_eq (hwrite r).1 (hwrite r).2]
  exact c.cell_fill m.setup singlePhase r hclaim

theorem totals_write_congr (h : m.FeedsLines)
    (htotals : r.totals = r'.totals) : (m.write r).totals = (m.write r').totals := by
  obtain ⟨c, singlePhase, hwrite⟩ := write_eq_fill h
  rw [Readings.totals_eq (hwrite r).2, Readings.totals_eq (hwrite r').2]
  by_cases hclaim : m.setup.ClaimsTotals
  · rw [(c.totals_fill _ _ _).1 hclaim, (c.totals_fill _ _ _).1 hclaim]
  · rw [(c.totals_fill _ _ _).2 hclaim, (c.totals_fill _ _ _).2 hclaim, htotals]

theorem totals_write (h : m.FeedsLines)
    (hclaim : ¬ m.setup.ClaimsTotals) : (m.write r).totals = r.totals := by
  obtain ⟨c, singlePhase, hwrite⟩ := write_eq_fill h
  rw [Readings.totals_eq (hwrite r).2, (c.totals_fill _ _ _).2 hclaim]

end Meter

end HomeMetering
