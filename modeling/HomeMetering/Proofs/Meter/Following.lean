import HomeMetering.Proofs.Meter.Writing
import HomeMetering.Proofs.Site.Followers
import HomeMetering.Proofs.Source.Merging

/-!
# Polls of a meter that pushes

The follower of a port reads when bytes come, and a source polls when it is time. However the two
meet, a poll shows what the telegram that came last says, and it tells of a change when there is a
new one that says something else.
-/

namespace HomeMetering

open Electricity Site Site.Job Telegram

namespace Meter.Dsmr

variable {K : Type} [Quantity K]

/-! ## What happens to a meter -/

inductive Event where
  /-- A step of its follower, with what that read. -/
  | follows (read : Option Outcome)
  /-- Anything that leaves its follower as it is. -/
  | elsewhere
  | polls

def Event.telegram? : Event → Option Telegram
  | follows (some (.telegram t)) => some t
  | _ => none

/-- The telegram that came last, the first one before all others. -/
def latest (first : Telegram) (events : List Event) : Telegram :=
  (events.filterMap Event.telegram?).getLast?.getD first

/-- Whether a telegram came since the last poll; before any poll the first one is new. -/
def isFresh (events : List Event) : Bool :=
  events.foldl (fun fresh e =>
    match e with
    | .polls => false
    | e => fresh || e.telegram?.isSome) true

/-- What happened before each poll. -/
def beforePolls : List Event → List (List Event)
  | [] => []
  | .polls :: events => [] :: (beforePolls events).map (.polls :: ·)
  | e :: events => (beforePolls events).map (e :: ·)

/-- The telegram that the last poll with a new one has shown. -/
def shown? (first : Telegram) (events : List Event) : Option Telegram :=
  ((beforePolls events).filter isFresh).getLast?.map (latest first)

/-- A turn of a site and of a meter in it. -/
inductive Turn : Event → Site × Dsmr K → Site × Dsmr K → Prop
  | follows {s t : Site} {m : Dsmr K} {f g : Follower} {read : Option Outcome}
    (hf : s.follower? m.port = some f) (hstep : f.Step read g)
    (hg : t.follower? m.port = some g) : Turn (.follows read) (s, m) (t, m)
  | elsewhere {s t : Site} {m : Dsmr K} (h : t.follower? m.port = s.follower? m.port) :
    Turn .elsewhere (s, m) (t, m)
  | polls {s : Site} {m : Dsmr K} (r : Readings K) :
    Turn .polls (s, m) (((m.update r).run s).2, ((m.update r).run s).1.2.2)

inductive Course (start : Site × Dsmr K) : List Event → Site × Dsmr K → Prop
  | nil : Course start [] start
  | snoc {events : List Event} {a b : Site × Dsmr K} {e : Event} (before : Course start events a)
    (turn : Turn e a b) : Course start (events ++ [e]) b

theorem latest_snoc (first : Telegram) (events : List Event) (e : Event) :
    latest first (events ++ [e]) = e.telegram?.getD (latest first events) := by
  unfold latest
  rw [List.filterMap_append, List.getLast?_append]
  cases h : e.telegram? <;> simp [h]

theorem isFresh_snoc (events : List Event) (e : Event) :
    isFresh (events ++ [e]) =
      match e with
      | .polls => false
      | e => isFresh events || e.telegram?.isSome := by
  unfold isFresh
  rw [List.foldl_append]
  rfl

theorem beforePolls_snoc (events : List Event) (e : Event) :
    beforePolls (events ++ [e]) =
      beforePolls events ++
        match e with
        | .polls => [events]
        | _ => [] := by
  induction events with
  | nil => cases e <;> rfl
  | cons d events ih => cases d <;> cases e <;> simp [beforePolls, ih]

theorem shown?_snoc (first : Telegram) (events : List Event) (e : Event) :
    shown? first (events ++ [e]) =
      match e with
      | .polls => if isFresh events then some (latest first events) else shown? first events
      | _ => shown? first events := by
  unfold shown?
  rw [beforePolls_snoc]
  cases e with
  | polls => cases hfresh : isFresh events <;> simp [hfresh]
  | _ => simp

/-! ## What a telegram contributes -/

/-- The readings that hold what a telegram says, as far as a setup asks for it. -/
def contribution (setup : Setup) (v : Telegram.Values K) : Readings K where
  state := if setup.has .state then v.state else .zero
  usage := if setup.has .usage then
      { v.usage with
        setConsumed :=
          if coversAllLines setup.lines then v.usage.totalConsumed else Quantity.zero
        setProvided :=
          if coversAllLines setup.lines then v.usage.totalProvided else Quantity.zero }
    else .zero
  battery := .zero
  gas := if setup.has .usage && !v.gas.isZero then v.gas else .zero
  water := if setup.has .usage && !v.water.isZero then v.water else .zero

def kept (m : Dsmr K) : Telegram.Values K := ⟨m.cache.state, m.cache.usage, m.gas, m.water⟩

theorem at_stateOf_of_not_mem (t : Telegram) {lines : List LineIndex} {line : LineIndex}
    (h : line ∉ lines) : (t.stateOf lines).at line = State.zero.at line := by
  refine foldl_keeps (fun s : State => s.at line) .zero fun s other hother => ?_
  have hne : other ≠ line := fun heq => h (heq ▸ (List.mem_filter.1 hother).1)
  simp [State.at, addLine, PerLine.get?_set, hne]

theorem at_usageOf_of_not_mem (number? : String → Option K) {lines : List LineIndex}
    {line : LineIndex} (h : line ∉ lines) :
    (Telegram.usageOf number? lines).at line = Usage.zero.at line := by
  refine foldl_keeps (fun u : Usage K => u.at line) .zero fun u other hother => ?_
  have hne : other ≠ line := fun heq => h (heq ▸ (List.mem_filter.1 hother).1)
  simp [Usage.at, PerLine.get?_set, hne]

theorem mergeState_zero {lines : List LineIndex} {src : State}
    (h : ∀ line ∉ lines, src.at line = State.zero.at line) :
    mergeState .zero src (phasePairs lines false) = src := by
  refine State.ext_at fun line hline => ?_
  by_cases hmem : line ∈ lines
  · have hpair : (line, line) ∈ phasePairs lines false := mem_phasePairs_iff.2 ⟨rfl, hmem, hline⟩
    exact at_mergeState_of_mem .zero src hpair (fun q hq heq => phasePairs_inj hq hpair heq) hline
      hline
  · rw [h line hmem]
    exact at_mergeState _ _ fun pair hpair heq => hmem (heq ▸ mem_phasePairs hpair)

theorem fillUsage_zero {lines : List LineIndex} {src : Usage K}
    (h : ∀ line ∉ lines, src.at line = Usage.zero.at line) :
    fillUsage .zero src lines false =
      { src with
        setConsumed := if coversAllLines lines then src.totalConsumed else Quantity.zero
        setProvided := if coversAllLines lines then src.totalProvided else Quantity.zero } := by
  obtain ⟨hconsumed, hprovided⟩ :=
    setTotals_mergeUsage .zero src (phasePairs lines false) (coversAllLines lines)
  refine Usage.ext_at (fun line hline => ?_) hconsumed hprovided
  by_cases hmem : line ∈ lines
  · have hpair : (line, line) ∈ phasePairs lines false := mem_phasePairs_iff.2 ⟨rfl, hmem, hline⟩
    exact at_mergeUsage_of_mem .zero src _ hpair (fun q hq heq => phasePairs_inj hq hpair heq) hline
      hline
  · have hother : ∀ pair ∈ phasePairs lines false, pair.2 ≠ line :=
      fun pair hpair heq => hmem (heq ▸ mem_phasePairs hpair)
    exact (at_mergeUsage .zero src _ hother).trans (h line hmem).symm

theorem fill_zero {m : Dsmr K} {t : Telegram} (h : m.kept = t.values m.setup.lines) :
    m.fill .zero = contribution m.setup (t.values m.setup.lines) := by
  rw [← h]
  have hmerged : mergeState .zero m.cache.state (phasePairs m.setup.lines false) = m.cache.state :=
    mergeState_zero fun line hline =>
      (congrArg (fun v : Values K => v.state.at line) h).trans (at_stateOf_of_not_mem t hline)
  have hfilled : fillUsage .zero m.cache.usage m.setup.lines false = _ :=
    fillUsage_zero fun line hline =>
      (congrArg (fun v : Values K => v.usage.at line) h).trans (at_usageOf_of_not_mem _ hline)
  unfold fill Cache.fill contribution kept
  cases m.setup.has .state <;> cases m.setup.has .usage <;> cases m.gas.isZero <;>
    cases m.water.isZero <;> simp [Readings.zero, hmerged, hfilled]

/-! ## Polls -/

/-- The state that the last poll with a new telegram has shown. -/
def stateShown (setup : Setup) (first : Telegram) (events : List Event) : State :=
  ((shown? first events).map fun t => t.stateOf setup.lines).getD .zero

theorem refresh_of_seen {m : Dsmr K} {f : Follower} (h : m.seen = f.count) :
    m.refresh (some (f.count, f.latest)) = (false, m) :=
  if_pos h.symm

theorem refresh_of_new {m : Dsmr K} {f : Follower} (h : m.seen ≠ f.count) :
    m.refresh (some (f.count, f.latest)) = { m with seen := f.count }.decode f.latest :=
  if_neg (Ne.symm h)

/-- What holds of a meter and its follower after some events. -/
structure Tracks (setup : Setup) (first : Telegram) (events : List Event) (f : Follower)
    (m : Dsmr K) : Prop where
  setup_eq : m.setup = setup
  latest_eq : f.latest = latest first events
  seen_le : m.seen ≤ f.count
  isFresh_iff : isFresh events = true ↔ m.seen ≠ f.count
  kept_eq : m.kept =
    ((shown? first events).map fun t => t.values setup.lines).getD ⟨.zero, .zero, .zero, .zero⟩
  shown_eq : isFresh events = false → shown? first events = some (latest first events)

section

variable {setup : Setup} {first : Telegram} {events : List Event} {f : Follower} {m : Dsmr K}

theorem tracks_ofFirst (device : String) (baud : Nat) (setup : Setup) (port : PortId)
    (first : Telegram) : Tracks setup first [] (.new first)
      (ofFirst device baud setup port first : Dsmr K) where
  setup_eq := rfl
  latest_eq := rfl
  seen_le := Nat.zero_le 1
  isFresh_iff := ⟨fun _ => Nat.zero_ne_one, fun _ => rfl⟩
  kept_eq := rfl
  shown_eq := nofun

theorem Tracks.state_eq (h : Tracks setup first events f m) :
    m.cache.state = stateShown setup first events := by
  have hstate : m.kept.state = _ := congrArg Values.state h.kept_eq
  unfold stateShown
  cases hshown : shown? first events <;> simp_all [kept, Telegram.values]

theorem Tracks.refresh_new (h : Tracks setup first events f m) (hfresh : isFresh events = true) :
    m.refresh (some (f.count, f.latest)) =
      { m with seen := f.count }.decode (latest first events) := by
  rw [refresh_of_new (h.isFresh_iff.1 hfresh), h.latest_eq]

theorem Tracks.refresh_seen (h : Tracks setup first events f m) (hfresh : isFresh events = false) :
    m.refresh (some (f.count, f.latest)) = (false, m) := by
  refine refresh_of_seen (of_not_not fun hne => ?_)
  rw [h.isFresh_iff.2 hne] at hfresh
  exact Bool.noConfusion hfresh

theorem Tracks.quiet {g : Follower} {e : Event} (h : Tracks setup first events f m)
    (hpolls : e ≠ .polls) (he : e.telegram? = none) (hcount : g.count = f.count)
    (hlatest : g.latest = f.latest) : Tracks setup first (events ++ [e]) g m := by
  have hfresh' : isFresh (events ++ [e]) = isFresh events := by
    rw [isFresh_snoc]
    cases e <;> simp_all
  have hshown' : shown? first (events ++ [e]) = shown? first events := by
    rw [shown?_snoc]
    cases e <;> simp_all
  have hlatest' : latest first (events ++ [e]) = latest first events := by
    rw [latest_snoc, he]
    rfl
  refine ⟨h.setup_eq, ?_, ?_, ?_, ?_, ?_⟩
  · rw [hlatest, hlatest', h.latest_eq]
  · rw [hcount]
    exact h.seen_le
  · rw [hcount, hfresh', h.isFresh_iff]
  · rw [hshown', h.kept_eq]
  · rw [hfresh', hshown', hlatest']
    exact h.shown_eq

theorem Tracks.reads_telegram (h : Tracks setup first events f m) (now : Nat) (t : Telegram) :
    Tracks setup first (events ++ [.follows (some (.telegram t))]) (f.take now (.telegram t))
      m := by
  have hseen := h.seen_le
  have hfresh : isFresh (events ++ [.follows (some (.telegram t))]) = true := by
    simp [isFresh_snoc, Event.telegram?]
  refine ⟨h.setup_eq, ?_, ?_, ?_, ?_, ?_⟩
  · rw [latest_snoc]
    rfl
  · exact Nat.le_succ_of_le hseen
  · exact iff_of_true hfresh (Nat.lt_succ_of_le hseen).ne
  · rw [shown?_snoc, h.kept_eq]
  · rw [hfresh]
    exact Bool.noConfusion

theorem Tracks.follows {g : Follower} {read : Option Outcome}
    (h : Tracks setup first events f m) (hstep : f.Step read g) :
    Tracks setup first (events ++ [.follows read]) g m := by
  cases hstep with
  | reads now o hphase =>
    cases o with
    | telegram t => exact h.reads_telegram now t
    | rejected e => exact h.quiet nofun rfl rfl rfl
    | failed e => cases e <;> exact h.quiet nofun rfl rfl rfl
  | wakes hphase => exact h.quiet nofun rfl rfl rfl
  | stops => exact h.quiet nofun rfl rfl rfl

theorem Tracks.polls (h : Tracks setup first events f m) :
    Tracks setup first (events ++ [.polls]) f (m.refresh (some (f.count, f.latest))).2 := by
  have hlatest : latest first (events ++ [.polls]) = latest first events := latest_snoc ..
  cases hfresh : isFresh events with
  | false =>
    have hshown : shown? first (events ++ [.polls]) = shown? first events := by
      simp [shown?_snoc, hfresh]
    rw [h.refresh_seen hfresh]
    refine ⟨h.setup_eq, ?_, h.seen_le, ?_, ?_, fun _ => ?_⟩
    · rw [hlatest, h.latest_eq]
    · rw [isFresh_snoc, ← hfresh, h.isFresh_iff]
    · rw [hshown, h.kept_eq]
    · rw [hshown, hlatest, h.shown_eq hfresh]
  | true =>
    have hshown : shown? first (events ++ [.polls]) = some (latest first events) := by
      simp [shown?_snoc, hfresh]
    rw [h.refresh_new hfresh]
    refine ⟨h.setup_eq, ?_, le_refl f.count, ?_, ?_, fun _ => ?_⟩
    · rw [hlatest, h.latest_eq]
    · rw [isFresh_snoc]
      exact iff_of_false Bool.false_ne_true (not_not_intro rfl)
    · rw [hshown, ← h.setup_eq]
      rfl
    · rw [hshown, hlatest]

theorem Tracks.poll (h : Tracks setup first events f m) :
    let refreshed := m.refresh (some (f.count, f.latest))
    refreshed.2.fill .zero = contribution setup ((latest first events).values setup.lines) ∧
      refreshed.1 = (isFresh events &&
        stateShown setup first events != (latest first events).stateOf setup.lines) := by
  -- After the poll nothing is new, so what is kept is what has just been shown.
  have hafter := h.polls
  constructor
  · have hkept := hafter.kept_eq
    rw [hafter.shown_eq (isFresh_snoc ..), ← hafter.setup_eq] at hkept
    rw [fill_zero hkept, hafter.setup_eq, latest_snoc]
    rfl
  · cases hfresh : isFresh events with
    | false => rw [h.refresh_seen hfresh, Bool.false_and]
    | true =>
      rw [h.refresh_new hfresh, Bool.true_and, ← h.state_eq, ← h.setup_eq]
      rfl

end

theorem run_update (m : Dsmr K) (r : Readings K) (s : Site) :
    (m.update r).run s =
      let refreshed := m.refresh (s.latestOf m.port)
      ((refreshed.1, refreshed.2.fill r, refreshed.2), s) := rfl

theorem port_refresh (m : Dsmr K) (latest : Option (Nat × Telegram)) :
    (m.refresh latest).2.port = m.port := by
  unfold refresh
  cases latest with
  | none => rfl
  | some _ =>
    dsimp only
    split_ifs <;> rfl

theorem follower?_update (m : Dsmr K) (r : Readings K) (s : Site) :
    ((m.update r).run s).2.follower? ((m.update r).run s).1.2.2.port = s.follower? m.port := by
  rw [run_update]
  dsimp only
  rw [port_refresh]

theorem latestOf_of_follower? {s : Site} {port : PortId} {f : Follower}
    (h : s.follower? port = some f) : s.latestOf port = some (f.count, f.latest) := by
  rw [latestOf_eq, h]
  rfl

/-- Whatever happens, a meter and its follower stay in step. -/
theorem Course.tracks {start finish : Site × Dsmr K} {setup : Setup} {first : Telegram}
    {events : List Event} (hcourse : Course start events finish)
    (hstart : ∃ f, start.1.follower? start.2.port = some f ∧ Tracks setup first [] f start.2) :
    ∃ f, finish.1.follower? finish.2.port = some f ∧ Tracks setup first events f finish.2 := by
  induction hcourse with
  | nil => exact hstart
  | snoc _ turn ih =>
    obtain ⟨f, hf, h⟩ := ih
    cases turn with
    | follows hf' hstep hg =>
      obtain rfl := Option.some.inj (hf'.symm.trans hf)
      exact ⟨_, hg, h.follows hstep⟩
    | elsewhere hsame => exact ⟨f, hsame.trans hf, h.quiet nofun rfl rfl rfl⟩
    | polls r =>
      refine ⟨f, (follower?_update _ r _).trans hf, ?_⟩
      rw [run_update, latestOf_of_follower? hf]
      exact h.polls

theorem Course.steps {start : Site × Dsmr K} {events : List Event} {s t : Site} {m : Dsmr K}
    {f g : Follower} {reads : List (Option Outcome)} (hcourse : Course start events (s, m))
    (hf : s.follower? m.port = some f) (hsteps : f.Steps reads g)
    (hg : t.follower? m.port = some g) :
    Course start (events ++ (reads.map .follows ++ [.elsewhere])) (t, m) := by
  induction hsteps generalizing s events with
  | nil f =>
    exact hcourse.snoc (.elsewhere (hg.trans hf.symm))
  | @cons f g' _ read reads first rest ih =>
    -- The sites in between differ from the first one in the follower alone.
    obtain ⟨p, hp, -⟩ := Option.bind_eq_some_iff.1 hf
    have hput := follower?_put hp g'
    rw [List.map_cons, List.cons_append, List.append_cons]
    exact ih (hcourse.snoc (.follows hf first hput)) hput hg

/-- What is asked of a site, other than to follow the port anew, is part of a course. -/
theorem Course.answer {start : Site × Dsmr K} {events : List Event} {s : Site} {m : Dsmr K}
    {f : Follower} (hcourse : Course start events (s, m)) (hf : s.follower? m.port = some f)
    (q : Request) (hq : ∀ first, q ≠ .follow m.port first) :
    ∃ reads : List (Option Outcome),
      Course start (events ++ (reads.map .follows ++ [.elsewhere])) ((s.answer q).2, m) := by
  obtain ⟨reads, g, hsteps, hg⟩ := answer_steps hf q hq
  exact ⟨reads, hcourse.steps hf hsteps hg⟩

/-- So is the passing of time. -/
theorem Course.pass {start : Site × Dsmr K} {events : List Event} {s : Site} {m : Dsmr K}
    {f : Follower} (hcourse : Course start events (s, m)) (hf : s.follower? m.port = some f)
    (millis : Nat) :
    ∃ reads : List (Option Outcome),
      Course start (events ++ (reads.map .follows ++ [.elsewhere])) (s.pass millis, m) := by
  obtain ⟨reads, g, hsteps, hg⟩ := pass_steps hf millis
  exact ⟨reads, hcourse.steps hf hsteps hg⟩

theorem run_probe {device : String} {baud : Nat} (setup : Setup) {timeout : Nat} {s s₁ s₂ : Site}
    {port : PortId} {first : Telegram} (hopen : s.openPort device baud = (.ok port, s₁))
    (hfirst : s₁.firstTelegram port timeout = (some (.telegram first), s₂)) :
    (probe device baud setup timeout).run s =
      (.ok (ofFirst device baud setup port first : Dsmr K),
        (s₂.answer (.follow port first)).2) := by
  have hopen' : (request (.openPort device baud)).run s = _ := hopen
  have hfirst' : (request (.firstTelegram port timeout)).run s₁ = _ := hfirst
  unfold probe
  rw [run_seq, hopen']
  dsimp only
  rw [run_seq, hfirst']
  rfl

theorem probe_starts {device : String} {baud : Nat} {setup : Setup} {timeout : Nat} {s t : Site}
    {m : Dsmr K} (h : (probe device baud setup timeout).run s = (.ok m, t)) :
    ∃ port first, m = ofFirst device baud setup port first ∧
      t.follower? port = some (.new first) := by
  rcases hopen : s.openPort device baud with ⟨_ | port, s₁⟩
  · have hopen' : (request (.openPort device baud)).run s = _ := hopen
    rw [probe, run_seq, hopen'] at h
    exact nomatch congrArg Prod.fst h
  rcases hfirst : s₁.firstTelegram port timeout with ⟨_ | first | e | e, s₂⟩
  case some.telegram =>
    rw [run_probe setup hopen hfirst] at h
    obtain ⟨p, hp⟩ := getElem?_firstTelegram hfirst
    have hfollow : (s₂.answer (.follow port first)).2 = t := congrArg Prod.snd h
    rw [← hfollow]
    exact ⟨port, first, (Except.ok.inj (congrArg Prod.fst h)).symm, follower?_put hp _⟩
  all_goals
    have hopen' : (request (.openPort device baud)).run s = _ := hopen
    have hfirst' : (request (.firstTelegram port timeout)).run s₁ = _ := hfirst
    rw [probe, run_seq, hopen'] at h
    dsimp only at h
    rw [run_seq, hfirst'] at h
    exact nomatch congrArg Prod.fst h

/-- Every poll after a probe shows what the telegram that came last says, and tells whether it is
new and says something else than the one that was shown before it. -/
theorem poll_shows_latest {device : String} {baud : Nat} {setup : Setup} {timeout : Nat}
    {s₀ s : Site} {m₀ : Dsmr K} (hprobe : (probe device baud setup timeout).run s₀ = (.ok m₀, s)) :
    ∃ first, s.latestOf m₀.port = some (1, first) ∧
      ∀ events t m, Course (s, m₀) events (t, m) →
        ((m.update .zero).run t).1.2.1 =
            contribution setup ((latest first events).values setup.lines) ∧
          ((m.update .zero).run t).1.1 =
            (isFresh events &&
              stateShown setup first events != (latest first events).stateOf setup.lines) := by
  obtain ⟨port, first, rfl, hfollower⟩ := probe_starts hprobe
  refine ⟨first, latestOf_of_follower? hfollower, fun events t m hcourse => ?_⟩
  obtain ⟨f, hf, htracks⟩ :=
    hcourse.tracks ⟨_, hfollower, tracks_ofFirst device baud setup port first⟩
  rw [run_update, latestOf_of_follower? hf]
  exact htracks.poll

/-! ## A new telegram after a poll -/

/-- A telegram that tells no more than the power on the first line. -/
def telling (kilowatts : String) : Telegram :=
  ⟨"/KAM5", [("1-0:21.7.0", [kilowatts])]⟩

/-- A site where a smart meter has sent a telegram. -/
def cupboard : Site :=
  .new [] [("p1", [(115200, [.bytes (Text.Utf8.encode "/KAM5\n\n1-0:21.7.0(1)\n!\n".toList)])])]
    ⟨fun _ => .timeout, .notFound⟩

def cupboardSetup : Setup := ⟨.grid, [0], [.state], 1000⟩

theorem run_probe_cupboard :
    ∃ s, (probe "p1" 115200 cupboardSetup 1000).run cupboard =
        (.ok (ofFirst "p1" 115200 cupboardSetup 0 (telling "1") : Dsmr Rat), s) ∧
      s.follower? 0 = some (.new (telling "1")) := by
  have hfirst : ((cupboard.openPort "p1" 115200).2.firstTelegram 0 1000).1 =
      some (.telegram (telling "1")) := by decide +kernel
  obtain ⟨p, hp⟩ := getElem?_firstTelegram (Prod.ext hfirst rfl)
  exact ⟨_, run_probe cupboardSetup (Prod.ext (by rfl) rfl) (Prod.ext hfirst rfl),
    follower?_put hp _⟩

/-- A poll, one more telegram, one that is rejected: the next poll shows the second one. -/
theorem next_power_is_shown :
    ∃ (s t : Site) (m₀ m : Dsmr Rat) (events : List Event),
      (probe "p1" 115200 cupboardSetup 1000).run cupboard = (.ok m₀, s) ∧
      events = [.polls, .follows (some (.telegram (telling "2"))),
        .follows (some (.rejected .missingTrailer)), .elsewhere] ∧
      Course (s, m₀) events (t, m) ∧
      ((m.update .zero).run t).1.2.1.state = (telling "2").stateOf [0] ∧
      ((m.update .zero).run t).1.1 = true := by
  obtain ⟨s, hprobe, hfollower⟩ := run_probe_cupboard
  obtain ⟨first, hfirst, hpolls⟩ := poll_shows_latest hprobe
  obtain ⟨p, hp, -⟩ := Option.bind_eq_some_iff.1 hfollower
  obtain ⟨t, ht⟩ : ∃ t : Site, t.follower? 0 = some ⟨.reading, 2, telling "2"⟩ :=
    ⟨_, follower?_put hp _⟩
  obtain rfl : telling "1" = first := by
    rw [ofFirst, latestOf_of_follower? hfollower] at hfirst
    exact congrArg Prod.snd (Option.some.inj hfirst)
  have hpoll : Course (s, (ofFirst "p1" 115200 cupboardSetup 0 (telling "1") : Dsmr Rat))
      [.polls] _ := Course.nil.snoc (.polls .zero)
  have hcourse := hpoll.steps ((follower?_update _ _ s).trans hfollower)
    (.cons (.reads 0 (.telegram (telling "2")) rfl)
      (.cons (.reads 0 (.rejected .missingTrailer) rfl) (.nil _)))
    ((congrArg t.follower? (port_refresh _ _)).trans ht)
  obtain ⟨hshown, hchanged⟩ := hpolls _ _ _ hcourse
  exact ⟨s, _, _, _, _, hprobe, rfl, hcourse, congrArg Readings.state hshown,
    hchanged.trans (by decide +kernel)⟩

end Meter.Dsmr

end HomeMetering
