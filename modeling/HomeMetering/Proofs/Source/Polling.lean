import HomeMetering.Proofs.Source.Tasks

/-!
# Polled by one task, closed once

What was seen of a source adds up: the updates and shutdowns of each meter follow from the ticks
that have ended and the phase that the task is in. This holds at every moment, so also for every
tick. No moment is a dead end: a tick that has begun can end, and so can a task that is told to.
-/

namespace HomeMetering

namespace Tasks

/-! ## What a phase has seen -/

def Event.beginsUpdate : Event → Bool
  | updateBegan _ => true
  | _ => false

def Event.endsUpdate : Event → Bool
  | updateEnded _ => true
  | _ => false

namespace Phase

/-- Ticks that have not ended. -/
def inTick : Phase → Nat
  | claiming => 1
  | polling _ => 1
  | updating _ => 1
  | publishing => 1
  | _ => 0

/-- Updates of a meter that began in the tick. -/
def begun (m : Nat) : Phase → Nat
  | polling i => if m < i then 1 else 0
  | updating i => if m ≤ i then 1 else 0
  | publishing => 1
  | _ => 0

/-- Updates of a meter that ended in the tick. -/
def updated (m : Nat) : Phase → Nat
  | polling i => if m < i then 1 else 0
  | updating i => if m < i then 1 else 0
  | publishing => 1
  | _ => 0

/-- Updates that have not ended. -/
def underWay : Phase → Nat
  | updating _ => 1
  | _ => 0

/-- Shutdowns of a meter that began. -/
def shut (m : Nat) : Phase → Nat
  | closing i _ => if m < i then 1 else 0
  | ended => 1
  | _ => 0

/-- Shutdowns of a meter that ended. -/
def gone (m : Nat) : Phase → Nat
  | closing _ ms => if m ∈ ms then 1 else 0
  | ended => 1
  | _ => 0

/-- Whether meters may still be polled. -/
def isOpen : Phase → Bool
  | closing _ _ => false
  | ended => false
  | _ => true

@[simp] theorem inTick_waiting : waiting.inTick = 0 := rfl

@[simp] theorem underWay_waiting : waiting.underWay = 0 := rfl

@[simp] theorem begun_waiting (m : Nat) : waiting.begun m = 0 := rfl

@[simp] theorem updated_waiting (m : Nat) : waiting.updated m = 0 := rfl

@[simp] theorem shut_waiting (m : Nat) : waiting.shut m = 0 := rfl

@[simp] theorem gone_waiting (m : Nat) : waiting.gone m = 0 := rfl

section

variable (p : Phase)

theorem inTick_le_one : p.inTick ≤ 1 := by
  cases p <;> simp [inTick]

theorem underWay_le_inTick : p.underWay ≤ p.inTick := by
  cases p <;> simp [underWay, inTick]

theorem shut_le_one (m : Nat) : p.shut m ≤ 1 := by
  cases p <;> simp only [shut] <;> first | omega | split_ifs <;> omega

variable {p}

theorem at_rest (h : p.inTick = 0) (m : Nat) : p.begun m = 0 ∧ p.updated m = 0 := by
  cases p <;> simp_all [inTick, begun, updated]

theorem underWay_of_closed (h : p.isOpen = false) : p.underWay = 0 := by
  cases p <;> simp_all [isOpen, underWay]

end

end Phase

/-! ## Balances -/

/-- What is seen on the way from one phase of a task to another makes up for what the phases have
seen. -/
structure Balance (n : Nat) (p : Phase) (seen : List Event) (p' : Phase) : Prop where
  ticks : seen.count .tickBegan + p.inTick = seen.count .tickEnded + p'.inTick
  underWay : seen.countP Event.beginsUpdate + p.underWay =
    seen.countP Event.endsUpdate + p'.underWay
  begun : ∀ m < n, seen.count (.updateBegan m) + p.begun m = seen.count .tickEnded + p'.begun m
  updated : ∀ m < n,
    seen.count (.updateEnded m) + p.updated m = seen.count .tickEnded + p'.updated m
  shut : ∀ m < n, seen.count (.shutdownBegan m) + p.shut m = p'.shut m
  gone : ∀ m < n, seen.count (.shutdownEnded m) + p.gone m = p'.gone m
  early : p'.isOpen = true → p.isOpen = true ∧ ∀ m, .shutdownBegan m ∉ seen
  ended : .ended ∈ seen ∨ p = .ended → p' = .ended

namespace Phase

namespace Goes

variable {n m : Nat} {isCancelled : Bool} {p p' : Phase} {e : Option Event}

theorem ticks_eq (h : p.Goes n isCancelled e p') :
    e.toList.count .tickBegan + p.inTick = e.toList.count .tickEnded + p'.inTick := by
  cases h <;> rfl

theorem underWay_eq (h : p.Goes n isCancelled e p') :
    e.toList.countP Event.beginsUpdate + p.underWay =
      e.toList.countP Event.endsUpdate + p'.underWay := by
  cases h <;> rfl

theorem begun_eq (h : p.Goes n isCancelled e p') (hm : m < n) :
    e.toList.count (.updateBegan m) + p.begun m = e.toList.count .tickEnded + p'.begun m := by
  cases h with
  | @poll i left =>
    simp only [Option.toList_some, List.count_singleton, Phase.begun, beq_iff_eq,
      Event.updateBegan.injEq, reduceCtorEq, if_false]
    split_ifs <;> omega
  | @polled i =>
    simp only [Option.toList_some, List.count_singleton, Phase.begun, beq_iff_eq, reduceCtorEq,
      Nat.lt_succ_iff]
  | release all => exact congrArg (0 + ·) (if_pos (Nat.lt_of_lt_of_le hm all))
  | _ => rfl

theorem updated_eq (h : p.Goes n isCancelled e p') (hm : m < n) :
    e.toList.count (.updateEnded m) + p.updated m = e.toList.count .tickEnded + p'.updated m := by
  cases h with
  | @polled i =>
    simp only [Option.toList_some, List.count_singleton, Phase.updated, beq_iff_eq,
      Event.updateEnded.injEq, reduceCtorEq, if_false]
    split_ifs <;> omega
  | release all => exact congrArg (0 + ·) (if_pos (Nat.lt_of_lt_of_le hm all))
  | _ => rfl

theorem shut_eq (h : p.Goes n isCancelled e p') (hm : m < n) :
    e.toList.count (.shutdownBegan m) + p.shut m = p'.shut m := by
  cases h with
  | @shut i gone left =>
    simp only [Option.toList_some, List.count_singleton, Phase.shut, beq_iff_eq,
      Event.shutdownBegan.injEq]
    split_ifs <;> omega
  | finish all _ => exact congrArg (0 + ·) (if_pos (Nat.lt_of_lt_of_le hm all))
  | hear _ _ => exact Nat.zero_add _
  | _ => rfl

theorem gone_eq (h : p.Goes n isCancelled e p') (hm : m < n) :
    e.toList.count (.shutdownEnded m) + p.gone m = p'.gone m := by
  cases h with
  | @hear i m' gone _ hopen =>
    simp only [Option.toList_some, List.count_singleton, Phase.gone, beq_iff_eq,
      Event.shutdownEnded.injEq, List.mem_cons]
    by_cases hm' : m' = m
    · subst hm'
      rw [if_pos rfl, if_neg hopen, if_pos (Or.inl rfl)]
    · rw [if_neg hm', Nat.zero_add]
      exact if_congr (by simp [Ne.symm hm']) rfl rfl
  | finish _ heard => exact congrArg (0 + ·) (if_pos (heard m hm))
  | shut _ => exact Nat.zero_add _
  | _ => rfl

theorem balance (h : p.Goes n isCancelled e p') : Balance n p e.toList p' where
  ticks := h.ticks_eq
  underWay := h.underWay_eq
  begun _ hm := h.begun_eq hm
  updated _ hm := h.updated_eq hm
  shut _ hm := h.shut_eq hm
  gone _ hm := h.gone_eq hm
  early hopen := by
    cases h <;> first | exact ⟨rfl, fun m => by simp⟩ | cases hopen
  ended hended := by
    cases h <;> first | rfl | simp at hended

end Goes

end Phase

namespace Balance

variable {n : Nat} {p p' p'' : Phase} {seen later : List Event}

theorem call (n : Nat) (p : Phase) {e : Event} (he : e = .started ∨ e = .refused) :
    Balance n p [e] p := by
  rcases he with rfl | rfl
  · exact ⟨rfl, rfl, fun _ _ => rfl, fun _ _ => rfl, fun _ _ => Nat.zero_add _,
      fun _ _ => Nat.zero_add _, fun h => ⟨h, by simp⟩, by simp⟩
  · exact ⟨rfl, rfl, fun _ _ => rfl, fun _ _ => rfl, fun _ _ => Nat.zero_add _,
      fun _ _ => Nat.zero_add _, fun h => ⟨h, by simp⟩, by simp⟩

theorem append (h : Balance n p seen p') (h' : Balance n p' later p'') :
    Balance n p (seen ++ later) p'' where
  ticks := by
    have hfirst := h.ticks
    have hsecond := h'.ticks
    rw [List.count_append, List.count_append]
    omega
  underWay := by
    have hfirst := h.underWay
    have hsecond := h'.underWay
    rw [List.countP_append, List.countP_append]
    omega
  begun m hm := by
    have hfirst := h.begun m hm
    have hsecond := h'.begun m hm
    rw [List.count_append, List.count_append]
    omega
  updated m hm := by
    have hfirst := h.updated m hm
    have hsecond := h'.updated m hm
    rw [List.count_append, List.count_append]
    omega
  shut m hm := by
    have hfirst := h.shut m hm
    have hsecond := h'.shut m hm
    rw [List.count_append]
    omega
  gone m hm := by
    have hfirst := h.gone m hm
    have hsecond := h'.gone m hm
    rw [List.count_append]
    omega
  early hopen := by
    obtain ⟨hmiddle, hlater⟩ := h'.early hopen
    obtain ⟨hbefore, hseen⟩ := h.early hmiddle
    refine ⟨hbefore, fun m hmem => ?_⟩
    rcases List.mem_append.1 hmem with hmem | hmem
    · exact hseen m hmem
    · exact hlater m hmem
  ended hended := by
    rcases hended with hmem | hp
    · rcases List.mem_append.1 hmem with hmem | hmem
      · exact h'.ended (.inr (h.ended (.inl hmem)))
      · exact h'.ended (.inl hmem)
    · exact h'.ended (.inr (h.ended (.inr hp)))

end Balance

theorem kept_balance (n : Nat) :
    Kept n fun _ t seen => Balance n .waiting seen t.phase where
  started _ _ := .call n .waiting (.inl rfl)
  refused h := h.append (.call n _ (.inr rfl))
  cancel _ h := h
  goes h hgoes := h.append hgoes.balance

theorem exists_balance (n : Nat) (acts : List Action) (seen : List Event)
    (h : seen <+: ((new n).run acts).2) : ∃ phase, Balance n .waiting seen phase := by
  obtain ⟨earlier, -, rfl⟩ := (new n).exists_earlier h
  rcases (kept_balance n).run earlier with
    ⟨-, cancelled, hrun⟩ | ⟨-, cancelled, t, seen, hrun, hP⟩
  · rw [hrun]
    exact ⟨.waiting, rfl, rfl, fun _ _ => rfl, fun _ _ => rfl, fun _ _ => rfl, fun _ _ => rfl,
      fun _ => ⟨rfl, nofun⟩, by simp⟩
  · rw [hrun]
    exact ⟨t.phase, hP⟩

/-! ## Ticks and shutdowns -/

section

variable {n : Nat} {acts : List Action} {before tick after : List Event} {m : Nat}

theorem updates_in_tick
    (h : ((new n).run acts).2 = before ++ .tickBegan :: (tick ++ .tickEnded :: after))
    (hopen : .tickEnded ∉ tick) (hm : m < n) :
    tick.count (.updateBegan m) = 1 ∧ tick.count (.updateEnded m) = 1 := by
  obtain ⟨p₀, h₀⟩ := exists_balance n acts before ⟨_, h.symm⟩
  obtain ⟨p₁, h₁⟩ := exists_balance n acts (before ++ [.tickBegan])
    ⟨tick ++ .tickEnded :: after, by rw [h]; simp⟩
  obtain ⟨p₂, h₂⟩ := exists_balance n acts (before ++ .tickBegan :: tick)
    ⟨.tickEnded :: after, by rw [h]; simp⟩
  obtain ⟨p₃, h₃⟩ := exists_balance n acts (before ++ .tickBegan :: (tick ++ [.tickEnded]))
    ⟨after, by rw [h]; simp⟩
  have hnone := List.count_eq_zero_of_not_mem hopen
  have hfirst := p₁.inTick_le_one
  have hlast := p₂.inTick_le_one
  have ht₀ := h₀.ticks
  have ht₁ := h₁.ticks
  have ht₂ := h₂.ticks
  have ht₃ := h₃.ticks
  simp [List.count_append, hnone] at ht₀ ht₁ ht₂ ht₃
  -- No tick is under way before it, and none after it.
  have hrest₀ : p₀.inTick = 0 := by omega
  have hrest₃ : p₃.inTick = 0 := by omega
  have hb₀ := h₀.begun m hm
  have hb₃ := h₃.begun m hm
  have hu₀ := h₀.updated m hm
  have hu₃ := h₃.updated m hm
  rw [(Phase.at_rest hrest₀ m).1] at hb₀
  rw [(Phase.at_rest hrest₃ m).1] at hb₃
  rw [(Phase.at_rest hrest₀ m).2] at hu₀
  rw [(Phase.at_rest hrest₃ m).2] at hu₃
  simp [List.count_append, hnone] at hb₀ hb₃ hu₀ hu₃
  omega

theorem alone_in_tick (h : ((new n).run acts).2 = before ++ .updateBegan m :: after) :
    before.count .tickBegan = before.count .tickEnded + 1 ∧
      before.countP Event.beginsUpdate = before.countP Event.endsUpdate := by
  obtain ⟨p, hp⟩ := exists_balance n acts before ⟨_, h.symm⟩
  obtain ⟨p', hp'⟩ := exists_balance n acts (before ++ [.updateBegan m])
    ⟨after, by rw [h]; simp⟩
  have hle := p'.underWay_le_inTick
  have hone := p'.inTick_le_one
  have hway := hp.underWay
  have hway' := hp'.underWay
  have hticks := hp'.ticks
  simp [List.count_append, List.countP_append, List.countP_cons, Event.beginsUpdate,
    Event.endsUpdate] at hway hway' hticks
  constructor <;> omega

theorem no_update_after_shutdown
    (h : ((new n).run acts).2 = before ++ .shutdownBegan m :: after) :
    before.countP Event.beginsUpdate = before.countP Event.endsUpdate ∧
      ∀ m', .updateBegan m' ∉ after := by
  have hclosed : ∀ {seen p}, .shutdownBegan m ∈ seen → Balance n .waiting seen p →
      p.underWay = 0 := by
    intro seen p hmem hp
    apply Phase.underWay_of_closed
    rw [← Bool.not_eq_true]
    exact fun hopen => (hp.early hopen).2 m hmem
  constructor
  · obtain ⟨p, hp⟩ := exists_balance n acts (before ++ [.shutdownBegan m])
      ⟨after, by rw [h]; simp⟩
    have hway := hp.underWay
    rw [hclosed (by simp) hp] at hway
    simpa [Event.beginsUpdate, Event.endsUpdate] using hway
  · intro m' hmem
    obtain ⟨between, rest, rfl⟩ := List.append_of_mem hmem
    obtain ⟨p, hp⟩ := exists_balance n acts (before ++ .shutdownBegan m :: between)
      ⟨.updateBegan m' :: rest, by rw [h]; simp⟩
    obtain ⟨p', hp'⟩ := exists_balance n acts
      (before ++ .shutdownBegan m :: between ++ [.updateBegan m'])
      ⟨rest, by rw [h]; simp⟩
    have hway := hp.underWay
    have hway' := hp'.underWay
    rw [hclosed (by simp) hp] at hway
    rw [hclosed (by simp) hp', List.countP_append, List.countP_append] at hway'
    simp [Event.beginsUpdate, Event.endsUpdate] at hway hway'
    omega

theorem shut_once (acts : List Action) (hm : m < n) :
    ((new n).run acts).2.count (.shutdownBegan m) ≤ 1 ∧
      (.ended ∈ ((new n).run acts).2 → ((new n).run acts).2.count (.shutdownBegan m) = 1 ∧
        ((new n).run acts).2.count (.shutdownEnded m) = 1) := by
  obtain ⟨p, hp⟩ := exists_balance n acts _ (List.prefix_refl _)
  have hshut := hp.shut m hm
  have hgone := hp.gone m hm
  rw [Phase.shut_waiting, Nat.add_zero] at hshut
  rw [Phase.gone_waiting, Nat.add_zero] at hgone
  refine ⟨hshut ▸ p.shut_le_one m, fun hended => ?_⟩
  rw [hshut, hgone, hp.ended (.inl hended)]
  exact ⟨rfl, rfl⟩

end

/-! ## Calls -/

theorem Phase.Goes.no_call {n : Nat} {isCancelled : Bool} {p p' : Phase} {e : Option Event}
    (h : p.Goes n isCancelled e p') :
    e.toList.count .started = 0 ∧ e.toList.count .refused = 0 := by
  cases h <;> exact ⟨rfl, rfl⟩

theorem answers_act (s : Tasks) (a : Action) :
    (s.act a).2.toList.count .started + (s.act a).2.toList.count .refused =
      if a.isStart then 1 else 0 := by
  cases a with
  | start token =>
    unfold act
    dsimp only
    by_cases hrunning : s.isRunning = true
    · rw [if_pos hrunning]
      rfl
    · rw [if_neg hrunning]
      rfl
  | cancel token => rfl
  | move i move =>
    unfold act
    dsimp only
    cases s.tasks[i]? with
    | none => rfl
    | some t =>
      dsimp only
      cases hafter : t.phase.after? s.meters s.isFree (s.cancelled.contains t.token) move with
      | none => rfl
      | some step =>
        obtain ⟨hstarted, hrefused⟩ := (Phase.goes_of_after hafter).no_call
        exact hstarted.symm ▸ hrefused.symm ▸ rfl

theorem answers (s : Tasks) (acts : List Action) :
    (s.run acts).2.count .started + (s.run acts).2.count .refused =
      acts.countP Action.isStart := by
  induction acts using List.reverseRecOn with
  | nil => rfl
  | append_singleton acts a ih =>
    have hlast := answers_act (s.run acts).1 a
    rw [run_snoc, List.count_append, List.count_append, List.countP_append, List.countP_singleton,
      ← hlast, ← ih]
    omega

theorem kept_started (n : Nat) : Kept n fun _ _ seen => seen.count .started = 1 where
  started _ _ := rfl
  refused h := by rw [List.count_append, h]; rfl
  cancel _ h := h
  goes h hgoes := by rw [List.count_append, h, hgoes.no_call.1]

theorem started_once (n : Nat) (acts : List Action) :
    ((new n).run acts).2.count .started = if acts.any Action.isStart then 1 else 0 := by
  rcases (kept_started n).run acts with
    ⟨hnone, cancelled, hrun⟩ | ⟨hany, cancelled, t, seen, hrun, h⟩
  · rw [hrun, hnone]
    rfl
  · rw [hrun, hany]
    exact h

/-- However calls, cancellations and moves of tasks follow each other: one call starts a task, every
tick of it polls each meter once and one meter at a time, and when it has ended, every meter was let
go of once and is not polled any more. A runner does the same to the meters. -/
theorem polled_by_one_closed_once (n : Nat) (acts : List Action) :
    let seen := ((new n).run acts).2
    (seen.count .started = (if acts.any Action.isStart then 1 else 0) ∧
      seen.count .started + seen.count .refused = acts.countP Action.isStart) ∧
    (∀ before tick after, seen = before ++ .tickBegan :: (tick ++ .tickEnded :: after) →
      .tickEnded ∉ tick → ∀ m < n,
        tick.count (.updateBegan m) = 1 ∧ tick.count (.updateEnded m) = 1) ∧
    (∀ before after m, seen = before ++ .updateBegan m :: after →
      before.count .tickBegan = before.count .tickEnded + 1 ∧
        before.countP Event.beginsUpdate = before.countP Event.endsUpdate) ∧
    (∀ m < n, seen.count (.shutdownBegan m) ≤ 1 ∧
      (.ended ∈ seen →
        seen.count (.shutdownBegan m) = 1 ∧ seen.count (.shutdownEnded m) = 1)) ∧
    (∀ before after m, seen = before ++ .shutdownBegan m :: after →
      before.countP Event.beginsUpdate = before.countP Event.endsUpdate ∧
        ∀ m', .updateBegan m' ∉ after) ∧
    ∃ done, ((Runner.new n).run done).2 = seen.filterMap Event.deed? := by
  intro seen
  refine ⟨⟨started_once n acts, answers _ acts⟩, ?_, ?_, ?_, ?_, exists_runner n acts⟩
  · intro before tick after h hopen m hm
    exact updates_in_tick h hopen hm
  · intro before after m h
    exact alone_in_tick h
  · intro m hm
    exact shut_once acts hm
  · intro before after m h
    exact no_update_after_shutdown h

/-- Two calls, a tick of two meters during which the token of the first call is cancelled, and one
more call when the task has ended. -/
def threeCalls : List Action :=
  [.start 7, .start 8, .move 0 .tick, .move 0 .proceed, .move 0 .proceed, .cancel 7] ++
    List.replicate 5 (.move 0 .proceed) ++ .move 0 .notice ::
    List.replicate 3 (.move 0 .proceed) ++ [.move 0 (.hear 1), .move 0 (.hear 0),
      .move 0 .proceed, .start 9, .move 1 .tick, .move 0 .tick]

theorem three_calls_one_task :
    let seen := ((new 2).run threeCalls).2
    let tick : List Event := [.updateBegan 0, .updateEnded 0, .updateBegan 1, .updateEnded 1]
    let after : List Event :=
      [.shutdownBegan 0, .shutdownBegan 1, .shutdownEnded 1, .shutdownEnded 0, .ended, .refused]
    seen = [Event.started, Event.refused] ++ Event.tickBegan :: (tick ++ Event.tickEnded :: after) ∧
      seen.count .started = 1 ∧ seen.count .started + seen.count .refused = 3 ∧
      (∀ m < 2, tick.count (.updateBegan m) = 1 ∧ tick.count (.updateEnded m) = 1) ∧
      ∀ m < 2, seen.count (.shutdownBegan m) = 1 ∧ seen.count (.shutdownEnded m) = 1 := by
  intro seen tick after
  obtain ⟨⟨hstarted, hanswered⟩, hticks, -, hshut, -, -⟩ := polled_by_one_closed_once 2 threeCalls
  have hseen : seen =
      [Event.started, Event.refused] ++ Event.tickBegan :: (tick ++ Event.tickEnded :: after) := by
    decide
  exact ⟨hseen, hstarted, hanswered, fun m hm => hticks _ tick after hseen (by decide) m hm,
    fun m hm => (hshut m hm).2 (by decide)⟩

/-! ## Ends that can be reached -/

/-- The polls of the meters from a number on, one after the other. -/
def polls (n i : Nat) : List Event :=
  (List.range' i (n - i)).flatMap fun m => [.updateBegan m, .updateEnded m]

theorem polls_of_lt {n i : Nat} (h : i < n) :
    polls n i = .updateBegan i :: .updateEnded i :: polls n (i + 1) := by
  obtain ⟨k, rfl⟩ := Nat.exists_eq_add_of_lt h
  have hmore : i + k + 1 - i = k + 1 := by omega
  have hrest : i + k + 1 - (i + 1) = k := by omega
  rw [polls, polls, hmore, hrest, List.range'_succ, List.flatMap_cons]
  rfl

theorem polls_of_le {n i : Nat} (h : n ≤ i) : polls n i = [] := by
  rw [polls, Nat.sub_eq_zero_of_le h]
  rfl

theorem count_polls (n i m : Nat) :
    (polls n i).count (.updateBegan m) = if i ≤ m ∧ m < n then 1 else 0 := by
  induction hk : n - i generalizing i with
  | zero =>
    rw [polls_of_le (by omega), if_neg (by omega)]
    rfl
  | succ k ih =>
    rw [polls_of_lt (by omega), List.count_cons, List.count_cons, ih (i + 1) (by omega)]
    simp only [beq_iff_eq, Event.updateBegan.injEq, reduceCtorEq, if_false]
    split_ifs <;> omega

namespace Phase

/-- What is still to be seen of a tick, up to its end. -/
def leftOfTick (n : Nat) : Phase → List Event
  | claiming => polls n 0
  | polling i => polls n i
  | updating i => .updateEnded i :: polls n (i + 1)
  | _ => []

theorem count_leftOfTick_le (p : Phase) (n m : Nat) :
    (p.leftOfTick n).count (.updateBegan m) ≤ 1 := by
  have hpolls : ∀ i, (polls n i).count (.updateBegan m) ≤ 1 := by
    intro i
    rw [count_polls]
    split_ifs <;> omega
  cases p with
  | claiming => exact hpolls 0
  | polling i => exact hpolls i
  | updating i =>
    rw [leftOfTick, List.count_cons_of_ne (by simp)]
    exact hpolls (i + 1)
  | _ => exact Nat.zero_le 1

/-- A task that is alone can move from one phase to another, with some events on the way. -/
inductive Path (n : Nat) (isCancelled : Bool) : Phase → List Event → Phase → Prop
  | here {p : Phase} : Path n isCancelled p [] p
  | step {p p' p'' : Phase} {e : Option Event} {seen : List Event} (move : Move)
      (after : p.after? n (!p.holds) isCancelled move = some (p', e))
      (rest : Path n isCancelled p' seen p'') : Path n isCancelled p (e.toList ++ seen) p''

namespace Path

variable {n : Nat} {isCancelled : Bool} {p p' p'' : Phase} {seen later : List Event}

theorem quietly (move : Move) (h : p.after? n (!p.holds) isCancelled move = some (p', none))
    (rest : Path n isCancelled p' seen p'') : Path n isCancelled p seen p'' :=
  .step move h rest

theorem showing {e : Event} (move : Move)
    (h : p.after? n (!p.holds) isCancelled move = some (p', some e))
    (rest : Path n isCancelled p' seen p'') : Path n isCancelled p (e :: seen) p'' :=
  .step move h rest

theorem trans (h : Path n isCancelled p seen p') (h' : Path n isCancelled p' later p'') :
    Path n isCancelled p (seen ++ later) p'' := by
  induction h with
  | here => exact h'
  | step _ after _ ih =>
    rw [List.append_assoc]
    exact .step _ after (ih h')

theorem run (h : Path n isCancelled p seen p') {cancelled : List Token} {token : Token}
    (hcancelled : cancelled.contains token = isCancelled) :
    ∃ moves : List Move, Tasks.run ⟨n, true, cancelled, [⟨token, p⟩]⟩ (moves.map (.move 0)) =
      (⟨n, true, cancelled, [⟨token, p'⟩]⟩, seen) := by
  induction h with
  | here => exact ⟨[], rfl⟩
  | @step p p' p'' e seen move after _ ih =>
    obtain ⟨moves, hmoves⟩ := ih
    have hact : Tasks.act ⟨n, true, cancelled, [⟨token, p⟩]⟩ (.move 0 move) =
        (⟨n, true, cancelled, [⟨token, p'⟩]⟩, e) := by
      unfold Tasks.act isFree
      simp only [List.getElem?_cons_zero, List.all_cons, List.all_nil, Bool.and_true, hcancelled,
        after, List.set_cons_zero]
    exact ⟨move :: moves, by simp only [List.map_cons, Tasks.run, hact, hmoves]⟩

theorem polling (i : Nat) : Path n isCancelled (.polling i) (polls n i) .publishing := by
  induction hk : n - i generalizing i with
  | zero =>
    have hall : Phase.after? n (!(Phase.polling i).holds) isCancelled (.polling i) .proceed =
        some (.publishing, none) := if_neg (by omega)
    rw [polls_of_le (by omega)]
    exact quietly _ hall .here
  | succ k ih =>
    have hleft : Phase.after? n (!(Phase.polling i).holds) isCancelled (.polling i) .proceed =
        some (.updating i, some (.updateBegan i)) := if_pos (by omega)
    rw [polls_of_lt (by omega)]
    exact showing _ hleft (showing .proceed rfl (ih (i + 1) (by omega)))

theorem tick (h : p.inTick = 1) :
    Path n isCancelled p (p.leftOfTick n ++ [.tickEnded]) .waiting := by
  have hpublish : Path n isCancelled .publishing [.tickEnded] .waiting :=
    showing .proceed rfl .here
  cases p with
  | claiming => exact quietly .proceed rfl ((polling 0).trans hpublish)
  | polling i => exact (polling i).trans hpublish
  | updating i => exact showing .proceed rfl ((polling (i + 1)).trans hpublish)
  | publishing => exact hpublish
  | waiting | stopping | closing | ended => cases h

theorem closing (n i : Nat) (gone : List Nat) :
    ∃ seen i', n ≤ i' ∧ Path n true (.closing i gone) seen (.closing i' gone) := by
  induction hk : n - i generalizing i with
  | zero => exact ⟨[], i, by omega, .here⟩
  | succ k ih =>
    obtain ⟨seen, i', hi', hrest⟩ := ih (i + 1) (by omega)
    have hleft : Phase.after? n (!(Phase.closing i gone).holds) true (.closing i gone) .proceed =
        some (.closing (i + 1) gone, some (.shutdownBegan i)) := if_pos (by omega)
    exact ⟨_, i', hi', showing _ hleft hrest⟩

theorem hearing {i k : Nat} (h : k ≤ i) (gone : List Nat) :
    ∃ seen gone', (∀ m < k, m ∈ gone') ∧ Path n true (.closing i gone) seen (.closing i gone') := by
  induction k with
  | zero => exact ⟨[], gone, by omega, .here⟩
  | succ k ih =>
    obtain ⟨seen, gone', hheard, hpath⟩ := ih (by omega)
    by_cases hk : k ∈ gone'
    · refine ⟨seen, gone', fun m hm => ?_, hpath⟩
      rcases Nat.lt_succ_iff_lt_or_eq.1 hm with hm | rfl
      · exact hheard m hm
      · exact hk
    · have hhear : Phase.after? n (!(Phase.closing i gone').holds) true (.closing i gone')
          (.hear k) = some (.closing i (k :: gone'), some (.shutdownEnded k)) :=
        if_pos ⟨by omega, hk⟩
      refine ⟨_, k :: gone', fun m hm => ?_, hpath.trans (showing _ hhear .here)⟩
      rcases Nat.lt_succ_iff_lt_or_eq.1 hm with hm | rfl
      · exact List.mem_cons_of_mem _ (hheard m hm)
      · exact List.mem_cons_self

theorem ending (h : p ≠ .ended) : ∃ seen, Path n true p (seen ++ [.ended]) .ended := by
  have hclosing : ∀ i gone, ∃ seen, Path n true (.closing i gone) (seen ++ [.ended]) .ended := by
    intro i gone
    obtain ⟨first, i', hi', hshut⟩ := closing n i gone
    obtain ⟨second, gone', hheard, hhear⟩ := hearing (n := n) hi' gone
    have hgone : Phase.after? n (!(Phase.closing i' gone').holds) true (.closing i' gone')
        .proceed = some (.ended, some .ended) :=
      (if_neg (Nat.not_lt.2 hi')).trans (if_pos hheard)
    exact ⟨_, (hshut.trans hhear).trans (showing _ hgone .here)⟩
  have hwaiting : ∃ seen, Path n true .waiting (seen ++ [.ended]) .ended := by
    obtain ⟨seen, hend⟩ := hclosing 0 []
    exact ⟨seen, quietly .notice rfl (quietly .proceed rfl hend)⟩
  have htick : p.inTick = 1 → ∃ seen, Path n true p (seen ++ [.ended]) .ended := by
    intro htick
    obtain ⟨seen, hend⟩ := hwaiting
    have hpath := (tick htick).trans hend
    rw [← List.append_assoc] at hpath
    exact ⟨_, hpath⟩
  cases p with
  | ended => exact absurd rfl h
  | waiting => exact hwaiting
  | stopping =>
    obtain ⟨seen, hend⟩ := hclosing 0 []
    exact ⟨seen, quietly .proceed rfl hend⟩
  | closing i gone => exact hclosing i gone
  | claiming | polling | updating | publishing => exact htick rfl

end Path

end Phase

/-- Whatever has happened, a tick that has begun can end, with at most one more update of each
meter, and a task whose token is cancelled can end. -/
theorem ends_within_reach (n : Nat) (acts : List Action) :
    let s := (new n).run acts
    ∀ t ∈ s.1.tasks,
      (t.phase.inTick = 1 → ∃ moves : List Move,
        ((new n).run (acts ++ moves.map (.move 0))).2 =
          s.2 ++ (t.phase.leftOfTick n ++ [.tickEnded]) ∧
        ∀ m, (t.phase.leftOfTick n).count (.updateBegan m) ≤ 1) ∧
      (s.1.cancelled.contains t.token = true → t.phase ≠ .ended →
        ∃ (moves : List Move) (seen : List Event),
          ((new n).run (acts ++ moves.map (.move 0))).2 = s.2 ++ (seen ++ [.ended])) := by
  intro s t ht
  have hone : ∃ cancelled, s.1 = ⟨n, true, cancelled, [t]⟩ := by
    rcases (kept_started n).run acts with ⟨-, cancelled, hrun⟩ | ⟨-, cancelled, t', seen, hrun, -⟩
    · rw [show s = _ from hrun] at ht
      cases ht
    · rw [show s = _ from hrun] at ht ⊢
      rw [List.mem_singleton.1 ht]
      exact ⟨cancelled, rfl⟩
  obtain ⟨cancelled, hs⟩ := hone
  obtain ⟨token, p⟩ := t
  have hgoes : ∀ {later p'}, p.Path n (cancelled.contains token) later p' →
      ∃ moves : List Move, ((new n).run (acts ++ moves.map (.move 0))).2 = s.2 ++ later := by
    intro later p' hpath
    obtain ⟨moves, hmoves⟩ := hpath.run rfl
    exact ⟨moves, by rw [run_append, show (new n).run acts = s from rfl, hs, hmoves]⟩
  refine ⟨fun htick => ?_, fun htold hended => ?_⟩
  · obtain ⟨moves, hmoves⟩ := hgoes (.tick htick)
    exact ⟨moves, hmoves, fun m => p.count_leftOfTick_le n m⟩
  · rw [hs] at htold
    obtain ⟨seen, hpath⟩ := Phase.Path.ending (n := n) hended
    rw [← htold] at hpath
    obtain ⟨moves, hmoves⟩ := hgoes hpath
    exact ⟨moves, seen, hmoves⟩

end Tasks

end HomeMetering
