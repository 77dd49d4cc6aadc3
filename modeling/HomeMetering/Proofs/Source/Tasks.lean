import HomeMetering.Source.Runner
import Mathlib.Data.List.Induction
import Mathlib.Data.List.Infix
import Mathlib.Tactic.SplitIfs

/-!
# Calls and tasks

What a runner does at once takes several steps, and whoever starts a source may do so at the same
time as others. The call that finds the flag of the source unset sets it and starts a task, which
heeds the token of that call and no other. A task takes the meters for a tick or for the end, polls
them one after the other, and lets go of all of them together. Calls, tokens and tasks take their
steps in any order.
-/

namespace HomeMetering

namespace Tasks

/-- Tells the tasks that were started with it to stop. -/
abbrev Token := Nat

inductive Phase where
  /-- Waits for the next tick or for its token. -/
  | waiting
  /-- In a tick, waits for the meters. -/
  | claiming
  /-- In a tick, has the meters, and has polled those before a number. -/
  | polling (next : Nat)
  /-- In a tick, a meter is being polled. -/
  | updating (meter : Nat)
  /-- In a tick, has given the meters back. -/
  | publishing
  /-- Saw its token, waits for the meters. -/
  | stopping
  /-- Has the meters: those before a number are being let go of, for some that is over. -/
  | closing (next : Nat) (gone : List Nat)
  | ended
  deriving Repr, DecidableEq

/-- Whether the meters are with a task. -/
def Phase.holds : Phase → Bool
  | polling _ => true
  | updating _ => true
  | closing _ _ => true
  | _ => false

structure Task where
  token : Token
  phase : Phase
  deriving Repr, DecidableEq

end Tasks

/-- What was started for a source with some meters. -/
structure Tasks where
  meters : Nat
  /-- Whether a call has started a task. -/
  isRunning : Bool
  cancelled : List Tasks.Token
  tasks : List Tasks.Task
  deriving Repr, DecidableEq

namespace Tasks

/-- What a task does next. -/
inductive Move where
  /-- The next tick is due. -/
  | tick
  /-- It sees that its token is cancelled. -/
  | notice
  | proceed
  /-- It hears that a meter was let go of. -/
  | hear (meter : Nat)
  deriving Repr, DecidableEq

inductive Action where
  | start (token : Token)
  | cancel (token : Token)
  | move (task : Nat) (move : Move)
  deriving Repr, DecidableEq

/-- What can be seen of calls and tasks. -/
inductive Event where
  /-- A call has started a task. -/
  | started
  /-- A call has done nothing. -/
  | refused
  | tickBegan
  | tickEnded
  | updateBegan (meter : Nat)
  | updateEnded (meter : Nat)
  | shutdownBegan (meter : Nat)
  | shutdownEnded (meter : Nat)
  | ended
  deriving Repr, DecidableEq

/-- The phase of a task after a move that it can make: it takes the meters only when they are
free, and stops only when its token is cancelled. -/
def Phase.after? (meters : Nat) (isFree isCancelled : Bool) :
    Phase → Move → Option (Phase × Option Event)
  | waiting, .tick => some (claiming, some .tickBegan)
  | waiting, .notice => if isCancelled then some (stopping, none) else none
  | claiming, .proceed => if isFree then some (polling 0, none) else none
  | polling i, .proceed =>
    if i < meters then some (updating i, some (.updateBegan i)) else some (publishing, none)
  | updating i, .proceed => some (polling (i + 1), some (.updateEnded i))
  | publishing, .proceed => some (waiting, some .tickEnded)
  | stopping, .proceed => if isFree then some (closing 0 [], none) else none
  | closing i gone, .proceed =>
    if i < meters then some (closing (i + 1) gone, some (.shutdownBegan i))
    else if ∀ m < meters, m ∈ gone then some (ended, some .ended)
    else none
  | closing i gone, .hear m =>
    if m < i ∧ m ∉ gone then some (closing i (m :: gone), some (.shutdownEnded m)) else none
  | _, _ => none

def new (meters : Nat) : Tasks := ⟨meters, false, [], []⟩

/-- Whether no task has the meters. -/
def isFree (s : Tasks) : Bool := s.tasks.all fun t => !t.phase.holds

/-- What is there after an action, and what could be seen of it. -/
def act (s : Tasks) : Action → Tasks × Option Event
  | .start token =>
    if s.isRunning then (s, some .refused)
    else ({ s with isRunning := true, tasks := s.tasks ++ [⟨token, .waiting⟩] }, some .started)
  | .cancel token => ({ s with cancelled := token :: s.cancelled }, none)
  | .move i move =>
    match s.tasks[i]? with
    | none => (s, none)
    | some t =>
      match t.phase.after? s.meters s.isFree (s.cancelled.contains t.token) move with
      | none => (s, none)
      | some (phase, event) => ({ s with tasks := s.tasks.set i { t with phase } }, event)

/-- What is there after some actions, and everything that could be seen. -/
def run (s : Tasks) : List Action → Tasks × List Event
  | [] => (s, [])
  | a :: rest =>
    let (s, event) := s.act a
    let (s, events) := s.run rest
    (s, event.toList ++ events)

/-! ## Steps -/

/-- The ways in which a task goes on. -/
inductive Phase.Goes (meters : Nat) (isCancelled : Bool) : Phase → Option Event → Phase → Prop
  | tick : Goes meters isCancelled waiting (some .tickBegan) claiming
  | stop (told : isCancelled = true) : Goes meters isCancelled waiting none stopping
  | claim : Goes meters isCancelled claiming none (polling 0)
  | poll {i : Nat} (left : i < meters) :
      Goes meters isCancelled (polling i) (some (.updateBegan i)) (updating i)
  | polled {i : Nat} :
      Goes meters isCancelled (updating i) (some (.updateEnded i)) (polling (i + 1))
  | release {i : Nat} (all : meters ≤ i) : Goes meters isCancelled (polling i) none publishing
  | publish : Goes meters isCancelled publishing (some .tickEnded) waiting
  | close : Goes meters isCancelled stopping none (closing 0 [])
  | shut {i : Nat} {gone : List Nat} (left : i < meters) :
      Goes meters isCancelled (closing i gone) (some (.shutdownBegan i)) (closing (i + 1) gone)
  | hear {i m : Nat} {gone : List Nat} (begun : m < i) (open_ : m ∉ gone) :
      Goes meters isCancelled (closing i gone) (some (.shutdownEnded m)) (closing i (m :: gone))
  | finish {i : Nat} {gone : List Nat} (all : meters ≤ i) (heard : ∀ m < meters, m ∈ gone) :
      Goes meters isCancelled (closing i gone) (some .ended) ended

theorem Phase.goes_of_after {n : Nat} {isFree isCancelled : Bool} {p p' : Phase} {move : Move}
    {e : Option Event} (h : p.after? n isFree isCancelled move = some (p', e)) :
    p.Goes n isCancelled e p' := by
  unfold after? at h
  split at h
  · cases h
    exact .tick
  · split_ifs at h with htold
    cases h
    exact .stop htold
  · split_ifs at h
    cases h
    exact .claim
  · split_ifs at h with hleft
    · cases h
      exact .poll hleft
    · cases h
      exact .release (Nat.le_of_not_lt hleft)
  · cases h
    exact .polled
  · cases h
    exact .publish
  · split_ifs at h
    cases h
    exact .close
  · split_ifs at h with hleft hheard
    · cases h
      exact .shut hleft
    · cases h
      exact .finish (Nat.le_of_not_lt hleft) hheard
  · split_ifs at h with hopen
    cases h
    exact .hear hopen.1 hopen.2
  · cases h

theorem run_append (s : Tasks) (acts more : List Action) :
    s.run (acts ++ more) =
      (((s.run acts).1.run more).1, (s.run acts).2 ++ ((s.run acts).1.run more).2) := by
  induction acts generalizing s with
  | nil => rfl
  | cons a acts ih => simp only [List.cons_append, run, ih, List.append_assoc]

theorem run_snoc (s : Tasks) (acts : List Action) (a : Action) :
    s.run (acts ++ [a]) =
      (((s.run acts).1.act a).1, (s.run acts).2 ++ ((s.run acts).1.act a).2.toList) := by
  rw [run_append]
  simp only [run, List.append_nil]

theorem exists_earlier (s : Tasks) {acts : List Action} {seen : List Event}
    (h : seen <+: (s.run acts).2) : ∃ earlier, earlier <+: acts ∧ (s.run earlier).2 = seen := by
  induction acts using List.reverseRecOn with
  | nil => exact ⟨[], List.prefix_refl _, (List.prefix_nil.1 h).symm⟩
  | append_singleton acts a ih =>
    rw [run_snoc] at h
    rcases h' : ((s.run acts).1.act a).2 with _ | e
    · rw [h', Option.toList_none, List.append_nil] at h
      obtain ⟨earlier, hearlier, hseen⟩ := ih h
      exact ⟨earlier, hearlier.trans (List.prefix_append _ _), hseen⟩
    · rw [h', Option.toList_some] at h
      rcases List.prefix_concat_iff.1 h with rfl | hbefore
      · exact ⟨acts ++ [a], List.prefix_refl _, by rw [run_snoc, h', Option.toList_some]⟩
      · obtain ⟨earlier, hearlier, hseen⟩ := ih hbefore
        exact ⟨earlier, hearlier.trans (List.prefix_append _ _), hseen⟩

def Action.isStart : Action → Bool
  | start _ => true
  | _ => false

/-- What holds of a task, of what was cancelled and of what was seen, when the task was just
started, and is kept by whatever follows. -/
structure Kept (n : Nat) (P : List Token → Task → List Event → Prop) : Prop where
  started : ∀ cancelled token, P cancelled ⟨token, .waiting⟩ [.started]
  refused : ∀ {cancelled t seen}, P cancelled t seen → P cancelled t (seen ++ [.refused])
  cancel : ∀ {cancelled t seen} token, P cancelled t seen → P (token :: cancelled) t seen
  goes : ∀ {cancelled t seen e phase}, P cancelled t seen →
    t.phase.Goes n (cancelled.contains t.token) e phase →
      P cancelled ⟨t.token, phase⟩ (seen ++ e.toList)

namespace Kept

variable {n : Nat} {P : List Token → Task → List Event → Prop} (h : Kept n P)
include h

theorem act {cancelled : List Token} {t : Task} {seen : List Event} (hP : P cancelled t seen)
    (a : Action) : ∃ cancelled' t' e,
      Tasks.act ⟨n, true, cancelled, [t]⟩ a = (⟨n, true, cancelled', [t']⟩, e) ∧
        P cancelled' t' (seen ++ e.toList) := by
  have hsame : P cancelled t (seen ++ (none : Option Event).toList) := by
    rw [Option.toList_none, List.append_nil]
    exact hP
  cases a with
  | start token => exact ⟨cancelled, t, _, rfl, h.refused hP⟩
  | cancel token => exact ⟨token :: cancelled, t, none, rfl, h.cancel token hsame⟩
  | move i move =>
    cases i with
    | succ i => exact ⟨cancelled, t, none, rfl, hsame⟩
    | zero =>
      unfold Tasks.act
      dsimp only [List.getElem?_cons_zero]
      cases hafter : t.phase.after? n (isFree ⟨n, true, cancelled, [t]⟩)
          (cancelled.contains t.token) move with
      | none => exact ⟨cancelled, t, none, rfl, hsame⟩
      | some step => exact ⟨cancelled, _, _, rfl, h.goes hP (Phase.goes_of_after hafter)⟩

/-- A source has no task before the first call, and later the one that it started. -/
theorem run (acts : List Action) :
    (acts.any Action.isStart = false ∧
        ∃ cancelled, (new n).run acts = (⟨n, false, cancelled, []⟩, [])) ∨
      (acts.any Action.isStart = true ∧ ∃ cancelled t seen,
        (new n).run acts = (⟨n, true, cancelled, [t]⟩, seen) ∧ P cancelled t seen) := by
  induction acts using List.reverseRecOn with
  | nil => exact .inl ⟨rfl, [], rfl⟩
  | append_singleton acts a ih =>
    rw [run_snoc, List.any_append]
    rcases ih with ⟨hnone, cancelled, hrun⟩ | ⟨hany, cancelled, t, seen, hrun, hP⟩
    · rw [hrun, hnone]
      cases a with
      | start token => exact .inr ⟨rfl, cancelled, _, _, rfl, h.started cancelled token⟩
      | cancel token => exact .inl ⟨rfl, _, rfl⟩
      | move i move => exact .inl ⟨rfl, cancelled, rfl⟩
    · obtain ⟨cancelled', t', e, hact, hP'⟩ := h.act hP a
      rw [hrun, hany, hact]
      exact .inr ⟨rfl, cancelled', t', _, rfl, hP'⟩

end Kept

end Tasks

/-! ## The runner -/

namespace Runner

theorem run_snoc (r : Runner) (acts : List Action) (a : Action) :
    r.run (acts ++ [a]) =
      (((r.run acts).1.act a).1, (r.run acts).2 ++ ((r.run acts).1.act a).2.toList) := by
  induction acts generalizing r with
  | nil => simp [run]
  | cons b acts ih => simp [run, ih, List.append_assoc]

/-- A runner of some meters can come to be as it is, having done some deeds. -/
def Reached (r : Runner) (deeds : List Deed) : Prop :=
  ∃ acts, (new r.meters).run acts = (r, deeds)

theorem Reached.act {r : Runner} {deeds : List Deed} (h : r.Reached deeds) (a : Action)
    {r' : Runner} {deed : Option Deed} (hact : r.act a = (r', deed))
    (hmeters : r'.meters = r.meters) : r'.Reached (deeds ++ deed.toList) := by
  obtain ⟨acts, hrun⟩ := h
  refine ⟨acts ++ [a], ?_⟩
  rw [hmeters, run_snoc, hrun, hact]

end Runner

namespace Tasks

/-- What a runner does when something of a meter begins. -/
def Event.deed? : Event → Option Runner.Deed
  | updateBegan m => some (.update m)
  | shutdownBegan m => some (.shutdown m)
  | _ => none

/-- The stage that a runner shows in a phase. -/
def Phase.stage (meters : Nat) : Phase → Runner.Stage
  | waiting => .waiting
  | claiming => .polling 0
  | polling i => .polling i
  | updating i => .polling (i + 1)
  | publishing => .polling meters
  | stopping => .closing 0
  | closing i _ => .closing i
  | ended => .ended

/-- No more meters are polled than there are. -/
def Phase.Within (meters : Nat) : Phase → Prop
  | polling i => i ≤ meters
  | updating i => i < meters
  | _ => True

theorem Phase.Goes.within {n : Nat} {isCancelled : Bool} {p p' : Phase} {e : Option Event}
    (h : p.Goes n isCancelled e p') (hp : p.Within n) : p'.Within n := by
  cases h with
  | claim => exact Nat.zero_le n
  | poll left => exact left
  | polled => exact hp
  | _ => trivial

/-- A runner that has done what was seen, and is where the task is. -/
structure Follows (n : Nat) (cancelled : List Token) (t : Task) (seen : List Event) : Prop where
  within : t.phase.Within n
  reached : (Runner.mk n (t.phase.stage n) (cancelled.contains t.token)).Reached
    (seen.filterMap Event.deed?)

theorem Follows.goes {n : Nat} {cancelled : List Token} {t : Task} {seen : List Event}
    (h : Follows n cancelled t seen) {e : Option Event} {phase : Phase}
    (hgoes : t.phase.Goes n (cancelled.contains t.token) e phase) :
    Follows n cancelled ⟨t.token, phase⟩ (seen ++ e.toList) := by
  refine ⟨hgoes.within h.within, ?_⟩
  have hreached := h.reached
  have hwithin := h.within
  obtain ⟨token, before⟩ := t
  dsimp only at hgoes hreached hwithin ⊢
  rw [List.filterMap_append]
  generalize cancelled.contains token = isCancelled at hgoes hreached ⊢
  -- Where the task only takes or gives back the meters, or hears of one, the runner stays.
  have hstays : (Runner.mk n (before.stage n) isCancelled).Reached
      (seen.filterMap Event.deed? ++ []) := by
    rw [List.append_nil]
    exact hreached
  cases hgoes with
  | tick => exact hreached.act .due rfl rfl
  | stop told =>
    subst told
    exact hreached.act .notice rfl rfl
  | claim => exact hstays
  | poll left => exact hreached.act .proceed (if_pos left) rfl
  | polled => exact hstays
  | release all =>
    obtain rfl := Nat.le_antisymm hwithin all
    exact hstays
  | publish => exact hreached.act .proceed (if_neg (Nat.lt_irrefl n)) rfl
  | close => exact hstays
  | shut left => exact hreached.act .proceed (if_pos left) rfl
  | hear _ _ => exact hstays
  | finish all _ => exact hreached.act .proceed (if_neg (Nat.not_lt.2 all)) rfl

theorem kept_follows (n : Nat) : Kept n (Follows n) where
  started cancelled token := by
    refine ⟨trivial, ?_⟩
    have hstart : (Runner.mk n .waiting false).Reached [] := ⟨[.start], rfl⟩
    dsimp only [Phase.stage]
    cases cancelled.contains token with
    | false => exact hstart
    | true => exact hstart.act .cancel rfl rfl
  refused {cancelled t seen} h := by
    have hrefused : (seen ++ [Event.refused]).filterMap Event.deed? =
        seen.filterMap Event.deed? := by
      rw [List.filterMap_append]
      exact List.append_nil _
    exact ⟨h.within, hrefused ▸ h.reached⟩
  cancel {cancelled t seen} token h := by
    refine ⟨h.within, ?_⟩
    rw [List.contains_cons]
    cases t.token == token with
    | false => exact h.reached
    | true =>
      have hcancelled := h.reached.act .cancel rfl rfl
      rw [Option.toList_none, List.append_nil] at hcancelled
      exact hcancelled
  goes h hgoes := h.goes hgoes

/-- A runner does to the meters what can be seen, in the same order. -/
theorem exists_runner (n : Nat) (acts : List Action) :
    ∃ done, ((Runner.new n).run done).2 = ((new n).run acts).2.filterMap Event.deed? := by
  rcases (kept_follows n).run acts with
    ⟨-, cancelled, hrun⟩ | ⟨-, cancelled, t, seen, hrun, hfollows⟩
  · exact ⟨[], by rw [hrun]; rfl⟩
  · obtain ⟨done, hdone⟩ := hfollows.reached
    exact ⟨done, by rw [hrun]; exact congrArg Prod.snd hdone⟩

end Tasks

end HomeMetering
