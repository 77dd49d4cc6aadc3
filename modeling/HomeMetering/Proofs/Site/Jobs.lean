import HomeMetering.Site.Pool
import Mathlib.Data.List.Perm.Basic

/-!
# What jobs ask for

A property of the requests of a job holds of two jobs in a row when it holds of each. A run is what
becomes of a job that no other job interrupts, while the hardware may change between any two of its
requests.
-/

namespace HomeMetering.Site

open Modbus

/-! ## Requests -/

/-- A request that opens and closes nothing and leaves the registry as it is. -/
def Request.IsUse : Request → Prop
  | connect _ _ | adopt _ _ | evict _ | lease _ | giveBack _ | close _ => False
  | _ => True

/-- A request through one client. -/
def Request.IsOn (client : ClientId) : Request → Prop
  | lock c | unlock c | select c _ | read c _ | write c _ _ => c = client
  | _ => False

/-- A request that takes no lease and gives none back. -/
def Request.LeavesLeases : Request → Prop
  | lease _ | giveBack _ => False
  | _ => True

/-- A request that leaves the registry as it is. -/
def Request.LeavesRegistry : Request → Prop
  | adopt _ _ | evict _ | lease _ | giveBack _ => False
  | _ => True

theorem Request.IsOn.isUse {q : Request} {client : ClientId} (h : q.IsOn client) : q.IsUse := by
  cases q <;> trivial

theorem Request.IsUse.leavesRegistry {q : Request} (h : q.IsUse) : q.LeavesRegistry := by
  cases q <;> trivial

theorem Request.LeavesRegistry.leavesLeases {q : Request} (h : q.LeavesRegistry) :
    q.LeavesLeases := by
  cases q <;> trivial

namespace Job

variable {α β : Type} {P P' : Request → Prop} {Q : α → Prop} {R : β → Prop}

/-- Every request of a job is of one kind, and so is what it ends with, whatever the answers are. -/
def All (P : Request → Prop) (Q : α → Prop) : Job α → Prop
  | done a => Q a
  | ask q next => P q ∧ ∀ answer, (next answer).All P Q

theorem All.done {a : α} (h : Q a) : (pure a : Job α).All P Q := h

theorem All.request {q : Request} (h : P q) : (request q).All P fun _ => True :=
  ⟨h, fun _ => trivial⟩

theorem All.bind {x : Job α} {f : α → Job β} (hx : x.All P Q)
    (hf : ∀ a, Q a → (f a).All P R) : (x >>= f).All P R := by
  induction x with
  | done a => exact hf a hx
  | ask q next ih => exact ⟨hx.1, fun answer => ih answer (hx.2 answer)⟩

theorem All.imp {x : Job α} {Q' : α → Prop} (hx : x.All P Q) (hP : ∀ q, P q → P' q)
    (hQ : ∀ a, Q a → Q' a) : x.All P' Q' := by
  induction x with
  | done a => exact hQ a hx
  | ask q next ih => exact ⟨hP q hx.1, fun answer => ih answer (hx.2 answer)⟩

theorem All.any (x : Job α) : x.All (fun _ => True) fun _ => True := by
  induction x with
  | done a => exact trivial
  | ask q next ih => exact ⟨trivial, ih⟩

theorem All.bind_congr {x : Job α} (hx : x.All P Q) {f g : α → Job β} (h : ∀ a, Q a → f a = g a) :
    x >>= f = x >>= g := by
  induction x with
  | done a => exact h a hx
  | ask q next ih => exact congrArg (ask q) (funext fun answer => ih answer (hx.2 answer))

/-! ## Runs -/

/-- What a job that runs alone can end with, and the site it can leave behind, when the hardware may
change between any two of its requests and every request is made on a site that suits it. -/
def RunsUnder (S : Site → Request → Prop) : Job α → Site → α → Site → Prop
  | done a, s, b, t => b = a ∧ t = s
  | ask q next, s, b, t => ∃ other, S (s.withHardware other) q ∧
    (next ((s.withHardware other).answer q).1).RunsUnder S ((s.withHardware other).answer q).2 b t

section

variable {S : Site → Request → Prop} {s t : Site}

theorem runsUnder_request {q : Request} {answer : q.Answer} :
    (request q).RunsUnder S s answer t ↔
      ∃ other, S (s.withHardware other) q ∧ answer = ((s.withHardware other).answer q).1 ∧
        t = ((s.withHardware other).answer q).2 := Iff.rfl

theorem runsUnder_bind {x : Job α} {f : α → Job β} {b : β} :
    (x >>= f).RunsUnder S s b t ↔ ∃ a u, x.RunsUnder S s a u ∧ (f a).RunsUnder S u b t := by
  induction x generalizing s with
  | done a =>
    constructor
    · intro h
      exact ⟨a, s, ⟨rfl, rfl⟩, h⟩
    · rintro ⟨_, _, ⟨rfl, rfl⟩, h⟩
      exact h
  | ask q next ih =>
    constructor
    · rintro ⟨other, hs, h⟩
      obtain ⟨a, u, hx, hf⟩ := (ih _).1 h
      exact ⟨a, u, ⟨other, hs, hx⟩, hf⟩
    · rintro ⟨a, u, ⟨other, hs, hx⟩, hf⟩
      exact ⟨other, hs, (ih _).2 ⟨a, u, hx, hf⟩⟩

end

/-- What a job that runs alone on a site can end with, and the site it can leave behind. -/
def Runs : Job α → Site → α → Site → Prop
  | done a, s, b, t => b = a ∧ t = s
  | ask q next, s, b, t => ∃ other,
    (next ((s.withHardware other).answer q).1).Runs ((s.withHardware other).answer q).2 b t

theorem runs_iff {x : Job α} {s t : Site} {a : α} :
    x.Runs s a t ↔ x.RunsUnder (fun _ _ => True) s a t := by
  induction x generalizing s with
  | done b => exact Iff.rfl
  | ask q next ih => exact exists_congr fun other => (ih _).trans (iff_of_eq (true_and _)).symm

theorem RunsUnder.runs {S : Site → Request → Prop} {x : Job α} {s t : Site} {a : α}
    (h : x.RunsUnder S s a t) : x.Runs s a t := by
  induction x generalizing s with
  | done b => exact h
  | ask q next ih =>
    obtain ⟨other, -, h⟩ := h
    exact ⟨other, ih _ h⟩

theorem Runs.keeps {x : Job α} {I : Site → Prop} {s t : Site} {a : α} (hx : x.All P Q)
    (hI : ∀ s other q, P q → I s → I ((s.withHardware other).answer q).2) (h : x.Runs s a t)
    (hs : I s) : I t := by
  induction x generalizing s with
  | done b =>
    obtain ⟨-, rfl⟩ := h
    exact hs
  | ask q next ih =>
    obtain ⟨other, h⟩ := h
    exact ih _ (hx.2 _) h (hI s other q hx.1 hs)

theorem runs_run (x : Job α) (s : Site) : x.Runs s (x.run s).1 (x.run s).2 := by
  induction x generalizing s with
  | done a => exact ⟨rfl, rfl⟩
  | ask q next ih => exact ⟨s, ih _ _⟩

theorem run_seq (x : Job α) (f : α → Job β) (s : Site) :
    (x >>= f).run s = (f (x.run s).1).run (x.run s).2 :=
  x.run_bind f s

theorem All.run {x : Job α} (hx : x.All P Q) (s : Site) : Q (x.run s).1 := by
  induction x generalizing s with
  | done a => exact hx
  | ask q next ih => exact ih _ (hx.2 _) _

theorem All.runs {x : Job α} (hx : x.All P Q) {s t : Site} {a : α} (h : x.Runs s a t) : Q a := by
  induction x generalizing s with
  | done b => exact h.1 ▸ hx
  | ask q next ih =>
    obtain ⟨other, h⟩ := h
    exact ih _ (hx.2 _) h

theorem outcome_seq (answer : (q : Request) → q.Answer) (x : Job α) (f : α → Job β) :
    (x >>= f).outcome answer = (f (x.outcome answer)).outcome answer :=
  outcome_bind answer x f

theorem All.outcome {x : Job α} (hx : x.All P Q) (answer : (q : Request) → q.Answer) :
    Q (x.outcome answer) := by
  induction x with
  | done a => exact hx
  | ask q next ih => exact ih _ (hx.2 _)

theorem runs_pure {a b : α} {s t : Site} : (pure a : Job α).Runs s b t ↔ b = a ∧ t = s := Iff.rfl

theorem runs_bind {x : Job α} {f : α → Job β} {s t : Site} {b : β} :
    (x >>= f).Runs s b t ↔ ∃ a u, x.Runs s a u ∧ (f a).Runs u b t := by
  simp only [runs_iff]
  exact runsUnder_bind

end Job

/-! ## Counting jobs -/

theorem countP_set_add {α : Type} {l : List α} {i : Nat} {a : α} (h : l[i]? = some a) (b : α)
    (P : α → Bool) :
    (l.set i b).countP P + (if P a then 1 else 0) = l.countP P + if P b then 1 else 0 := by
  obtain ⟨hi, rfl⟩ := List.getElem?_eq_some_iff.1 h
  rw [(List.set_perm_cons_eraseIdx hi b).countP_eq, List.countP_cons,
    ← (List.getElem_cons_eraseIdx_perm hi).countP_eq, List.countP_cons]
  omega

end HomeMetering.Site
