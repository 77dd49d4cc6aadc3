import HomeMetering.Proofs.Modbus.Undisturbed

/-!
# Who holds a lease

Two requests change the number of leases on a connection, and a client stays shared as long as there
are any. A job that minds its leases takes one as the last thing it does and gives one back as the
first, so that what it asks for next tells whether it has one.
-/

namespace HomeMetering

open Modbus

namespace Site

/-! ## What a request does to leases -/

/-- The address that a request takes a lease on. -/
def Request.leased? : Request → Option String
  | lease url => some url
  | _ => none

def Request.givenBack? : Request → Option String
  | giveBack url => some url
  | _ => none

section Requests

variable {url : String} {c : ClientId}

theorem leases_answer (s : Site) (q : Request)
    (hlease : ∀ u, q = .lease u → s.registry.find? u ≠ none) (url : String) :
    (s.answer q).2.registry.leases url =
      s.registry.leases url + (if q.leased? = some url then 1 else 0) -
        if q.givenBack? = some url then 1 else 0 := by
  have hrest : q.LeavesRegistry →
      (s.answer q).2.registry.leases url = s.registry.leases url := fun hq => by
    rw [registry_answer s q hq]
  cases q with
  | adopt u client => exact Registry.leases_adopt s.registry u url client
  | evict u => exact Registry.leases_evict s.registry u url
  | lease u =>
    obtain ⟨shared, hfind⟩ := Option.ne_none_iff_exists'.1 (hlease u rfl)
    refine (Registry.leases_lease hfind url).trans ?_
    simp [Request.leased?, Request.givenBack?, eq_comm]
  | giveBack u =>
    refine (Registry.leases_giveBack s.registry u url).trans ?_
    simp [Request.leased?, Request.givenBack?, eq_comm]
  | _ => exact hrest trivial

theorem cached?_answer_of_leased (s : Site) (q : Request) (h : s.registry.cached? url = some c)
    (hleased : 0 < (s.answer q).2.registry.leases url) :
    (s.answer q).2.registry.cached? url = some c := by
  have hrest : q.LeavesRegistry → (s.answer q).2.registry.cached? url = some c := fun hq => by
    rw [registry_answer s q hq]
    exact h
  cases q with
  | adopt u client => exact Registry.cached?_adopt h u client
  | evict u => exact Registry.cached?_evict_of_leased h hleased
  | lease u => exact (Registry.cached?_lease s.registry u url).trans h
  | giveBack u => exact Registry.cached?_giveBack_of_leased h hleased
  | _ => exact hrest trivial

end Requests

/-! ## What a job has leased -/

namespace Job

variable {α β : Type} {hold : α → Option String} {hold' : β → Option String}

/-- The address that a job has a lease on: it ended with it, or is about to give it back. -/
def leased? (hold : α → Option String) : Job α → Option String
  | done a => hold a
  | ask q _ => q.givenBack?

@[simp] theorem leased?_done (a : α) : (Job.done a).leased? hold = hold a := rfl

@[simp] theorem leased?_ask (q : Request) (next : q.Answer → Job α) :
    (ask q next).leased? hold = q.givenBack? := rfl

/-- A job that has a lease after every request that takes one, and only then. -/
def MindsLeases (hold : α → Option String) : Job α → Prop
  | done _ => True
  | ask q next => ∀ answer, (next answer).MindsLeases hold ∧
      (next answer).leased? hold = q.leased? ∧ (q.leased?.isSome → (next answer).isDone)

theorem leased?_bind {f : α → Job β} (hsame : ∀ a, (f a).leased? hold' = hold a) (x : Job α) :
    (x >>= f).leased? hold' = x.leased? hold := by
  cases x with
  | done a => exact hsame a
  | ask q next => rfl

theorem MindsLeases.bind {x : Job α} {f : α → Job β} (hx : x.MindsLeases hold)
    (hf : ∀ a, (f a).MindsLeases hold') (hsame : ∀ a, (f a).leased? hold' = hold a)
    (hdone : ∀ a, (hold a).isSome → (f a).isDone) : (x >>= f).MindsLeases hold' := by
  induction x with
  | done a => exact hf a
  | ask q next ih =>
    intro answer
    obtain ⟨hnext, hleased, hends⟩ := hx answer
    refine ⟨ih answer hnext, (leased?_bind hsame (next answer)).trans hleased, fun hq => ?_⟩
    have hend := hends hq
    show (next answer >>= f).isDone
    cases hjob : next answer with
    | done a =>
      rw [hjob] at hleased
      change hold a = q.leased? at hleased
      exact hdone a (hleased ▸ hq)
    | ask q' next' =>
      rw [hjob] at hend
      cases hend

/-- A job that minds its leases and has none yet. -/
def Unleased (hold : α → Option String) (x : Job α) : Prop :=
  x.MindsLeases hold ∧ x.leased? hold = none

theorem Unleased.done {a : α} (h : hold a = none) : (pure a : Job α).Unleased hold := ⟨trivial, h⟩

theorem Unleased.after {Q : α → Prop} {x : Job α} {f : α → Job β}
    (hx : x.All Request.LeavesLeases Q) (hf : ∀ a, Q a → (f a).Unleased hold') :
    (x >>= f).Unleased hold' := by
  induction x with
  | done a => exact hf a hx
  | ask q next ih =>
    obtain ⟨hq, hnext⟩ := hx
    cases q with
    | lease url | giveBack url => exact hq.elim
    | _ =>
      refine ⟨fun answer => ?_, rfl⟩
      obtain ⟨hminds, hleased⟩ := ih answer (hnext answer)
      exact ⟨hminds, hleased, by rintro ⟨⟩⟩

theorem Unleased.of_all {Q : α → Prop} {x : Job α} (hx : x.All Request.LeavesLeases Q)
    (hold_none : ∀ a, Q a → hold a = none) : x.Unleased hold := by
  have hend := Unleased.after (f := pure) hx fun a ha => .done (hold_none a ha)
  rwa [bind_pure] at hend

end Job

end Site

/-! ## Operations that leave leases alone -/

namespace Modbus

open Site Job

theorem leavesLeases_closeTaken (taken : Option ClientId) :
    (closeTaken taken).All Request.LeavesLeases fun _ => True :=
  (all_closeTaken taken).imp (fun _ => Request.LeavesRegistry.leavesLeases) fun _ ha => ha

theorem leavesLeases_removeUnused (url : String) :
    (removeUnused url).All Request.LeavesLeases fun _ => True :=
  .bind (.request trivial) fun taken _ => leavesLeases_closeTaken taken

theorem leavesLeases_getOrOpen (url : String) (baud : Nat) :
    (getOrOpen url baud).All Request.LeavesLeases fun _ => True := by
  refine .bind (.request trivial) fun cached _ => ?_
  cases cached with
  | some client => exact .done trivial
  | none =>
    refine .bind (.request trivial) fun opened _ => ?_
    cases opened with
    | error e => exact .done trivial
    | ok client =>
      refine .bind (.request trivial) fun winner _ => ?_
      cases winner with
      | none => exact .done trivial
      | some winner => exact .bind (leavesLeases_closeTaken (some client)) fun _ _ => .done trivial

end Modbus

end HomeMetering
