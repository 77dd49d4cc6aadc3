import HomeMetering.Modbus.Link
import HomeMetering.Proofs.Modbus.Registry
import HomeMetering.Proofs.Site.Books

/-!
# Where every client is

A client that was opened is in the hands of one job, shared under one address, or closed. A job has
a client in its hands between two of its requests only: after opening it, until the registry has
taken it or another one was faster, and after taking it out of the registry, until it is closed.
Whatever the order of the requests of several jobs, they keep the account of every client.
-/

namespace HomeMetering

open Modbus Site

/-! ## What a job has in its hands -/

/-- What a job has in its hands between two requests. -/
inductive Site.Custody where
  | nothing
  /-- A client that it has opened and not entered in the registry. -/
  | opened (url : String) (client : ClientId)
  /-- A client that it is about to close. -/
  | doomed (client : ClientId)
  /-- A client that it is about to close and keeps others from. -/
  | locked (client : ClientId)
  deriving Repr, DecidableEq

namespace Site.Custody

def client? : Custody → Option ClientId
  | nothing => none
  | opened _ client | doomed client | locked client => some client

def count (k : Custody) (client : ClientId) : Nat := if k.client? = some client then 1 else 0

/-- What a job may ask for next. -/
def permits : Custody → Request → Prop
  | nothing, .adopt _ _ | nothing, .close _ => False
  | nothing, _ => True
  | opened url client, .adopt u c => u = url ∧ c = client
  | doomed client, .lock c => c = client
  | locked client, .close c => c = client
  | _, _ => False

/-- What a job has in its hands after an answer. -/
def after : Custody → (q : Request) → q.Answer → Custody
  | nothing, .connect url _, .ok client => opened url client
  | nothing, .evict _, some client => doomed client
  | nothing, .giveBack _, some client => doomed client
  | opened _ client, .adopt _ _, some _ => doomed client
  | doomed client, .lock _, _ => locked client
  | _, _, _ => nothing

theorem count_of_client? {k : Custody} {client : ClientId} (h : k.client? = some client) :
    k.count client = 1 := if_pos h

@[simp] theorem count_nothing (client : ClientId) : nothing.count client = 0 := rfl

@[simp] theorem count_opened (url : String) (i client : ClientId) :
    (opened url i).count client = if i = client then 1 else 0 := by
  simp [count, client?]

@[simp] theorem count_doomed (i client : ClientId) :
    (doomed i).count client = if i = client then 1 else 0 := by
  simp [count, client?]

@[simp] theorem count_locked (i client : ClientId) :
    (locked i).count client = if i = client then 1 else 0 := by
  simp [count, client?]

theorem permits_of_isUse {q : Request} (h : q.IsUse) : nothing.permits q := by
  cases q <;> trivial

theorem after_of_isUse {q : Request} (h : q.IsUse) (answer : q.Answer) :
    nothing.after q answer = nothing := by
  cases q <;> trivial

end Site.Custody

namespace Site.Job

variable {α β : Type}

/-- A job that starts with something in its hands never lets go of a client that is open, and ends
with nothing in them. -/
def Careful : Custody → Job α → Prop
  | k, done _ => k = .nothing
  | k, ask q next => k.permits q ∧ ∀ answer, (next answer).Careful (k.after q answer)

/-- What a job has in its hands that waits for a client and goes on like this. -/
def custodyAfterLock (client : ClientId) : Job α → Custody
  | ask (.close c) _ => if c = client then .doomed client else .nothing
  | _ => .nothing

/-- What a job has in its hands, as its next requests tell. -/
def custody : Job α → Custody
  | ask (.adopt url client) _ => .opened url client
  | ask (.close client) _ => .locked client
  | ask (.lock client) next => (next ()).custodyAfterLock client
  | _ => .nothing

theorem Careful.bind {k : Custody} {x : Job α} {f : α → Job β} (hx : x.Careful k)
    (hf : ∀ a, (f a).Careful .nothing) : (x >>= f).Careful k := by
  induction x generalizing k with
  | done a =>
    obtain rfl : k = .nothing := hx
    exact hf a
  | ask q next ih => exact ⟨hx.1, fun answer => ih answer (hx.2 answer)⟩

theorem Careful.custodyAfterLock_of_nothing {x : Job α} (h : x.Careful .nothing)
    (client : ClientId) : x.custodyAfterLock client = .nothing := by
  cases x with
  | done a => rfl
  | ask q next =>
    cases q with
    | close c => exact h.1.elim
    | _ => rfl

theorem Careful.custodyAfterLock_of_locked {x : Job α} {client : ClientId}
    (h : x.Careful (.locked client)) : x.custodyAfterLock client = .doomed client := by
  cases x with
  | done a => cases h
  | ask q next =>
    cases q with
    | close c =>
      obtain rfl : c = client := h.1
      exact if_pos rfl
    | _ => exact h.1.elim

theorem Careful.custody_eq {k : Custody} {x : Job α} (h : x.Careful k) : x.custody = k := by
  cases x with
  | done a =>
    obtain rfl : k = .nothing := h
    rfl
  | ask q next =>
    obtain ⟨hq, hnext⟩ := h
    cases k with
    | nothing =>
      cases q with
      -- A lock is taken before closing too, so the request after it decides.
      | lock client => exact (hnext ()).custodyAfterLock_of_nothing client
      | adopt url client | close client => exact hq.elim
      | _ => rfl
    | opened url client =>
      cases q with
      | adopt u c =>
        obtain ⟨rfl, rfl⟩ := hq
        rfl
      | _ => exact hq.elim
    | doomed client =>
      cases q with
      | lock c =>
        obtain rfl : c = client := hq
        exact (hnext ()).custodyAfterLock_of_locked
      | _ => exact hq.elim
    | locked client =>
      cases q with
      | close c =>
        obtain rfl : c = client := hq
        rfl
      | _ => exact hq.elim

end Site.Job

/-! ## The account of a site -/

namespace Site

/-- Every client that was opened is once in somebody's hands, shared, or closed. -/
structure Balanced (s : Site) (held : ClientId → Nat) : Prop where
  wellKeyed : s.registry.WellKeyed
  balance : ∀ client, held client + s.registry.shares client + s.closings client =
    s.openings client
  numbered : ∀ client, s.openings client = if client < s.clients.length then 1 else 0

variable {s t : Site} {held held' : ClientId → Nat}

theorem balanced_new (buses : List (String × Segment))
    (streams : List (String × List (Nat × List Telegram.Delivery))) (absence : Absence) :
    (Site.new buses streams absence).Balanced fun _ => 0 :=
  ⟨List.nodup_nil, fun _ => rfl, fun _ => rfl⟩

theorem Balanced.of_sameBooks (h : s.Balanced held) (hbooks : s.SameBooks t) :
    t.Balanced held := by
  refine ⟨hbooks.registry ▸ h.wellKeyed, fun c => ?_, fun c => ?_⟩
  · rw [hbooks.registry, hbooks.openings, hbooks.closings, h.balance]
  · rw [hbooks.openings, hbooks.clients, h.numbered]

theorem Balanced.withRegistry {r : Registry} (h : s.Balanced held) (hkeys : r.WellKeyed)
    (hmoved : ∀ c, held' c + r.shares c = held c + s.registry.shares c) :
    (s.withRegistry r).Balanced held' := by
  refine ⟨hkeys, fun c => ?_, h.numbered⟩
  have hbalance := h.balance c
  have hc := hmoved c
  show held' c + r.shares c + s.closings c = s.openings c
  omega

theorem Balanced.lt_of_held {c : ClientId} (h : s.Balanced held) (hc : 0 < held c) :
    c < s.clients.length := by
  have hbalance := h.balance c
  rw [h.numbered] at hbalance
  split at hbalance
  · assumption
  · omega

/-! ## One request -/

section Requests

variable {rest : ClientId → Nat} {url : String} {client : ClientId}

theorem Balanced.connect (h : s.Balanced rest) (url : String) (baud : Nat) :
    (s.connect url baud).2.Balanced fun c =>
      rest c + (Custody.nothing.after (.connect url baud) (s.connect url baud).1).count c := by
  rcases s.connect_cases url baud with ⟨e, t, ht, hbooks⟩ | ⟨t, ht, hreg, hlen, hclosed, hopened⟩
  · rw [ht]
    exact h.of_sameBooks hbooks
  · rw [ht]
    refine ⟨hreg ▸ h.wellKeyed, fun c => ?_, fun c => ?_⟩
    · have hbalance := h.balance c
      show rest c + (Custody.opened url s.clients.length).count c + _ + _ = _
      rw [Custody.count_opened, hreg, hclosed, hopened]
      omega
    · rw [hopened, hlen, h.numbered]
      rcases Nat.lt_trichotomy c s.clients.length with hc | rfl | hc
      · rw [if_pos hc, if_neg (Nat.ne_of_gt hc), if_pos (Nat.lt_succ_of_lt hc)]
      · simp
      · rw [if_neg (Nat.lt_asymm hc), if_neg (Nat.ne_of_lt hc), if_neg (Nat.not_lt.2 hc)]

theorem Balanced.adopt (h : s.Balanced fun c => rest c + (Custody.opened url client).count c) :
    (s.answer (.adopt url client)).2.Balanced fun c =>
      rest c + ((Custody.opened url client).after (.adopt url client)
        (s.answer (.adopt url client)).1).count c := by
  unfold answer
  dsimp only
  rcases s.registry.adopt_cases url client with ⟨winner, hadopt⟩ | ⟨hfind, hadopt⟩
  · rw [hadopt]
    exact h.withRegistry h.wellKeyed fun c => by
      simp only [Custody.after, Custody.count_opened, Custody.count_doomed]
  · rw [hadopt]
    refine h.withRegistry (Registry.wellKeyed_put h.wellKeyed ..) fun c => ?_
    rw [Registry.shares_put, Registry.erase_of_find?_eq_none hfind]
    simp only [Custody.after, Custody.count_opened, Custody.count_nothing]
    omega

theorem Balanced.erase {shared : Shared} (h : s.Balanced rest)
    (hfind : s.registry.find? url = some shared) :
    (s.withRegistry (s.registry.erase url)).Balanced fun c =>
      rest c + (Custody.doomed shared.client).count c := by
  refine h.withRegistry (Registry.wellKeyed_erase h.wellKeyed url) fun c => ?_
  rw [Registry.shares_eq_erase h.wellKeyed hfind, Custody.count_doomed]
  omega

theorem Balanced.setUsers {users n : Nat} (h : s.Balanced rest)
    (hfind : s.registry.find? url = some ⟨client, users⟩) :
    (s.withRegistry (s.registry.put url ⟨client, n⟩)).Balanced rest := by
  refine h.withRegistry (Registry.wellKeyed_put h.wellKeyed ..) fun c => ?_
  rw [Registry.shares_put, Registry.shares_eq_erase h.wellKeyed hfind]

theorem Balanced.evict (h : s.Balanced rest) (url : String) :
    (s.answer (.evict url)).2.Balanced fun c =>
      rest c + (Custody.nothing.after (.evict url) (s.answer (.evict url)).1).count c := by
  unfold answer
  dsimp only
  rcases s.registry.evict_cases url with ⟨client, hfind, hevict⟩ | ⟨-, hevict⟩
  · rw [hevict]
    exact h.erase hfind
  · rw [hevict]
    exact h

theorem Balanced.lease (h : s.Balanced rest) (url : String) :
    (s.answer (.lease url)).2.Balanced rest := by
  unfold answer
  dsimp only
  rcases s.registry.lease_cases url with ⟨client, users, hfind, hlease⟩ | ⟨-, hlease⟩
  · rw [hlease]
    exact h.setUsers hfind
  · rw [hlease]
    exact h

theorem Balanced.giveBack (h : s.Balanced rest) (url : String) :
    (s.answer (.giveBack url)).2.Balanced fun c =>
      rest c + (Custody.nothing.after (.giveBack url) (s.answer (.giveBack url)).1).count c := by
  unfold answer
  dsimp only
  rcases s.registry.giveBack_cases url with ⟨client, users, hfind, -, hgive⟩ |
    ⟨client, users, hfind, -, hgive⟩ | ⟨-, hgive⟩
  · rw [hgive]
    exact h.erase hfind
  · rw [hgive]
    exact h.setUsers hfind
  · rw [hgive]
    exact h

theorem Balanced.close (h : s.Balanced fun c => rest c + (Custody.locked client).count c) :
    (s.close client).2.Balanced rest := by
  have hlt : client < s.clients.length := by
    refine h.lt_of_held ?_
    rw [Custody.count_locked, if_pos rfl]
    omega
  obtain ⟨hreg, hlen, hopened, hclosed⟩ := s.close_of_lt hlt
  refine ⟨hreg ▸ h.wellKeyed, fun c => ?_, fun c => ?_⟩
  · have hbalance := h.balance c
    rw [Custody.count_locked] at hbalance
    rw [hreg, hclosed, hopened]
    omega
  · rw [hopened, hlen, h.numbered]

/-- A request that what a job has in its hands permits keeps the account of every client. -/
theorem Balanced.answer {k : Custody} {q : Request} (hq : k.permits q)
    (h : s.Balanced fun c => rest c + k.count c) :
    (s.answer q).2.Balanced fun c => rest c + (k.after q (s.answer q).1).count c := by
  cases k with
  | nothing =>
    cases q with
    | connect url baud => exact Balanced.connect h url baud
    | evict url => exact Balanced.evict h url
    | lease url => exact Balanced.lease h url
    | giveBack url => exact Balanced.giveBack h url
    | adopt url client | close client => exact hq.elim
    | _ => exact h.of_sameBooks (s.sameBooks_answer _ trivial)
  | opened url client =>
    cases q with
    | adopt u c =>
      obtain ⟨rfl, rfl⟩ := hq
      exact h.adopt
    | _ => exact hq.elim
  | doomed client =>
    cases q with
    | lock c =>
      obtain rfl : c = client := hq
      exact h.of_sameBooks (s.sameBooks_answer _ trivial)
    | _ => exact hq.elim
  | locked client =>
    cases q with
    | close c =>
      obtain rfl : c = client := hq
      exact Balanced.close h
    | _ => exact hq.elim

theorem Balanced.runs {α : Type} {x : Job α} {k : Custody} {a : α} (hx : x.Careful k)
    (h : s.Balanced fun c => rest c + k.count c) (hrun : x.Runs s a t) : t.Balanced rest := by
  induction x generalizing k s with
  | done b =>
    obtain ⟨-, rfl⟩ := hrun
    obtain rfl : k = .nothing := hx
    exact h
  | ask q next ih =>
    obtain ⟨other, hrun⟩ := hrun
    have hdrift := h.of_sameBooks (sameBooks_withHardware s other)
    exact ih _ (hx.2 _) (hdrift.answer hx.1) hrun

end Requests

theorem Balanced.closings_of_shared {url : String} {c : ClientId} (h : s.Balanced held)
    (hc : s.registry.cached? url = some c) : s.openings c = 1 ∧ s.closings c = 0 := by
  have hshares := (Registry.shares_pos_iff h.wellKeyed).2 ⟨url, hc⟩
  have hbalance := h.balance c
  have hnumber := h.numbered c
  split at hnumber <;> omega

end Site

end HomeMetering
