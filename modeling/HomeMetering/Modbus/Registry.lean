/-!
# The registry of connections

At most one connection for each address is shared by every meter at that address. A meter holds a
lease on it; a connection that nobody holds a lease on may be taken out and closed. Every operation
here happens at once; opening and closing take time and happen outside of it.
-/

namespace HomeMetering.Modbus

/-- A client that was opened; clients are numbered in the order of their opening. -/
abbrev ClientId := Nat

/-- A shared connection. -/
structure Shared where
  client : ClientId
  /-- Leases on it. -/
  users : Nat
  deriving Repr, DecidableEq

/-- The shared connections by address. -/
structure Registry where
  entries : List (String × Shared)
  deriving Repr, DecidableEq

namespace Registry

def empty : Registry := ⟨[]⟩

def find? (r : Registry) (url : String) : Option Shared := r.entries.lookup url

def cached? (r : Registry) (url : String) : Option ClientId := (r.find? url).map Shared.client

def size (r : Registry) : Nat := r.entries.length

def erase (r : Registry) (url : String) : Registry := ⟨r.entries.filter fun e => e.1 != url⟩

/-- The registry with the entry of an address set. -/
def put (r : Registry) (url : String) (shared : Shared) : Registry :=
  ⟨(url, shared) :: (r.erase url).entries⟩

/-- Enters a client that was just opened. When another one was faster, the registry stays as it is
and the other one is the answer. -/
def adopt (r : Registry) (url : String) (client : ClientId) : Option ClientId × Registry :=
  match r.find? url with
  | some winner => (some winner.client, r)
  | none => (none, r.put url ⟨client, 0⟩)

/-- Takes out a client without leases, for the caller to close. -/
def evict (r : Registry) (url : String) : Option ClientId × Registry :=
  match r.find? url with
  | some shared => if shared.users = 0 then (some shared.client, r.erase url) else (none, r)
  | none => (none, r)

/-- Counts one more lease. -/
def lease (r : Registry) (url : String) : Registry :=
  match r.find? url with
  | some shared => r.put url { shared with users := shared.users + 1 }
  | none => r

/-- Counts one lease less; the last one takes the client out, for the caller to close. -/
def giveBack (r : Registry) (url : String) : Option ClientId × Registry :=
  match r.find? url with
  | some shared =>
    if shared.users ≤ 1 then (some shared.client, r.erase url)
    else (none, r.put url { shared with users := shared.users - 1 })
  | none => (none, r)

/-! ## What each operation can do -/

theorem adopt_cases (r : Registry) (url : String) (client : ClientId) :
    (∃ winner, r.adopt url client = (some winner, r)) ∨
      (r.find? url = none ∧ r.adopt url client = (none, r.put url ⟨client, 0⟩)) := by
  unfold adopt
  cases h : r.find? url with
  | some winner => exact Or.inl ⟨winner.client, rfl⟩
  | none => exact Or.inr ⟨rfl, rfl⟩

theorem evict_cases (r : Registry) (url : String) :
    (∃ client, r.find? url = some ⟨client, 0⟩ ∧ r.evict url = (some client, r.erase url)) ∨
      ((∀ shared, r.find? url = some shared → shared.users ≠ 0) ∧ r.evict url = (none, r)) := by
  unfold evict
  cases h : r.find? url with
  | none => exact Or.inr ⟨by simp, rfl⟩
  | some shared =>
    obtain ⟨client, users⟩ := shared
    by_cases hu : users = 0
    · subst hu
      exact Or.inl ⟨client, rfl, rfl⟩
    · exact Or.inr ⟨by simpa using hu, if_neg hu⟩

theorem lease_cases (r : Registry) (url : String) :
    (∃ client users, r.find? url = some ⟨client, users⟩ ∧
        r.lease url = r.put url ⟨client, users + 1⟩) ∨
      (r.find? url = none ∧ r.lease url = r) := by
  unfold lease
  cases h : r.find? url with
  | some shared => exact Or.inl ⟨shared.client, shared.users, rfl, rfl⟩
  | none => exact Or.inr ⟨rfl, rfl⟩

theorem giveBack_cases (r : Registry) (url : String) :
    (∃ client users, r.find? url = some ⟨client, users⟩ ∧ users ≤ 1 ∧
        r.giveBack url = (some client, r.erase url)) ∨
      (∃ client users, r.find? url = some ⟨client, users⟩ ∧ 1 < users ∧
        r.giveBack url = (none, r.put url ⟨client, users - 1⟩)) ∨
      (r.find? url = none ∧ r.giveBack url = (none, r)) := by
  unfold giveBack
  cases h : r.find? url with
  | none => exact Or.inr (Or.inr ⟨rfl, rfl⟩)
  | some shared =>
    obtain ⟨client, users⟩ := shared
    by_cases hu : users ≤ 1
    · exact Or.inl ⟨client, users, rfl, hu, if_pos hu⟩
    · exact Or.inr (Or.inl ⟨client, users, rfl, by omega, if_neg hu⟩)

end Registry

end HomeMetering.Modbus
