import HomeMetering.Modbus.Link
import HomeMetering.Proofs.Modbus.Registry
import HomeMetering.Proofs.Site.Books

/-!
# Connections that nobody interferes with

What opening, dropping, leasing and giving back do to the registry when no other job comes between.
Nobody else can be faster then, and a client that was opened for nothing leaves no trace.
-/

namespace HomeMetering.Modbus

open Site Job

namespace Registry

variable {r : Registry} {url : String}

theorem adopt_of_none (h : r.find? url = none) (client : ClientId) :
    r.adopt url client = (none, r.put url ⟨client, 0⟩) := by
  unfold adopt
  rw [h]

theorem erase_put (r : Registry) (url : String) (shared : Shared) :
    (r.put url shared).erase url = r.erase url := by
  unfold put erase
  rw [List.filter_cons_of_neg (by simp), List.filter_filter]
  simp

theorem evict_put (h : r.find? url = none) (client : ClientId) :
    ((r.put url ⟨client, 0⟩).evict url).2 = r := by
  have hfind : (r.put url ⟨client, 0⟩).find? url = some ⟨client, 0⟩ := by
    rw [find?_put, if_pos rfl]
  unfold evict
  rw [hfind]
  simp only [if_true]
  rw [erase_put, erase_of_find?_eq_none h]

/-- One more lease on the connection of an address, which is opened when it was not. -/
structure Joins (r r' : Registry) (url : String) : Prop where
  users : (r'.find? url).map Shared.users = some (r.leases url + 1)
  others : ∀ u, u ≠ url → r'.find? u = r.find? u

theorem joins_lease {shared : Shared} (h : r.find? url = some shared) :
    r.Joins (r.lease url) url := by
  unfold lease
  rw [h]
  constructor
  · rw [find?_put, if_pos rfl, leases, h]
    rfl
  · intro u hu
    rw [find?_put, if_neg hu]

theorem joins_put_lease (h : r.find? url = none) (client : ClientId) :
    r.Joins ((r.put url ⟨client, 0⟩).lease url) url := by
  have hfind : (r.put url ⟨client, 0⟩).find? url = some ⟨client, 0⟩ := by
    rw [find?_put, if_pos rfl]
  obtain ⟨husers, hothers⟩ := joins_lease hfind
  constructor
  · rw [husers, leases, leases, hfind, h]
    rfl
  · intro u hu
    rw [hothers u hu, find?_put, if_neg hu]

/-- An address has an entry when it has leases, with their number. -/
def Tallied (r : Registry) (n : String → Nat) : Prop :=
  ∀ url, (r.find? url).map Shared.users = if n url = 0 then none else some (n url)

variable {r' : Registry} {n n' : String → Nat}

theorem Tallied.leases_eq (h : r.Tallied n) (url : String) : r.leases url = n url := by
  rw [leases, h url]
  split
  · rw [Option.getD_none]
    omega
  · rfl

theorem Tallied.join (h : r.Tallied n) (hjoin : r.Joins r' url)
    (hn : ∀ u, n' u = n u + if u = url then 1 else 0) : r'.Tallied n' := by
  intro u
  rw [hn u]
  by_cases hu : u = url
  · subst hu
    rw [hjoin.users, h.leases_eq, if_pos rfl, if_neg (by omega)]
  · rw [hjoin.others u hu, h u, if_neg hu]
    rfl

theorem Tallied.giveBack (h : r.Tallied n) (hn : ∀ u, n u = n' u + if u = url then 1 else 0) :
    (r.giveBack url).2.Tallied n' := by
  have hurl := h url
  rw [hn url, if_pos rfl, if_neg (by omega)] at hurl
  intro u
  have hu := h u
  rw [hn u] at hu
  rcases r.giveBack_cases url with ⟨client, users, hfind, hlast, hgive⟩ |
    ⟨client, users, hfind, hmore, hgive⟩ | ⟨hnone, -⟩
  · obtain rfl : users = n' url + 1 := by simpa [hfind] using hurl
    rw [hgive, find?_erase]
    by_cases heq : u = url
    · subst heq
      rw [if_pos rfl, if_pos (by omega)]
      rfl
    · rw [if_neg heq, hu, if_neg heq]
      rfl
  · obtain rfl : users = n' url + 1 := by simpa [hfind] using hurl
    rw [hgive, find?_put]
    by_cases heq : u = url
    · subst heq
      rw [if_pos rfl, if_neg (by omega)]
      rfl
    · rw [if_neg heq, hu, if_neg heq]
      rfl
  · rw [hnone] at hurl
    cases hurl

end Registry

variable {s t : Site} {url : String}

/-! ## Requests -/

theorem adopt_runs {client : ClientId} {winner : Option ClientId}
    (h : (request (.adopt url client)).Runs s winner t) :
    winner = (s.registry.adopt url client).1 ∧ t.registry = (s.registry.adopt url client).2 := by
  obtain ⟨other, rfl, rfl⟩ := h
  exact ⟨rfl, rfl⟩

theorem evict_runs {taken : Option ClientId} (h : (request (.evict url)).Runs s taken t) :
    t.registry = (s.registry.evict url).2 := by
  obtain ⟨other, rfl, rfl⟩ := h
  rfl

theorem lease_runs {u : Unit} (h : (request (.lease url)).Runs s u t) :
    t.registry = s.registry.lease url := by
  obtain ⟨other, rfl, rfl⟩ := h
  rfl

theorem giveBack_runs {taken : Option ClientId} (h : (request (.giveBack url)).Runs s taken t) :
    t.registry = (s.registry.giveBack url).2 := by
  obtain ⟨other, rfl, rfl⟩ := h
  rfl

/-! ## Operations -/

theorem all_closeClient (client : ClientId) :
    (closeClient client).All Request.LeavesRegistry fun _ => True :=
  .bind (.request trivial) fun _ _ => .bind (.request trivial) fun _ _ =>
    .bind (.request trivial) fun _ _ => .done trivial

theorem all_closeTaken (taken : Option ClientId) :
    (closeTaken taken).All Request.LeavesRegistry fun _ => True := by
  cases taken with
  | none => exact .done trivial
  | some client => exact .bind (all_closeClient client) fun _ _ => .done trivial

theorem getOrOpen_runs {baud : Nat} {r : Except BusError (ClientId × Bool)}
    (h : (getOrOpen url baud).Runs s r t) :
    ((∃ e, r = .error e) ∧ t.registry = s.registry) ∨
      (∃ c, r = .ok (c, true) ∧ s.registry.cached? url = some c ∧ t.registry = s.registry) ∨
      (∃ c, r = .ok (c, false) ∧ s.registry.find? url = none ∧
        t.registry = s.registry.put url ⟨c, 0⟩) := by
  obtain ⟨cached, u, ⟨other, hcached, hu⟩, h⟩ := runs_bind.1 h
  change cached = s.registry.cached? url at hcached
  have hsame : u.registry = s.registry := by
    rw [hu]
    rfl
  cases cached with
  | some client =>
    obtain ⟨rfl, rfl⟩ := h
    exact Or.inr (Or.inl ⟨client, rfl, hcached.symm, hsame⟩)
  | none =>
    have hfind : s.registry.find? url = none := Option.map_eq_none_iff.1 hcached.symm
    obtain ⟨opened, v, hconnect, h⟩ := runs_bind.1 h
    have hall : (request (.connect url baud)).All Request.LeavesRegistry fun _ => True :=
      .request trivial
    have hv : v.registry = s.registry := (registry_of_runs hall hconnect).1.trans hsame
    cases opened with
    | error e =>
      obtain ⟨rfl, rfl⟩ := h
      exact Or.inl ⟨⟨e, rfl⟩, hv⟩
    | ok client =>
      obtain ⟨winner, w, hadopt, h⟩ := runs_bind.1 h
      -- Nobody else was faster, since the address had no entry before.
      obtain ⟨hwinner, hw⟩ := adopt_runs hadopt
      rw [hv, Registry.adopt_of_none hfind] at hwinner hw
      cases hwinner
      obtain ⟨rfl, rfl⟩ := h
      exact Or.inr (Or.inr ⟨client, rfl, hfind, hw⟩)

theorem removeUnused_runs {u : Unit} (h : (removeUnused url).Runs s u t) :
    t.registry = (s.registry.evict url).2 := by
  obtain ⟨taken, v, hevict, hclose⟩ := runs_bind.1 h
  rw [(registry_of_runs (all_closeTaken taken) hclose).1, evict_runs hevict]

theorem release_runs {u : Unit} (h : (release url).Runs s u t) :
    t.registry = (s.registry.giveBack url).2 := by
  obtain ⟨taken, v, hgive, hclose⟩ := runs_bind.1 h
  rw [(registry_of_runs (all_closeTaken taken) hclose).1, giveBack_runs hgive]

theorem Link.release_runs {l l' : Link} (h : l.release.Runs s l' t) :
    l' = { l with released := true } ∧
      t.registry = if l.released then s.registry else (s.registry.giveBack l.url).2 := by
  unfold Link.release at h
  by_cases hl : l.released
  · rw [if_pos hl] at h ⊢
    obtain ⟨rfl, rfl⟩ := h
    exact ⟨by rw [← hl], rfl⟩
  · rw [if_neg hl] at h ⊢
    obtain ⟨u, v, hrelease, h⟩ := runs_bind.1 h
    obtain ⟨rfl, rfl⟩ := h
    exact ⟨rfl, Modbus.release_runs hrelease⟩

end HomeMetering.Modbus
