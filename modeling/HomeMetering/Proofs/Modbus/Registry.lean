import HomeMetering.Modbus.Registry
import HomeMetering.Proofs.Lookup
import Mathlib.Data.List.Nodup

/-!
# What the registry's operations do

Each operation changes the entry of one address and leaves the others alone. A client counts once
for every address it is shared under.
-/

namespace HomeMetering.Modbus

/-! ## Entries by address -/

section Entries

variable {entries : List (String × Shared)} {url : String} {shared : Shared}

theorem perm_of_lookup (hkeys : (entries.map Prod.fst).Nodup)
    (h : entries.lookup url = some shared) :
    entries.Perm ((url, shared) :: entries.filter fun e => e.1 != url) := by
  induction entries with
  | nil => cases h
  | cons e es ih =>
    obtain ⟨k, s⟩ := e
    obtain ⟨hnew, hes⟩ := List.nodup_cons.1 hkeys
    rw [lookup_cons] at h
    by_cases hk : url = k
    · subst hk
      have hkeep : ∀ e ∈ es, (e.1 != url) = true := by
        intro e he
        rw [bne_iff_ne]
        rintro rfl
        exact hnew (List.mem_map.2 ⟨_, he, rfl⟩)
      rw [if_pos rfl] at h
      rw [List.filter_cons_of_neg (by simp), List.filter_eq_self.2 hkeep, Option.some.inj h]
    · rw [if_neg hk] at h
      rw [List.filter_cons_of_pos (by simpa using Ne.symm hk)]
      exact ((ih hes h).cons _).trans (List.Perm.swap ..)

end Entries

namespace Registry

variable {r : Registry} {url : String} {c : ClientId}

def WellKeyed (r : Registry) : Prop := (r.entries.map Prod.fst).Nodup

/-- How many addresses a client is shared under. -/
def shares (r : Registry) (c : ClientId) : Nat := r.entries.countP fun e => e.2.client = c

def leases (r : Registry) (url : String) : Nat := ((r.find? url).map Shared.users).getD 0

theorem find?_erase (r : Registry) (url u : String) :
    (r.erase url).find? u = if u = url then none else r.find? u :=
  lookup_filter r.entries url u

theorem find?_put (r : Registry) (url u : String) (shared : Shared) :
    (r.put url shared).find? u = if u = url then some shared else r.find? u :=
  lookup_put r.entries url u shared

theorem erase_of_find?_eq_none (h : r.find? url = none) : r.erase url = r := by
  have hkeep : ∀ e ∈ r.entries, (e.1 != url) = true := by
    intro e he
    have hne := List.lookup_eq_none_iff.1 h e he
    rwa [bne_comm]
  exact congrArg Registry.mk (List.filter_eq_self.2 hkeep)

theorem eq_empty_of_find? (h : ∀ url, r.find? url = none) : r = empty := by
  obtain ⟨entries⟩ := r
  cases entries with
  | nil => rfl
  | cons e es =>
    have hfind : (e :: es).lookup e.1 = none := h e.1
    rw [lookup_cons, if_pos rfl] at hfind
    cases hfind

theorem wellKeyed_erase (h : r.WellKeyed) (url : String) : (r.erase url).WellKeyed :=
  h.sublist (List.filter_sublist.map Prod.fst)

theorem wellKeyed_put (h : r.WellKeyed) (url : String) (shared : Shared) :
    (r.put url shared).WellKeyed := by
  have hnew : url ∉ (r.erase url).entries.map Prod.fst := by simp [erase]
  exact List.nodup_cons.2 ⟨hnew, wellKeyed_erase h url⟩

/-! ## Shared clients -/

theorem shares_put (r : Registry) (url : String) (shared : Shared) (c : ClientId) :
    (r.put url shared).shares c = (r.erase url).shares c + if shared.client = c then 1 else 0 := by
  unfold shares put
  rw [List.countP_cons]
  simp

theorem shares_eq_erase {shared : Shared} (hkeys : r.WellKeyed) (h : r.find? url = some shared)
    (c : ClientId) :
    r.shares c = (r.erase url).shares c + if shared.client = c then 1 else 0 := by
  unfold shares
  rw [(perm_of_lookup hkeys h).countP_eq, List.countP_cons]
  simp [erase]

theorem shares_pos_iff (hkeys : r.WellKeyed) :
    0 < r.shares c ↔ ∃ url, r.cached? url = some c := by
  constructor
  · intro hpos
    obtain ⟨⟨url, shared⟩, hmem, hc⟩ := List.countP_pos_iff.1 hpos
    have hfind : r.find? url = some shared := lookup_of_mem hkeys hmem
    refine ⟨url, ?_⟩
    rw [cached?, hfind]
    simpa using hc
  · rintro ⟨url, hurl⟩
    obtain ⟨shared, hfind, rfl⟩ := Option.map_eq_some_iff.1 hurl
    rw [shares_eq_erase hkeys hfind, if_pos rfl]
    omega

theorem url_unique {u : String} (hkeys : r.WellKeyed) (hone : r.shares c ≤ 1)
    (hurl : r.cached? url = some c) (hu : r.cached? u = some c) : u = url := by
  obtain ⟨shared, hfind, rfl⟩ := Option.map_eq_some_iff.1 hurl
  by_contra hne
  have hrest : 0 < (r.erase url).shares shared.client := by
    rw [shares_pos_iff (wellKeyed_erase hkeys url)]
    refine ⟨u, ?_⟩
    rw [cached?, find?_erase, if_neg hne]
    exact hu
  rw [shares_eq_erase hkeys hfind, if_pos rfl] at hone
  omega

/-! ## Leases -/

theorem leases_put (r : Registry) (url u : String) (shared : Shared) :
    (r.put url shared).leases u = if u = url then shared.users else r.leases u := by
  unfold leases
  rw [find?_put]
  split <;> rfl

theorem leases_erase (r : Registry) (url u : String) :
    (r.erase url).leases u = if u = url then 0 else r.leases u := by
  unfold leases
  rw [find?_erase]
  split <;> rfl

theorem leases_of_find? {shared : Shared} (h : r.find? url = some shared) :
    r.leases url = shared.users := by
  unfold leases
  rw [h]
  rfl

theorem leases_of_none (h : r.find? url = none) : r.leases url = 0 := by
  unfold leases
  rw [h]
  rfl

theorem leases_adopt (r : Registry) (url u : String) (client : ClientId) :
    (r.adopt url client).2.leases u = r.leases u := by
  rcases r.adopt_cases url client with ⟨winner, hadopt⟩ | ⟨hnone, hadopt⟩
  · rw [hadopt]
  · rw [hadopt, leases_put]
    split
    · subst u
      exact (leases_of_none hnone).symm
    · rfl

theorem leases_evict (r : Registry) (url u : String) :
    (r.evict url).2.leases u = r.leases u := by
  rcases r.evict_cases url with ⟨client, hfind, hevict⟩ | ⟨-, hevict⟩
  · rw [hevict, leases_erase]
    split
    · subst u
      exact (leases_of_find? hfind).symm
    · rfl
  · rw [hevict]

theorem leases_lease {shared : Shared} (h : r.find? url = some shared) (u : String) :
    (r.lease url).leases u = r.leases u + if u = url then 1 else 0 := by
  unfold lease
  rw [h, leases_put]
  split
  · subst u
    rw [leases_of_find? h]
  · rfl

theorem leases_giveBack (r : Registry) (url u : String) :
    (r.giveBack url).2.leases u = r.leases u - if u = url then 1 else 0 := by
  rcases r.giveBack_cases url with ⟨client, users, hfind, hlast, hgive⟩ |
    ⟨client, users, hfind, -, hgive⟩ | ⟨hnone, hgive⟩
  · rw [hgive, leases_erase]
    split
    · subst u
      rw [leases_of_find? hfind]
      exact (Nat.sub_eq_zero_of_le hlast).symm
    · rfl
  · rw [hgive, leases_put]
    split
    · subst u
      rw [leases_of_find? hfind]
    · rfl
  · rw [hgive]
    split
    · subst u
      rw [leases_of_none hnone]
    · rfl

/-! ## Clients that stay -/

theorem cached?_lease (r : Registry) (url u : String) :
    (r.lease url).cached? u = r.cached? u := by
  rcases r.lease_cases url with ⟨client, users, hfind, hlease⟩ | ⟨-, hlease⟩
  · rw [hlease, cached?, find?_put]
    split
    · subst u
      rw [cached?, hfind]
      rfl
    · rfl
  · rw [hlease]

theorem cached?_erase_of_leased (h : r.cached? url = some c) {u : String}
    (hleased : 0 < (r.erase u).leases url) : (r.erase u).cached? url = some c := by
  rw [leases_erase] at hleased
  split at hleased
  · omega
  · rename_i hne
    rw [cached?, find?_erase, if_neg hne]
    exact h

theorem cached?_adopt (h : r.cached? url = some c) (u : String) (client : ClientId) :
    (r.adopt u client).2.cached? url = some c := by
  rcases r.adopt_cases u client with ⟨winner, hadopt⟩ | ⟨hnone, hadopt⟩
  · rw [hadopt]
    exact h
  · have hne : url ≠ u := by
      rintro rfl
      rw [cached?, hnone] at h
      cases h
    rw [hadopt, cached?, find?_put, if_neg hne]
    exact h

theorem cached?_evict_of_leased (h : r.cached? url = some c) {u : String}
    (hleased : 0 < (r.evict u).2.leases url) : (r.evict u).2.cached? url = some c := by
  rcases r.evict_cases u with ⟨client, -, hevict⟩ | ⟨-, hevict⟩
  · rw [hevict] at hleased ⊢
    exact cached?_erase_of_leased h hleased
  · rw [hevict]
    exact h

theorem cached?_giveBack_of_leased (h : r.cached? url = some c) {u : String}
    (hleased : 0 < (r.giveBack u).2.leases url) : (r.giveBack u).2.cached? url = some c := by
  rcases r.giveBack_cases u with ⟨client, users, -, -, hgive⟩ |
    ⟨client, users, hfind, -, hgive⟩ | ⟨-, hgive⟩
  · rw [hgive] at hleased ⊢
    exact cached?_erase_of_leased h hleased
  · rw [hgive, cached?, find?_put]
    split
    · subst url
      rw [cached?, hfind] at h
      exact h
    · exact h
  · rw [hgive]
    exact h

end Registry

end HomeMetering.Modbus
