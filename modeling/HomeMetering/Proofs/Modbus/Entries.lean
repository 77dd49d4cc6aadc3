import HomeMetering.Proofs.Modbus.Registry
import HomeMetering.Proofs.Site.Books

/-!
# Whose entry a request changes

The registry keeps one entry for each address, and a request changes that of one address at most.
-/

namespace HomeMetering.Site

open Modbus

/-- The address whose entry a request may change. -/
def Request.entry? : Request → Option String
  | .adopt url _ | .evict url | .lease url | .giveBack url => some url
  | _ => none

theorem find?_answer_of_ne (s : Site) {q : Request} {u : String} (h : q.entry? ≠ some u) :
    (s.answer q).2.registry.find? u = s.registry.find? u := by
  have hsame : q.LeavesRegistry → (s.answer q).2.registry.find? u = s.registry.find? u :=
    fun hq => congrArg (Registry.find? · u) (registry_answer s q hq)
  have herase : ∀ url, u ≠ url → (s.registry.erase url).find? u = s.registry.find? u := by
    intro url hu
    rw [Registry.find?_erase, if_neg hu]
  have hput : ∀ url shared, u ≠ url →
      (s.registry.put url shared).find? u = s.registry.find? u := by
    intro url shared hu
    rw [Registry.find?_put, if_neg hu]
  cases q with
  | adopt url client =>
    have hu : u ≠ url := fun heq => h (congrArg some heq.symm)
    show (s.registry.adopt url client).2.find? u = _
    rcases s.registry.adopt_cases url client with ⟨winner, hadopt⟩ | ⟨-, hadopt⟩
    · rw [hadopt]
    · rw [hadopt, hput _ _ hu]
  | evict url =>
    have hu : u ≠ url := fun heq => h (congrArg some heq.symm)
    show (s.registry.evict url).2.find? u = _
    rcases s.registry.evict_cases url with ⟨client, -, hevict⟩ | ⟨-, hevict⟩
    · rw [hevict, herase _ hu]
    · rw [hevict]
  | lease url =>
    have hu : u ≠ url := fun heq => h (congrArg some heq.symm)
    show (s.registry.lease url).find? u = _
    rcases s.registry.lease_cases url with ⟨client, users, -, hlease⟩ | ⟨-, hlease⟩
    · rw [hlease, hput _ _ hu]
    · rw [hlease]
  | giveBack url =>
    have hu : u ≠ url := fun heq => h (congrArg some heq.symm)
    show (s.registry.giveBack url).2.find? u = _
    rcases s.registry.giveBack_cases url with ⟨client, users, -, -, hgive⟩ |
      ⟨client, users, -, -, hgive⟩ | ⟨-, hgive⟩
    · rw [hgive, herase _ hu]
    · rw [hgive, hput _ _ hu]
    · rw [hgive]
  | _ => exact hsame trivial

end HomeMetering.Site
