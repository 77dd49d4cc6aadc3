import HomeMetering.Proofs.Config.Legal
import HomeMetering.Proofs.Meter.Writing

/-!
# No cell is claimed twice

What a configuration without faults promises of the slots of a source: unless it is a battery, no
attribute of a line is claimed twice, by two slots or by one.
-/

namespace HomeMetering

theorem SlotConfig.lines_lt {slot : SlotConfig} {role : Role} (h : slot.fault? role = none) :
    ∀ line ∈ slot.lines, line < lineCount :=
  (fault?_eq_none.1 h).lines_lt

namespace SourceConfig

theorem nodup_claims {s : SourceConfig} (h : s.fault? = none) (hrole : s.role ≠ .battery) :
    (s.meters.flatMap SlotConfig.claims).Nodup :=
  (fault?_eq_none.1 h).nodup_claims hrole

/-- The setups of the slots, as their meters are told. -/
def setups (s : SourceConfig) : List Setup := s.meters.map fun slot => (slot.slot s.role).setup

/-- Meters that were found in slots of the source, each slot holding at most one, in any order. -/
def Holds {K : Type} (s : SourceConfig) (ms : List (Meter K)) : Prop :=
  List.Subperm (ms.map Meter.setup) s.setups ∧ ∀ m ∈ ms, m.IsDevice

theorem Holds.nodup_claims {K : Type} {s : SourceConfig} {ms : List (Meter K)} (h : s.Holds ms)
    (hfault : s.fault? = none) (hrole : s.role ≠ .battery) :
    (ms.flatMap fun m => m.setup.claims).Nodup := by
  have hslots : (s.setups.flatMap Setup.claims).Nodup := by
    rw [setups, List.flatMap_map]
    exact s.nodup_claims hfault hrole
  obtain ⟨found, hperm, hsub⟩ := h.1
  have hfound : (found.flatMap Setup.claims).Nodup := hslots.sublist (hsub.flatMap Setup.claims)
  have hmeters := (hperm.flatMap_right Setup.claims).nodup_iff.1 hfound
  rwa [List.flatMap_map] at hmeters

theorem Holds.lines {K : Type} {s : SourceConfig} {ms : List (Meter K)} (h : s.Holds ms)
    (hfault : s.fault? = none) (hrole : s.role ≠ .battery) {m : Meter K} (hm : m ∈ ms) :
    m.setup.lines ≠ [] ∧ ∀ line ∈ m.setup.lines, line < lineCount := by
  obtain ⟨slot, hslot, heq⟩ := List.mem_map.1 (h.1.subset (List.mem_map_of_mem hm))
  have hlegal := (fault?_eq_none.1 hfault).slots slot hslot
  rw [← heq]
  exact ⟨hlegal.lines_ne hrole, hlegal.lines_lt⟩

theorem Holds.role {K : Type} {s : SourceConfig} {ms : List (Meter K)} (h : s.Holds ms)
    {m : Meter K} (hm : m ∈ ms) : m.setup.role = s.role := by
  obtain ⟨slot, -, heq⟩ := List.mem_map.1 (h.1.subset (List.mem_map_of_mem hm))
  rw [← heq]
  rfl

end SourceConfig

end HomeMetering
