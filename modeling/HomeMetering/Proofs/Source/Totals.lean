import HomeMetering.Proofs.Meter.Counting
import HomeMetering.Proofs.Quantity
import HomeMetering.Proofs.Source.Merging
import Mathlib.Algebra.BigOperators.Group.List.Lemmas

/-!
# The total of a source

Where no cell is claimed twice, the energy that the merged readings say was consumed is the sum of
what the meters contribute, whether one of them sets the totals or each has lines of its own.
-/

namespace HomeMetering

open Electricity Modbus Site Site.Job

namespace Meter

theorem sum_map_of_only {α : Type} {before after : List α} {a : α} {f : α → Rat}
    (h : ∀ b ∈ before ++ after, f b = 0) : ((before ++ a :: after).map f).sum = f a := by
  have hbefore : (before.map f).sum = 0 := List.sum_eq_zero fun x hx => by
    obtain ⟨b, hb, rfl⟩ := List.mem_map.1 hx
    exact h b (List.mem_append_left _ hb)
  have hafter : (after.map f).sum = 0 := List.sum_eq_zero fun x hx => by
    obtain ⟨b, hb, rfl⟩ := List.mem_map.1 hx
    exact h b (List.mem_append_right _ hb)
  rw [List.map_append, List.map_cons, List.sum_append, List.sum_cons, hbefore, hafter, zero_add,
    add_zero]

/-- The counter of a line, zero for one that does not exist. -/
def consumedAt (line : LineIndex) (r : Readings Rat) : Rat := (r.usage.consumed.get? line).getD 0

theorem consumedAt_eq {r r' : Readings Rat} {line : LineIndex}
    (h : r.cell .usage line = r'.cell .usage line) : consumedAt line r = consumedAt line r' := by
  unfold consumedAt
  rw [(Prod.mk.inj (Readings.Cell.usage.inj h)).1]

theorem totalConsumed_of_unset {r : Readings Rat} (h : r.totals = (Quantity.zero, Quantity.zero)) :
    r.usage.totalConsumed = consumedAt 0 r + consumedAt 1 r + consumedAt 2 r := by
  have hset : r.usage.setConsumed = 0 := (Prod.mk.inj h).1
  have hzero : Quantity.isZero (0 : Rat) = true := (Quantity.rat_isZero 0).2 rfl
  unfold Usage.totalConsumed Usage.totalOr
  rw [hset, if_pos hzero, Quantity.rat_total]
  simp [PerLine.toList, consumedAt, PerLine.get?, add_assoc]

theorem totalConsumed_zero : (Readings.zero : Readings Rat).usage.totalConsumed = 0 := by
  decide +kernel

variable {ms : List (Meter Rat)}

theorem share_eq_zero {m : Meter Rat} (hm : m.FeedsLines)
    (h : ∀ line < lineCount, (Attribute.usage, line) ∉ m.setup.claims) : m.share = 0 := by
  have husage : (m.write .zero).usage = (Readings.zero : Readings Rat).usage :=
    Readings.usage_eq (fun line hline => cell_write hm (h line hline))
      (totals_write hm fun hall => h 0 (by decide) (hall 0 (by decide)))
  unfold share
  rw [husage, totalConsumed_zero]

theorem consumedAt_writeAll (hfeeds : ∀ m ∈ ms, m.FeedsLines)
    (hclaims : (ms.flatMap fun m => m.setup.claims).Nodup) (line : LineIndex) :
    consumedAt line (writeAll ms .zero) =
      (ms.map fun m => consumedAt line (m.write .zero)).sum := by
  have hmerges := merges_writeAll hfeeds hclaims
  have hfresh : consumedAt line (.zero : Readings Rat) = 0 := by
    rcases line with _ | _ | _ | line <;> rfl
  have hnothing : ∀ m ∈ ms, (Attribute.usage, line) ∉ m.setup.claims →
      consumedAt line (m.write .zero) = 0 := fun m hm hclaim =>
    (consumedAt_eq (cell_write (hfeeds m hm) hclaim)).trans hfresh
  by_cases hclaim : ∃ m ∈ ms, (Attribute.usage, line) ∈ m.setup.claims
  · obtain ⟨m, hm, hclaim⟩ := hclaim
    rw [consumedAt_eq (hmerges.claimed m hm _ _ hclaim)]
    obtain ⟨before, after, rfl⟩ := List.append_of_mem hm
    exact (sum_map_of_only (f := fun m : Meter Rat => consumedAt line (m.write .zero))
      fun m' hm' => hnothing m' (by grind) (unclaimed_by_others hclaims hclaim m' hm')).symm
  · simp only [not_exists, not_and] at hclaim
    rw [consumedAt_eq (hmerges.unclaimed _ _ hclaim), hfresh]
    refine (List.sum_eq_zero fun x hx => ?_).symm
    obtain ⟨m, hm, rfl⟩ := List.mem_map.1 hx
    exact hnothing m hm (hclaim m hm)

/-- The merged total is the sum of what the meters contribute. -/
theorem totalConsumed_writeAll (hfeeds : ∀ m ∈ ms, m.FeedsLines)
    (hclaims : (ms.flatMap fun m => m.setup.claims).Nodup) :
    (writeAll ms .zero).usage.totalConsumed = (ms.map share).sum := by
  have hmerges := merges_writeAll hfeeds hclaims
  by_cases hclaim : ∃ m ∈ ms, m.setup.ClaimsTotals
  · -- Whoever sets the totals has every line, and the others have no counter.
    obtain ⟨m, hm, hclaim⟩ := hclaim
    have husage : (writeAll ms .zero).usage = (m.write .zero).usage :=
      Readings.usage_eq (fun line hline => hmerges.claimed m hm _ _ (hclaim line hline))
        (hmerges.totals m hm hclaim)
    rw [husage]
    obtain ⟨before, after, rfl⟩ := List.append_of_mem hm
    refine (sum_map_of_only (f := share) fun m' hm' => ?_).symm
    refine share_eq_zero (hfeeds m' (by grind)) fun line hline => ?_
    exact unclaimed_by_others hclaims (hclaim line hline) m' hm'
  · simp only [not_exists, not_and] at hclaim
    have hshare : ∀ m ∈ ms, m.share = consumedAt 0 (m.write .zero) +
        consumedAt 1 (m.write .zero) + consumedAt 2 (m.write .zero) := fun m hm =>
      totalConsumed_of_unset (totals_write (hfeeds m hm) (hclaim m hm))
    rw [totalConsumed_of_unset (hmerges.unset hclaim), List.map_congr_left hshare,
      List.sum_map_add, List.sum_map_add, consumedAt_writeAll hfeeds hclaims,
      consumedAt_writeAll hfeeds hclaims, consumedAt_writeAll hfeeds hclaims]

end Meter

end HomeMetering
