import HomeMetering.Quantity
import Mathlib.Algebra.BigOperators.Group.List.Basic
import Mathlib.Algebra.Order.Ring.Rat

/-!
# Exact quantities

What the operations of a quantity are where quantities are fractions: those of fractions.
-/

namespace HomeMetering.Quantity

@[simp]
theorem rat_isZero (a : Rat) : isZero a = true ↔ a = 0 := by
  show decide (a.num = 0) = true ↔ a = 0
  rw [decide_eq_true_iff, Rat.num_eq_zero]

@[simp]
theorem rat_less (a b : Rat) : less a b = true ↔ a < b := Iff.rfl

theorem rat_total (xs : List Rat) : total xs = xs.sum := by
  have hfold : ∀ a : Rat, xs.foldl (· + ·) a = a + xs.sum := by
    induction xs with
    | nil =>
      intro a
      exact (add_zero a).symm
    | cons x xs ih =>
      intro a
      rw [List.foldl_cons, ih, List.sum_cons, add_assoc]
  exact (hfold 0).trans (zero_add _)

end HomeMetering.Quantity
