import Mathlib.Algebra.BigOperators.Group.List.Basic
import Mathlib.Algebra.Order.BigOperators.Group.List
import Mathlib.Algebra.Order.Ring.Defs
import Mathlib.Algebra.CharZero.Defs
import Mathlib.Tactic.Ring
import Mathlib.Tactic.LinearCombination

/-!
# Mean and variance of a list

The two-pass definitions, and how they change when a value comes in: the mean
moves by its share of the distance (`mean_concat`), and the sum of the squared
deviations grows by the product of the distances before and after
(`deviations_concat`). The second is the parallel axis identity
(`sum_sq_sub`), taken at the new mean.
-/

namespace Moments

variable {K : Type*} [Field K]

def mean (xs : List K) : K := xs.sum / xs.length

/-- The sum of the squared deviations from the mean. -/
def deviations (xs : List K) : K := (xs.map fun x => (x - mean xs) ^ 2).sum

/-- The population variance. -/
def variance (xs : List K) : K := deviations xs / xs.length

theorem deviations_nonneg [LinearOrder K] [IsStrictOrderedRing K] (xs : List K) :
    0 ≤ deviations xs := by
  refine List.sum_nonneg fun y hy => ?_
  obtain ⟨x, -, rfl⟩ := List.mem_map.mp hy
  exact sq_nonneg _

theorem variance_nonneg [LinearOrder K] [IsStrictOrderedRing K] (xs : List K) :
    0 ≤ variance xs :=
  div_nonneg (deviations_nonneg xs) (Nat.cast_nonneg _)

variable [CharZero K]

theorem length_mul_mean (xs : List K) : xs.length * mean xs = xs.sum := by
  cases xs with
  | nil => simp
  | cons x xs => exact mul_div_cancel₀ _ (Nat.cast_ne_zero.mpr (Nat.succ_ne_zero _))

theorem mean_concat (xs : List K) (x : K) :
    mean (xs ++ [x]) = mean xs + (x - mean xs) / ((xs.length + 1 : Nat) : K) := by
  have hsum := length_mul_mean xs
  have hlength : ((xs.length + 1 : Nat) : K) ≠ 0 := Nat.cast_ne_zero.mpr (Nat.succ_ne_zero _)
  rw [mean, List.sum_append, List.sum_singleton, List.length_append, List.length_singleton,
    eq_comm, eq_div_iff hlength, add_mul, div_mul_cancel₀ _ hlength]
  push_cast
  linear_combination hsum

/-- The squared distances from any point are the deviations and the distance of
the mean. -/
theorem sum_sq_sub (xs : List K) (c : K) :
    (xs.map fun x => (x - c) ^ 2).sum = deviations xs + xs.length * (mean xs - c) ^ 2 := by
  have hexpand : ∀ (d : K) (ys : List K), (ys.map fun x => (x - d) ^ 2).sum
      = (ys.map fun x => x ^ 2).sum - 2 * d * ys.sum + ys.length * d ^ 2 := by
    intro d ys
    induction ys with
    | nil => simp
    | cons y ys ih =>
        simp only [List.map_cons, List.sum_cons, List.length_cons, Nat.cast_add, Nat.cast_one, ih]
        ring
  have hsum := length_mul_mean xs
  rw [deviations, hexpand, hexpand]
  linear_combination (2 * c - 2 * mean xs) * hsum

/-- A value adds the product of its distances from the mean before and after. -/
theorem deviations_concat (xs : List K) (x : K) :
    deviations (xs ++ [x]) = deviations xs + (x - mean xs) * (x - mean (xs ++ [x])) := by
  have hsum := length_mul_mean xs
  have hlater := length_mul_mean (xs ++ [x])
  simp only [List.sum_append, List.sum_singleton, List.length_append, List.length_singleton,
    Nat.cast_add, Nat.cast_one] at hlater
  rw [deviations, List.map_append, List.sum_append, sum_sq_sub, List.map_singleton,
    List.sum_singleton]
  linear_combination (mean (xs ++ [x]) - mean xs) * (hlater - hsum)

end Moments
