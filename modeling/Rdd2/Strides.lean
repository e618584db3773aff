import Mathlib.Algebra.Order.Floor.Div
import Mathlib.Tactic.Common

/-!
# A way in strides

The way from `a` up to `b` in strides of length `p`, the last one cut short
where it would pass `b`. Every stride is written with where it ends. The way
is as long as the distance says (`Way.length_eq`, `Way.sum_eq`), and only its last stop
is `b` itself (`Way.ends`).
-/

namespace Strides

/-- The strides from `a` to `b`, each with where it ends. -/
inductive Way (p b : Nat) : Nat → List (Nat × Nat) → Prop
  | arrived : Way p b b []
  | stride {a : Nat} {rest : List (Nat × Nat)} : a < b → Way p b (a + min p (b - a)) rest →
      Way p b a ((min p (b - a), a + min p (b - a)) :: rest)

variable {p a b : Nat} {way : List (Nat × Nat)}

theorem ceilDiv_stride (hp : 0 < p) (hab : a < b) :
    (b - (a + min p (b - a))) ⌈/⌉ p + 1 = (b - a) ⌈/⌉ p := by
  rw [Nat.ceilDiv_eq_add_pred_div, Nat.ceilDiv_eq_add_pred_div]
  rcases Nat.le_total p (b - a) with h | h
  · rw [Nat.min_eq_left h, ← Nat.add_div_right _ hp]
    congr 1
    omega
  · rw [Nat.min_eq_right h, Nat.add_sub_cancel' hab.le, Nat.sub_self,
      Nat.div_eq_of_lt (show 0 + p - 1 < p by omega)]
    refine (Nat.div_eq_of_lt_le ?_ ?_).symm <;> omega

theorem Way.length_eq (hp : 0 < p) (h : Way p b a way) : way.length = (b - a) ⌈/⌉ p := by
  induction h with
  | arrived => simp
  | stride hab _ ih => rw [List.length_cons, ih, ceilDiv_stride hp hab]

theorem Way.nil_of_ge (h : Way p b a way) (hab : b ≤ a) : way = [] := by
  cases h with
  | arrived => rfl
  | stride hlt _ => exact absurd hlt (Nat.not_lt.mpr hab)

theorem Way.sum_eq (h : Way p b a way) : (way.map Prod.fst).sum = b - a := by
  induction h with
  | arrived => simp
  | stride hab _ ih =>
      rw [List.map_cons, List.sum_cons, ih]
      omega

theorem Way.stride_le (hp : 0 < p) (h : Way p b a way) : ∀ x ∈ way, 0 < x.1 ∧ x.1 ≤ p := by
  induction h with
  | arrived => simp
  | stride hab _ ih =>
      rw [List.forall_mem_cons]
      refine ⟨?_, ih⟩
      dsimp only
      omega

/-- The way ends at `b`, and no earlier stop is as far. -/
theorem Way.ends (h : Way p b a way) (hab : a < b) :
    ∃ front last, way = front ++ [last] ∧ last.2 = b ∧ ∀ x ∈ front, x.2 < b := by
  induction h with
  | arrived => exact absurd hab (Nat.lt_irrefl b)
  | @stride a rest hlt hrest ih =>
      rcases Nat.lt_or_ge (a + min p (b - a)) b with hshort | hthere
      · obtain ⟨front, last, rfl, hlast, hfront⟩ := ih hshort
        refine ⟨_ :: front, last, rfl, hlast, ?_⟩
        exact List.forall_mem_cons.mpr ⟨hshort, hfront⟩
      · refine ⟨[], _, by rw [hrest.nil_of_ge hthere]; rfl, ?_, by simp⟩
        dsimp only
        omega

end Strides
