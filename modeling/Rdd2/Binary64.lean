import Mathlib.Algebra.Group.Nat.Defs
import Mathlib.Tactic.Common

/-!
# Comparing binary64 values

A binary64 value by its bits, and its order. Every finite value is a multiple
of the least positive one, and `value` counts in that unit; an infinity
counts as what the next power of two would, beyond everything finite. So
comparing values is comparing integers, once the NaNs are set apart: a NaN
compares with nothing, and `≤` denies `<` the other way round exactly where
neither side is one (`le_eq_not_lt`).
-/

/-- A binary64 value: a sign bit, 11 bits of exponent, 52 of fraction. -/
structure Binary64 where
  bits : UInt64
  deriving DecidableEq, Repr

namespace Binary64

/-! ## Fields -/

def negative (x : Binary64) : Bool := decide (2 ^ 63 ≤ x.bits.toNat)

def exponent (x : Binary64) : Nat := x.bits.toNat / 2 ^ 52 % 2 ^ 11

def fraction (x : Binary64) : Nat := x.bits.toNat % 2 ^ 52

def IsNan (x : Binary64) : Prop := x.exponent = 2047 ∧ x.fraction ≠ 0

def IsInfinite (x : Binary64) : Prop := x.exponent = 2047 ∧ x.fraction = 0

instance (x : Binary64) : Decidable x.IsNan := inferInstanceAs (Decidable (_ ∧ _))

instance (x : Binary64) : Decidable x.IsInfinite := inferInstanceAs (Decidable (_ ∧ _))

/-! ## Order -/

/-- The magnitude in units of `2 ^ (-1074)`. -/
def magnitude (x : Binary64) : Nat :=
  if x.exponent = 0 then x.fraction else (2 ^ 52 + x.fraction) * 2 ^ (x.exponent - 1)

/-- The value in units of `2 ^ (-1074)`. Both zeros are zero. -/
def value (x : Binary64) : Int := if x.negative then -x.magnitude else x.magnitude

def lt (x y : Binary64) : Bool := decide (¬ x.IsNan ∧ ¬ y.IsNan ∧ x.value < y.value)

def le (x y : Binary64) : Bool := decide (¬ x.IsNan ∧ ¬ y.IsNan ∧ x.value ≤ y.value)

def abs (x : Binary64) : Binary64 := ⟨UInt64.ofNat (x.bits.toNat % 2 ^ 63)⟩

theorem abs_toNat (x : Binary64) : x.abs.bits.toNat = x.bits.toNat % 2 ^ 63 := by
  refine UInt64.toNat_ofNat_of_lt' ?_
  have := Nat.mod_lt x.bits.toNat (Nat.two_pow_pos 63)
  simp only [UInt64.size]
  omega

theorem abs_isNan (x : Binary64) : x.abs.IsNan ↔ x.IsNan := by
  have hexponent : x.abs.exponent = x.exponent := by
    rw [exponent, abs_toNat, exponent]
    omega
  have hfraction : x.abs.fraction = x.fraction := by
    rw [fraction, abs_toNat, fraction]
    omega
  rw [IsNan, IsNan, hexponent, hfraction]

/-- The two comparisons exclude one another. -/
theorem not_lt_of_le {x y : Binary64} (h : le x y = true) : lt y x = false := by
  simp only [le, lt, decide_eq_true_eq, decide_eq_false_iff_not] at h ⊢
  rintro ⟨-, -, hlt⟩
  omega

theorem le_eq_not_lt (x y : Binary64) :
    le x y = !lt y x ↔ ¬ x.IsNan ∧ ¬ y.IsNan := by
  by_cases hx : x.IsNan
  · simp [le, lt, hx]
  · by_cases hy : y.IsNan
    · simp [le, lt, hy]
    · simp only [le, lt, hx, hy, not_false_eq_true, true_and, and_self, iff_true]
      by_cases hle : x.value ≤ y.value
      · have hlt : ¬ y.value < x.value := by omega
        simp [hle, hlt]
      · have hlt : y.value < x.value := by omega
        simp [hle, hlt]

/-! ## Maximum -/

/-- The greater one; of a NaN and something else, the other. -/
def max (x y : Binary64) : Binary64 :=
  if x.IsNan then y else if y.IsNan then x else if lt x y then y else x

/-- What a number reaches, and with it every greater one, the maximum reaches if one of
the two does. -/
theorem reached_max {reached : Binary64 → Bool} (hnan : ∀ x, x.IsNan → reached x = false)
    (hmono : ∀ x y, ¬ x.IsNan → ¬ y.IsNan → x.value ≤ y.value → reached x = true →
      reached y = true) (x y : Binary64) : reached (max x y) = (reached x || reached y) := by
  unfold max
  by_cases hx : x.IsNan
  · rw [if_pos hx, hnan x hx, Bool.false_or]
  · by_cases hy : y.IsNan
    · rw [if_neg hx, if_pos hy, hnan y hy, Bool.or_false]
    · rw [if_neg hx, if_neg hy]
      by_cases hlt : x.value < y.value
      · have hup := hmono x y hx hy (by omega)
        simpa [lt, hx, hy, hlt] using hup
      · have hup := hmono y x hy hx (by omega)
        simpa [lt, hx, hy, hlt] using hup

theorem lt_max (c x y : Binary64) : lt c (max x y) = (lt c x || lt c y) := by
  refine reached_max (fun x hx => by simp [lt, hx]) (fun x y _ hy hle hreached => ?_) x y
  simp only [lt, decide_eq_true_eq] at hreached ⊢
  exact ⟨hreached.1, hy, by omega⟩

theorem le_max (c x y : Binary64) : le c (max x y) = (le c x || le c y) := by
  refine reached_max (fun x hx => by simp [le, hx]) (fun x y _ hy hle hreached => ?_) x y
  simp only [le, decide_eq_true_eq] at hreached ⊢
  exact ⟨hreached.1, hy, by omega⟩

theorem max_not_isNan {x : Binary64} (h : ¬ x.IsNan) (y : Binary64) : ¬ (max x y).IsNan := by
  unfold max
  rw [if_neg h]
  split
  · exact h
  · split <;> assumption

/-- A maximum kept from a start that is a number over values some of which may be NaN. -/
structure MaxOver (start m : Binary64) (values : List Binary64) : Prop where
  number : ¬ m.IsNan
  lt_iff : ∀ c, lt c m = true ↔ lt c start = true ∨ ∃ v ∈ values, lt c v = true
  le_iff : ∀ c, le c m = true ↔ le c start = true ∨ ∃ v ∈ values, le c v = true

theorem MaxOver.nil {start : Binary64} (h : ¬ start.IsNan) : MaxOver start start [] where
  number := h
  lt_iff _ := by simp
  le_iff _ := by simp

theorem MaxOver.concat {start m : Binary64} {values : List Binary64} (h : MaxOver start m values)
    (v : Binary64) : MaxOver start (max m v) (values ++ [v]) where
  number := max_not_isNan h.number v
  lt_iff c := by
    rw [lt_max, Bool.or_eq_true, h.lt_iff, or_assoc]
    simp only [List.mem_append, List.mem_singleton, or_and_right, exists_or, exists_eq_left]
  le_iff c := by
    rw [le_max, Bool.or_eq_true, h.le_iff, or_assoc]
    simp only [List.mem_append, List.mem_singleton, or_and_right, exists_or, exists_eq_left]

end Binary64
