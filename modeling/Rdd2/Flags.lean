import Rdd2.Loops

/-!
# Words of flags

A machine word as the set of its flags: `has x i` tests flag `i`, `bit i` is
the word with that flag alone, and `ofIndices` collects a family of them the
way a loop with `|=` does. The words are only ever looked at through `has`.
-/

namespace Flags

variable {w : Nat}

def has (x : BitVec w) (i : Fin w) : Bool := x.getLsbD i

def bit (i : Fin w) : BitVec w := 1#w <<< i.val

theorem ext {x y : BitVec w} (h : ∀ i, has x i = has y i) : x = y :=
  BitVec.eq_of_getLsbD_eq fun i hi => h ⟨i, hi⟩

@[simp] theorem has_zero (i : Fin w) : has (0#w) i = false := BitVec.getLsbD_zero

@[simp] theorem has_or (x y : BitVec w) (i : Fin w) : has (x ||| y) i = (has x i || has y i) :=
  BitVec.getLsbD_or

@[simp] theorem has_and (x y : BitVec w) (i : Fin w) : has (x &&& y) i = (has x i && has y i) :=
  BitVec.getLsbD_and

@[simp] theorem has_not (x : BitVec w) (i : Fin w) : has (~~~x) i = !has x i := by
  simp [has]

@[simp] theorem has_bit (i j : Fin w) : has (bit i) j = decide (i = j) := by
  unfold has bit
  rw [← BitVec.twoPow_eq, BitVec.getLsbD_twoPow]
  simp [Fin.ext_iff]

theorem and_ne_zero {x y : BitVec w} : x &&& y ≠ 0 ↔ ∃ i, has x i = true ∧ has y i = true := by
  constructor
  · intro hne
    by_contra hnone
    refine hne (ext fun i => ?_)
    have hi : ¬ (has x i = true ∧ has y i = true) := fun h => hnone ⟨i, h⟩
    simpa using hi
  · rintro ⟨i, hx, hy⟩ hzero
    have hi : has (x &&& y) i = true := by rw [has_and, hx, hy]; rfl
    simp [hzero] at hi

theorem and_bit_ne_zero {x : BitVec w} {i : Fin w} : x &&& bit i ≠ 0 ↔ has x i = true := by
  rw [and_ne_zero]
  constructor
  · rintro ⟨j, hj, hi⟩
    rw [has_bit, decide_eq_true_eq] at hi
    exact hi ▸ hj
  · intro h
    exact ⟨i, h, by simp⟩

def ofIndices {n : Nat} (index : Fin n → Fin w) : BitVec w :=
  Fin.foldl n (fun mask c => mask ||| bit (index c)) 0

theorem has_ofIndices {n : Nat} {index : Fin n → Fin w} {i : Fin w} :
    has (ofIndices index) i = true ↔ ∃ c, index c = i := by
  have hloop := Loops.foldl_inv (P := fun k mask => has mask i = true ↔ ∃ c, c.val < k ∧ index c = i)
    (d := 0) (fun mask c => mask ||| bit (index c)) (by simp) (by
      intro c mask h
      rw [has_or, has_bit, Bool.or_eq_true, h, decide_eq_true_eq]
      constructor
      · rintro (⟨k, hk, hi⟩ | hi)
        · exact ⟨k, by omega, hi⟩
        · exact ⟨c, by omega, hi⟩
      · rintro ⟨k, hk, hi⟩
        rcases Nat.lt_succ_iff_lt_or_eq.mp hk with hk | hk
        · exact Or.inl ⟨k, hk, hi⟩
        · exact Or.inr (Fin.ext hk ▸ hi))
  refine hloop.trans ?_
  constructor
  · rintro ⟨c, -, hi⟩
    exact ⟨c, hi⟩
  · rintro ⟨c, hi⟩
    exact ⟨c, c.isLt, hi⟩

end Flags
