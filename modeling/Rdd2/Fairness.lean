import Rdd2.Guarded

/-!
# Fair schedules

Threads under a scheduler that goes on for ever: a schedule names the event that is attempted
next, and an event that cannot happen, of a thread that is blocked, leaves the state as it is.
What a fair schedule comes to in the end is proved by a rank (`Approach`): the events of one
thread bring the goal nearer, and no event takes it further away.
-/

namespace Fairness

open Guarded

variable {S A : Type*} (step : S → A → Option S)

def stateAt (start : S) (schedule : Nat → A) : Nat → S
  | 0 => start
  | k + 1 => attempt step (stateAt start schedule k) (schedule k)

/-- Such events are attempted again and again. -/
def Recurs (schedule : Nat → A) (helpful : A → Prop) : Prop :=
  ∀ k, ∃ later, k ≤ later ∧ helpful (schedule later)

theorem stateAt_inv {P : S → Prop} {allowed : S → A → Prop}
    (hstep : ∀ s a t, allowed s a → P s → step s a = some t → P t) {start : S}
    {schedule : Nat → A} (hallowed : ∀ k, allowed (stateAt step start schedule k) (schedule k))
    (hstart : P start) (k : Nat) : P (stateAt step start schedule k) := by
  induction k with
  | zero => exact hstart
  | succ k ih =>
      rw [stateAt]
      rcases attempt_cases step (stateAt step start schedule k) (schedule k) with hsame | hmoved
      · rw [hsame]
        exact ih
      · exact hstep _ _ _ (hallowed k) ih hmoved

/-- From `P` the helpful events go on to `Q` or down in rank, and the others no further away. -/
structure Approach (allowed : S → A → Prop) (helpful : A → Prop) (P Q : S → Prop)
    (rank : S → Nat) : Prop where
  keeps : ∀ s a, allowed s a → P s →
    Q (attempt step s a) ∨ (P (attempt step s a) ∧ rank (attempt step s a) ≤ rank s)
  helps : ∀ s a, allowed s a → P s → helpful a →
    Q (attempt step s a) ∨ (P (attempt step s a) ∧ rank (attempt step s a) < rank s)

variable {step} {allowed : S → A → Prop} {helpful : A → Prop} {P Q : S → Prop} {rank : S → Nat}
  {start : S} {schedule : Nat → A}

/-- It is enough to look at the helpful events and at the others. -/
theorem Approach.of_threads
    (hhelps : ∀ s a, allowed s a → P s → helpful a →
      Q (attempt step s a) ∨ (P (attempt step s a) ∧ rank (attempt step s a) < rank s))
    (hothers : ∀ s a, allowed s a → P s → ¬ helpful a →
      P (attempt step s a) ∧ rank (attempt step s a) ≤ rank s) :
    Approach step allowed helpful P Q rank := by
  refine ⟨fun s a hallowed hp => ?_, hhelps⟩
  by_cases hhelpful : helpful a
  · rcases hhelps s a hallowed hp hhelpful with hq | ⟨hp', hlt⟩
    · exact Or.inl hq
    · exact Or.inr ⟨hp', Nat.le_of_lt hlt⟩
  · exact Or.inr (hothers s a hallowed hp hhelpful)

/-- For some time nothing is lost. -/
theorem Approach.waits (h : Approach step allowed helpful P Q rank)
    (hallowed : ∀ k, allowed (stateAt step start schedule k) (schedule k)) {k : Nat}
    (hk : P (stateAt step start schedule k)) (n : Nat) :
    (∃ later, k < later ∧ Q (stateAt step start schedule later)) ∨
      (P (stateAt step start schedule (k + n)) ∧
        rank (stateAt step start schedule (k + n)) ≤ rank (stateAt step start schedule k)) := by
  induction n with
  | zero => exact Or.inr ⟨hk, Nat.le_refl _⟩
  | succ n ih =>
      rcases ih with hthere | ⟨hp, hle⟩
      · exact Or.inl hthere
      · rcases h.keeps _ _ (hallowed (k + n)) hp with hq | ⟨hp', hle'⟩
        · exact Or.inl ⟨k + n + 1, by omega, hq⟩
        · exact Or.inr ⟨hp', Nat.le_trans hle' hle⟩

/-- A fair schedule gets there. -/
theorem Approach.arrives (h : Approach step allowed helpful P Q rank)
    (hallowed : ∀ k, allowed (stateAt step start schedule k) (schedule k))
    (hfair : Recurs schedule helpful) {k : Nat} (hk : P (stateAt step start schedule k)) :
    ∃ later, k < later ∧ Q (stateAt step start schedule later) := by
  -- by the rank, from one helpful event to the next
  induction hr : rank (stateAt step start schedule k) using Nat.strongRecOn generalizing k with
  | ind r ih =>
      subst hr
      obtain ⟨next, hnext, hhelpful⟩ := hfair k
      obtain ⟨n, rfl⟩ := Nat.exists_eq_add_of_le hnext
      rcases h.waits hallowed hk n with hthere | ⟨hp, hle⟩
      · exact hthere
      · rcases h.helps _ _ (hallowed (k + n)) hp hhelpful with hq | ⟨hp', hlt⟩
        · exact ⟨k + n + 1, by omega, hq⟩
        · obtain ⟨later, hlater, hq⟩ := ih _ (Nat.lt_of_lt_of_le hlt hle)
            (show P (stateAt step start schedule (k + n + 1)) from hp') rfl
          exact ⟨later, by omega, hq⟩

end Fairness
