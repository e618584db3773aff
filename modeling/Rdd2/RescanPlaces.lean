import Rdd2.Rescan

/-!
# Where a scan decides

`scan` reports frames and faults in order but not where in the stream they
were found. `decisions` keeps the place with every verdict. Its frames and
faults are those of the scan (`decisions_frames`, `decisions_faults`), each
verdict is the recogniser's at its place (`mem_decisions`), and no place of
the stream goes missing: it is decided, passed over by the decision of an
earlier one, or part of what is still in progress (`decisions_cover`).
-/

namespace Rescan

variable {α φ ε : Type}

namespace Verdict

/-- How many symbols a decision takes off the stream. -/
def size : Verdict φ ε → Nat
  | .more => 0
  | .accept _ n => n
  | .reject _ k => k

def frame? : Verdict φ ε → Option φ
  | .accept f _ => some f
  | _ => none

def fault? : Verdict φ ε → Option ε
  | .reject e _ => e
  | _ => none

end Verdict

variable (R : Recogniser α φ ε)

/-- What the scan of `w` decides and where, `w` being at place `p` of the
stream. -/
def decisions (p : Nat) (w : List α) : List (Nat × Verdict φ ε) :=
  match _h : R.judge w with
  | .more => []
  | .accept f n => (p, .accept f n) :: decisions (p + n) (w.drop n)
  | .reject e k => (p, .reject e k) :: decisions (p + k) (w.drop k)
  termination_by w.length
  decreasing_by
    · have := R.accept_pos _h
      have := R.accept_le _h
      simp only [List.length_drop]
      omega
    · have := R.reject_pos _h
      have := R.reject_le _h
      simp only [List.length_drop]
      omega

theorem decided_size {w : List α} (h : R.judge w ≠ .more) :
    0 < (R.judge w).size ∧ (R.judge w).size ≤ w.length := by
  cases hj : R.judge w with
  | more => exact absurd hj h
  | accept f n => exact ⟨R.accept_pos hj, R.accept_le hj⟩
  | reject e k => exact ⟨R.reject_pos hj, R.reject_le hj⟩

/-- Induction along the decisions, accepted or rejected alike. -/
theorem decided_induction {motive : List α → Prop}
    (more : ∀ w, R.judge w = .more → motive w)
    (decided : ∀ w, R.judge w ≠ .more → motive (w.drop (R.judge w).size) → motive w) :
    ∀ w, motive w := by
  intro w
  induction w using scan_induction R with
  | more w h => exact more w h
  | accept w f n h ih => exact decided w (by simp [h]) (by rw [h]; exact ih)
  | reject w e k h ih => exact decided w (by simp [h]) (by rw [h]; exact ih)

theorem decisions_of_more {p : Nat} {w : List α} (h : R.judge w = .more) :
    decisions R p w = [] := by
  rw [decisions]
  split <;> simp_all

theorem decisions_of_decided {p : Nat} {w : List α} (h : R.judge w ≠ .more) :
    decisions R p w
      = (p, R.judge w) :: decisions R (p + (R.judge w).size) (w.drop (R.judge w).size) := by
  rw [decisions]
  split
  · rename_i hj
    exact absurd hj h
  · rename_i f n hj
    rw [hj]
    rfl
  · rename_i e k hj
    rw [hj]
    rfl

theorem scan_of_decided {w : List α} (h : R.judge w ≠ .more) :
    scan R w = Out.andThen ⟨(R.judge w).frame?.toList, (R.judge w).fault?.toList, [], []⟩
      (scan R (w.drop (R.judge w).size)) := by
  cases hj : R.judge w with
  | more => exact absurd hj h
  | accept f n => rw [scan_of_accept R hj]; rfl
  | reject e k => rw [scan_of_reject R hj]; rfl

/-- What is picked of the decisions, if it is collected verdict by verdict. -/
theorem decisions_filterMap {β : Type*} {pick : Verdict φ ε → Option β}
    {g : List α → List β} (hmore : ∀ w, R.judge w = .more → g w = [])
    (hdecided : ∀ w, R.judge w ≠ .more →
      g w = (pick (R.judge w)).toList ++ g (w.drop (R.judge w).size))
    (p : Nat) (w : List α) : (decisions R p w).filterMap (fun d => pick d.2) = g w := by
  induction w using decided_induction R generalizing p with
  | more w h =>
      rw [decisions_of_more R h, hmore w h]
      rfl
  | decided w h ih =>
      rw [decisions_of_decided R h, hdecided w h, List.filterMap_cons, ih]
      cases pick (R.judge w) <;> rfl

theorem decisions_frames (p : Nat) (w : List α) :
    (decisions R p w).filterMap (·.2.frame?) = (scan R w).frames :=
  decisions_filterMap R (g := fun w => (scan R w).frames)
    (fun _ h => congrArg Out.frames (scan_of_more R h))
    (fun _ h => congrArg Out.frames (scan_of_decided R h)) p w

theorem decisions_faults (p : Nat) (w : List α) :
    (decisions R p w).filterMap (·.2.fault?) = (scan R w).faults :=
  decisions_filterMap R (g := fun w => (scan R w).faults)
    (fun _ h => congrArg Out.faults (scan_of_more R h))
    (fun _ h => congrArg Out.faults (scan_of_decided R h)) p w

theorem mem_decisions {p q : Nat} {w : List α} {v : Verdict φ ε}
    (h : (q, v) ∈ decisions R p w) : p ≤ q ∧ R.judge (w.drop (q - p)) = v := by
  induction w using decided_induction R generalizing p with
  | more w hj =>
      rw [decisions_of_more R hj] at h
      cases h
  | decided w hj ih =>
      rw [decisions_of_decided R hj, List.mem_cons] at h
      rcases h with heq | h
      · obtain ⟨rfl, rfl⟩ := Prod.mk.inj heq
        exact ⟨Nat.le_refl q, by simp⟩
      · obtain ⟨hle, hat⟩ := ih h
        rw [List.drop_drop] at hat
        have hplace : (R.judge w).size + (q - (p + (R.judge w).size)) = q - p := by omega
        rw [hplace] at hat
        exact ⟨by omega, hat⟩

theorem decisions_sorted (p : Nat) (w : List α) :
    (decisions R p w).Pairwise (·.1 < ·.1) := by
  induction w using decided_induction R generalizing p with
  | more w h =>
      rw [decisions_of_more R h]
      exact .nil
  | decided w h ih =>
      have hpos := (decided_size R h).1
      rw [decisions_of_decided R h]
      refine .cons (fun d hd => ?_) (ih (p + (R.judge w).size))
      have hle := (mem_decisions R hd).1
      simp only
      omega

theorem decisions_cover {p q : Nat} (hq : p ≤ q) (w : List α) :
    (∃ v, (q, v) ∈ decisions R p w) ∨
      (∃ r v, (r, v) ∈ decisions R p w ∧ r < q ∧ q < r + v.size) ∨
      p + w.length ≤ q + (scan R w).rest.length := by
  induction w using decided_induction R generalizing p with
  | more w h =>
      rw [scan_of_more R h, Out.silent_rest]
      exact Or.inr (Or.inr (by omega))
  | decided w h ih =>
      have hle := (decided_size R h).2
      rw [decisions_of_decided R h, scan_of_decided R h, Out.andThen_rest]
      by_cases hstart : p = q
      · subst hstart
        exact Or.inl ⟨_, List.mem_cons_self⟩
      by_cases hin : q < p + (R.judge w).size
      · exact Or.inr (Or.inl ⟨p, _, List.mem_cons_self, by omega, hin⟩)
      rcases ih (Nat.le_of_not_lt hin) with ⟨v, hv⟩ | ⟨r, v, hv, hr, hsize⟩ | hrest
      · exact Or.inl ⟨v, List.mem_cons_of_mem _ hv⟩
      · exact Or.inr (Or.inl ⟨r, v, List.mem_cons_of_mem _ hv, hr, hsize⟩)
      · rw [List.length_drop] at hrest
        exact Or.inr (Or.inr (by omega))

end Rescan
