import Mathlib.Data.Fin.VecNotation
import Mathlib.Data.Fintype.Basic
import Mathlib.Algebra.Module.Pi
import Mathlib.Algebra.Module.Prod
import Mathlib.Tactic.FinCases
import Rdd2.MainLoopAttitude

/-!
# IMU samples

The accumulators of `main` between the samples and the estimator. Each cycle
with a working IMU adds its sample; a prediction takes the average of what has
come together, over the time it took; a re-initialisation and a failed IMU
throw it away. In exact arithmetic that is a `Ledger.Book`: samples are taken
in, the averages of a prediction are paid out as often as there were samples
in them, and a cycle that throws away writes off. Whatever arming, mode and
the two countdowns do in between, it balances (`every_sample_integrated_once`).

The number of samples is a 32-bit word in the source. It stays far below its
end, since with every sample one of the countdowns goes down, and where it has
run out the sample is the last of its batch (`sampleCount_le`).
-/

namespace Rdd2

/-! ## Motion -/

/-- Angular rate and acceleration, summed up, the time they took, and how many
samples they are. -/
abbrev Motion (F : Type) : Type := (Fin 3 → F) × (Fin 3 → F) × F × Nat

section Motion

variable {F : Type}

def Vec3f.coords (v : Vec3f F) : Fin 3 → F := ![v.x, v.y, v.z]

/-- The sample of a cycle, and the time since the one before. -/
def ControlContext.motion (ctx : ControlContext F) : Motion F :=
  (ctx.gyro.coords, ctx.accel.coords, ctx.dt, 1)

def AttitudeAccum.motion (accum : AttitudeAccum F) : Motion F :=
  (accum.gyro.coords, accum.accel.coords, accum.dt, accum.sampleCount)

/-- What a prediction is given: each average as often as there are samples in
it, and `dt`. -/
def Call.predicted [AddCommMonoid F] : Call F → Motion F
  | .attitudeEstimatorPredict sampleCount gyro accel dt =>
      (sampleCount • gyro.coords, sampleCount • accel.coords, dt, sampleCount)
  | _ => 0

def Call.isReset : Call F → Bool
  | .attitudeEstimatorResetFromAccel _ => true
  | _ => false

/-- A cycle from outside, and the context it leaves. -/
structure CycleSeen (F : Type) where
  ctx : ControlContext F
  report : CycleReport F

/-- The cycle re-initialises the estimator, or its IMU has failed. -/
def CycleSeen.restarts (seen : CycleSeen F) : Bool :=
  !seen.report.imuOk || seen.report.calls.any Call.isReset

def CycleSeen.predicted [AddCommMonoid F] (seen : CycleSeen F) : Motion F :=
  (seen.report.calls.map Call.predicted).sum

end Motion

section Exact

variable {F : Type} [Field F] [CFloat F] [ExactFloat F]

@[simp] theorem AttitudeAccum.motion_zero : (AttitudeAccum.zero F).motion = 0 := by
  have hcoords : (Vec3f.zero F).coords = 0 := by
    funext k
    fin_cases k <;> simp [Vec3f.coords, Vec3f.zero, ExactFloat.lit_eq]
  have hdt : (CFloat.lit 0 : F) = 0 := by rw [ExactFloat.lit_eq, Rat.cast_zero]
  rw [motion, zero, hcoords, hdt]
  rfl

theorem Vec3f.coords_add (a b : Vec3f F) : (a.add b).coords = a.coords + b.coords := by
  funext k
  fin_cases k <;> simp [coords, add, ExactFloat.add_eq]

theorem Vec3f.coords_average [CharZero F] (total : Vec3f F) {n : Nat} (hn : n ≠ 0) :
    n • (total.scale (CFloat.div (CFloat.lit 1) (CFloat.lit n))).coords = total.coords := by
  have hscale : ∀ a : F, (n : F) * (a * (n : F)⁻¹) = a := by
    intro a
    rw [mul_comm a, mul_inv_cancel_left₀ (Nat.cast_ne_zero.mpr hn)]
  funext k
  fin_cases k <;>
    simp [coords, scale, ExactFloat.lit_eq, ExactFloat.mul_eq, ExactFloat.div_eq, hscale]

end Exact

/-! ## One cycle -/

section Stages

variable {F D R E : Type}

theorem Call.Acts.other [AddCommMonoid F] {loop : Loop F D R E} {call : Call F}
    (h : call.Acts loop) : call.isReset = false ∧ call.predicted = 0 := by
  cases call with
  | attitudeEstimatorResetFromAccel accel => exact h.elim
  | attitudeEstimatorPredict sampleCount gyro accel dt => exact h.elim
  | _ => exact ⟨rfl, rfl⟩

theorem InputsKept.motion {a b : Loop F D R E} (h : InputsKept a b) :
    b.ctx.motion = a.ctx.motion := by
  rw [ControlContext.motion, h.gyro, h.accel, h.dt]
  rfl

/-- Where a countdown has run out nothing is left in the accumulators. -/
theorem updateEstimator_sampleCount [CFloat F] [CDouble F D] (gen : Generated D R E)
    (due : Bool) (loop : Loop F D R E) :
    ((updateEstimator gen due loop).loop.accum.sampleCount = loop.accum.sampleCount ∧
        (due = false ∨ loop.ctx.status.imuOk = false)) ∨
      (updateEstimator gen due loop).loop.accum.sampleCount = 0 := by
  unfold updateEstimator
  split
  · split
    · exact Or.inr rfl
    · rename_i hnot
      rw [Bool.and_eq_true, not_and_or, Bool.not_eq_true, Bool.not_eq_true] at hnot
      exact Or.inl ⟨rfl, hnot.symm⟩
  · split
    · exact Or.inr rfl
    · rename_i hnot
      rw [Bool.and_eq_true, Bool.and_eq_true, not_and_or, not_and_or, Bool.not_eq_true,
        Bool.not_eq_true, decide_eq_true_eq] at hnot
      rcases hnot with (himu | hdue) | hcount
      · exact Or.inl ⟨rfl, Or.inr himu⟩
      · exact Or.inl ⟨rfl, Or.inl hdue⟩
      · exact Or.inr (Nat.eq_zero_of_not_pos hcount)

end Stages

section Cycle

variable {F D R E : Type} [CFloat F] [CFloat D] [CDouble F D] (gen : Generated D R E)
  (board : Board) (input : CycleInput F)

def cycleSeen (loop : Loop F D R E) (input : CycleInput F) : Loop F D R E × CycleSeen F :=
  let done := cycle gen board loop input
  (done.1, ⟨done.1.ctx, done.2⟩)

def cyclesSeen (inputs : List (CycleInput F)) : List (CycleSeen F) :=
  Mealy.outputs (cycleSeen gen board) (bootLoop gen) inputs

variable {gen board}

theorem cycle_estimates [AddCommMonoid F] (loop : Loop F D R E) :
    (cycle gen board loop input).2.calls.any Call.isReset
        = (estimateCycle gen board input loop).calls.any Call.isReset ∧
      ((cycle gen board loop input).2.calls.map Call.predicted).sum
        = ((estimateCycle gen board input loop).calls.map Call.predicted).sum := by
  obtain ⟨rest, hcalls, hrest⟩ := cycle_calls gen board input loop
  have hreset : rest.any Call.isReset = false :=
    List.any_eq_false.mpr fun call hcall => by simp [(hrest call hcall).other.1]
  have hpredicted : (rest.map Call.predicted).sum = 0 := by
    refine List.sum_eq_zero fun x hx => ?_
    obtain ⟨call, hcall, rfl⟩ := List.mem_map.mp hx
    exact (hrest call hcall).other.2
  rw [hcalls, List.any_append, hreset, Bool.or_false, List.map_append, List.sum_append,
    hpredicted, add_zero]
  exact ⟨rfl, rfl⟩

/-! ## The number of samples -/

/-- With every sample a countdown goes down. -/
structure CountedDown (loop : Loop F D R E) : Prop where
  autolevel : loop.autolevelAttitudeCountdown < attitudeAutolevelDiv
  background : loop.backgroundAttitudeCountdown < attitudeBackgroundDiv
  samples : loop.accum.sampleCount + loop.autolevelAttitudeCountdown
    + loop.backgroundAttitudeCountdown + 2 ≤ attitudeAutolevelDiv + attitudeBackgroundDiv

theorem attitudeUpdateDue_counts (mode : FlightMode) (armed : Bool) {autolevel background : Nat}
    (ha : autolevel < attitudeAutolevelDiv) (hb : background < attitudeBackgroundDiv) :
    let due := attitudeUpdateDue mode armed autolevel background
    due.2.1 < attitudeAutolevelDiv ∧ due.2.2 < attitudeBackgroundDiv ∧
      (due.1 = false → due.2.1 + due.2.2 + 1 = autolevel + background) := by
  simp only [attitudeUpdateDue, loopDividerExpired, attitudeAutolevelDiv, attitudeBackgroundDiv]
    at ha hb ⊢
  split
  · split
    · simp only [forall_const]
      omega
    · simp only [Bool.true_eq_false, false_imp_iff, and_true]
      omega
  · split
    · simp only [forall_const]
      omega
    · simp only [Bool.true_eq_false, false_imp_iff, and_true]
      omega

theorem CountedDown.cycle {loop : Loop F D R E} (h : CountedDown loop) :
    CountedDown (cycle gen board loop input).1 := by
  obtain ⟨ha, hb, hsamples⟩ := h
  let ctx := takeInputs gen board loop.ctx input
  obtain ⟨ha', hb', hdown⟩ := attitudeUpdateDue_counts ctx.flightMode ctx.status.armed ha hb
  -- what the cycle leaves in the countdowns and the accumulators
  have hinputs := cycle_keeps_inputs gen board input loop
  have hautolevel : (Rdd2.cycle gen board loop input).1.autolevelAttitudeCountdown
      = (attitudeUpdateDue ctx.flightMode ctx.status.armed loop.autolevelAttitudeCountdown
          loop.backgroundAttitudeCountdown).2.1 :=
    hinputs.autolevel.trans (accumulateSample_keeps _).autolevel
  have hbackground : (Rdd2.cycle gen board loop input).1.backgroundAttitudeCountdown
      = (attitudeUpdateDue ctx.flightMode ctx.status.armed loop.autolevelAttitudeCountdown
          loop.backgroundAttitudeCountdown).2.2 :=
    hinputs.background.trans (accumulateSample_keeps _).background
  have hbegun : (beginCycle gen board loop input).loop.accum.sampleCount
      = if input.imuOk then loop.accum.sampleCount + 1 else 0 := by
    cases himu : input.imuOk <;>
      simp [beginCycle, accumulateSample, takeInputs, readInputs, himu, AttitudeAccum.zero]
  have hcount := updateEstimator_sampleCount gen
    (beginCycle gen board loop input).result (beginCycle gen board loop input).loop
  have haccum := congrArg AttitudeAccum.sampleCount
    (cycle_keeps_estimate gen board input loop).accum
  rw [estimateCycle] at haccum
  refine ⟨hautolevel ▸ ha', hbackground ▸ hb', ?_⟩
  rw [haccum, hautolevel, hbackground]
  rcases hcount with ⟨hsame, hdue | hfailed⟩ | hzero
  · rw [hsame, hbegun]
    have := hdown hdue
    split <;> omega
  · rw [beginCycle_status] at hfailed
    have himu : input.imuOk = false := hfailed
    rw [hsame, hbegun, himu]
    simp only [Bool.false_eq_true, if_false]
    omega
  · rw [hzero]
    omega

/-- The count never comes near the end of its word. -/
theorem sampleCount_le (inputs : List (CycleInput F)) :
    (loopAfter gen board inputs).accum.sampleCount
      ≤ attitudeAutolevelDiv + attitudeBackgroundDiv - 2 := by
  have hrun : CountedDown (loopAfter gen board inputs) := by
    induction inputs using List.reverseRecOn with
    | nil => exact ⟨Nat.zero_lt_succ _, Nat.zero_lt_succ _, Nat.le_add_left 2 22⟩
    | append_singleton inputs input ih =>
        rw [loopAfter_concat]
        exact ih.cycle input
  have := hrun.samples
  omega

end Cycle

/-! ## The ledger -/

section Motions

variable {F D R E : Type} [Field F] [CFloat F] [ExactFloat F]

theorem accumulateSample_motion (loop : Loop F D R E) :
    (accumulateSample loop).accum.motion =
      if loop.ctx.status.imuOk then loop.accum.motion + loop.ctx.motion else 0 := by
  rw [accumulateSample]
  cases loop.ctx.status.imuOk with
  | true =>
      simp only [if_true, AttitudeAccum.motion, ControlContext.motion, Vec3f.coords_add,
        ExactFloat.add_eq]
      rfl
  | false => exact AttitudeAccum.motion_zero

/-- The estimator stage throws away what has come together, or pays it out, or
leaves it. -/
theorem updateEstimator_motion [CDouble F D] [CharZero F] (gen : Generated D R E) (due : Bool)
    (loop : Loop F D R E) :
    ((updateEstimator gen due loop).calls.any Call.isReset = true ∧
        (updateEstimator gen due loop).loop.accum.motion = 0) ∨
      ((updateEstimator gen due loop).calls.any Call.isReset = false ∧
        ((updateEstimator gen due loop).calls.map Call.predicted).sum
          + (updateEstimator gen due loop).loop.accum.motion = loop.accum.motion) := by
  unfold updateEstimator
  split
  · split
    · exact Or.inl ⟨rfl, AttitudeAccum.motion_zero⟩
    · exact Or.inr ⟨rfl, zero_add _⟩
  · split
    · rename_i hdue
      have hcount : loop.accum.sampleCount ≠ 0 := by
        simp only [Bool.and_eq_true, decide_eq_true_eq] at hdue
        omega
      refine Or.inr ⟨rfl, ?_⟩
      simp only [List.map_cons, List.map_nil, List.sum_cons, List.sum_nil, Call.predicted,
        AttitudeAccum.motion_zero, add_zero, Vec3f.coords_average _ hcount]
      rfl
    · exact Or.inr ⟨rfl, zero_add _⟩

theorem beginCycle_motion [CFloat D] (gen : Generated D R E) (board : Board) (input : CycleInput F)
    {loop : Loop F D R E} (himu : input.imuOk = true) :
    (beginCycle gen board loop input).loop.accum.motion =
      loop.accum.motion + (beginCycle gen board loop input).loop.ctx.motion := by
  rw [beginCycle, accumulateSample_motion, (accumulateSample_keeps _).motion]
  exact if_pos himu

end Motions

section Samples

variable {F D R E : Type} [Field F] [CFloat F] [ExactFloat F] [CFloat D] [CDouble F D]
  (gen : Generated D R E) (board : Board) (input : CycleInput F)

theorem estimateCycle_failed {loop : Loop F D R E} (himu : input.imuOk = false) :
    (estimateCycle gen board input loop).loop.accum.motion = 0 := by
  have hbegun : (beginCycle gen board loop input).loop.ctx.status.imuOk = false := by
    rw [beginCycle_status]
    exact himu
  have hkept : ∀ (due : Bool) {loop : Loop F D R E}, loop.ctx.status.imuOk = false →
      (updateEstimator gen due loop).loop.accum = loop.accum := by
    intro due loop h
    simp [updateEstimator, h]
  rw [estimateCycle, hkept _ hbegun, beginCycle, accumulateSample_motion]
  exact if_neg (by simp [takeInputs, readInputs, himu])

def sampleBook : Ledger.Book (Loop F D R E) (CycleSeen F) (Motion F) where
  held loop := loop.accum.motion
  taken seen := seen.ctx.motion
  paid := CycleSeen.predicted
  writesOff := CycleSeen.restarts

theorem sampleBook_balanced [CharZero F] :
    Ledger.Balanced sampleBook (cycleSeen (F := F) gen board) := by
  constructor
  · intro loop input hoff
    have haccum := (cycle_keeps_estimate gen board input loop).accum
    change (cycle gen board loop input).1.accum.motion = 0
    rw [haccum]
    simp only [sampleBook, CycleSeen.restarts, cycleSeen, cycle_imuOk, Bool.or_eq_true,
      Bool.not_eq_true', (cycle_estimates input loop).1] at hoff
    rcases hoff with himu | hreset
    · exact estimateCycle_failed gen board input himu
    · rcases updateEstimator_motion gen _ (beginCycle gen board loop input).loop with h | h
      · exact h.2
      · exact absurd (h.1.symm.trans hreset) Bool.false_ne_true
  · intro loop input hoff
    have haccum := (cycle_keeps_estimate gen board input loop).accum
    have htaken := (cycle_keeps_inputs gen board input loop).motion
    simp only [sampleBook, CycleSeen.restarts, CycleSeen.predicted, cycleSeen, cycle_imuOk,
      Bool.or_eq_false_iff, Bool.not_eq_false', (cycle_estimates input loop).1,
      (cycle_estimates input loop).2, haccum, htaken] at hoff ⊢
    rw [← beginCycle_motion gen board input hoff.1]
    rcases updateEstimator_motion gen _ (beginCycle gen board loop input).loop with h | h
    · exact absurd (hoff.2.symm.trans h.1) Bool.false_ne_true
    · exact h.2

/-- In every run from boot, in exact arithmetic: since the last cycle that
re-initialised the estimator or had a failed IMU, what the predictions were
given and what is accumulated are together the samples of the cycles and the
time between them. -/
theorem every_sample_integrated_once [CharZero F] (inputs : List (CycleInput F)) :
    let since := (cyclesSeen gen board inputs).rtakeWhile fun seen => !seen.restarts
    (since.map CycleSeen.predicted).sum + (loopAfter gen board inputs).accum.motion
      = (since.map fun seen => seen.ctx.motion).sum := by
  have hboot : sampleBook.held (bootLoop gen : Loop F D R E) = 0 := AttitudeAccum.motion_zero
  exact (sampleBook_balanced gen board).run hboot inputs

end Samples

/-- Re-initialised, then armed with a prediction at once, then one sample more. -/
theorem every_sample_integrated_once_armed :
    let inputs := [benchInput 1500 2000, benchInput 1000 2000, benchInput 1500 2000]
    let since := (cyclesSeen benchGenerated benchBoard inputs).rtakeWhile fun seen =>
      !seen.restarts
    since.length = 2 ∧ (since.map CycleSeen.predicted).sum.2.2 = (1 / 1600, 1) ∧
      (since.map CycleSeen.predicted).sum
          + (loopAfter benchGenerated benchBoard inputs).accum.motion
        = (since.map fun seen => seen.ctx.motion).sum := by
  intro inputs since
  exact ⟨by decide +kernel, by decide +kernel,
    every_sample_integrated_once benchGenerated benchBoard inputs⟩

end Rdd2
