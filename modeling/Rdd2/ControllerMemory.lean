import Rdd2.EfmiControl
import Rdd2.Resettable

/-!
# What a controller remembers

The wrappers of `rate_control.c` and `attitude_control.c` as machines with a
reset. `ReadsOnly` is about the generated code: its step makes the fields
that `rdd2_efmi_pid_axis_reset` clears from those fields, the inputs that
`rdd2_efmi_pid_axis_step` sets and the calibration. Then two axes that agree
on the cleared fields and the calibration cannot be told apart by any steps
(`ReadsOnly.axisStep_alike`), and either controller forgets at a reset
whatever it was stepped with before.
-/

namespace Rdd2

open Resettable

variable {F D R E : Type}

/-! ## Axes -/

/-- The fields that `rdd2_efmi_pid_axis_reset` clears are the same. -/
structure SamePid (s t : ControllerState D R) : Prop where
  setpoint : s.setpoint = t.setpoint
  measurement : s.measurement = t.measurement
  integrate : s.integrate = t.integrate
  previousMeasFiltValid : s.previousMeasFiltValid = t.previousMeasFiltValid
  previousMeasFilt : s.previousMeasFilt = t.previousMeasFilt
  previousEInt : s.previousEInt = t.previousEInt
  eInt : s.eInt = t.eInt
  measFilt : s.measFilt = t.measFilt
  derivative : s.derivative = t.derivative
  pidError : s.pidError = t.pidError
  pidOutput : s.pidOutput = t.pidOutput
  measFiltValid : s.measFiltValid = t.measFiltValid

/-- The gains and limits are the same, and what else `calibration` says. -/
structure SameCalibration {C : Type} (calibration : R → C) (s t : ControllerState D R) :
    Prop where
  kp : s.kp = t.kp
  ki : s.ki = t.ki
  kd : s.kd = t.kd
  iLimit : s.iLimit = t.iLimit
  outputLimit : s.outputLimit = t.outputLimit
  rest : calibration s.rest = calibration t.rest

/-- Two axes with nothing to tell them apart by. -/
structure AxisAlike {C : Type} (calibration : R → C) (s t : ControllerState D R) : Prop where
  pid : SamePid s t
  calibration : SameCalibration calibration s t

/-- The step of the generated code makes the cleared fields from themselves,
the inputs of the axis and the calibration, which it leaves. -/
structure ReadsOnly {C : Type} (gen : Generated D R E) (calibration : R → C) : Prop where
  dostep_pid : ∀ s t : ControllerState D R, SamePid s t → s.samplePeriod = t.samplePeriod →
    SameCalibration calibration s t → SamePid (gen.dostep s) (gen.dostep t)
  dostep_calibration : ∀ s : ControllerState D R, SameCalibration calibration (gen.dostep s) s

section Calibration

variable {C : Type} {calibration : R → C}

theorem SameCalibration.refl (s : ControllerState D R) : SameCalibration calibration s s :=
  ⟨rfl, rfl, rfl, rfl, rfl, rfl⟩

theorem SameCalibration.symm {s t : ControllerState D R} (h : SameCalibration calibration s t) :
    SameCalibration calibration t s :=
  ⟨h.kp.symm, h.ki.symm, h.kd.symm, h.iLimit.symm, h.outputLimit.symm, h.rest.symm⟩

theorem SameCalibration.trans {s t u : ControllerState D R}
    (hst : SameCalibration calibration s t) (htu : SameCalibration calibration t u) :
    SameCalibration calibration s u :=
  ⟨hst.kp.trans htu.kp, hst.ki.trans htu.ki, hst.kd.trans htu.kd, hst.iLimit.trans htu.iLimit,
    hst.outputLimit.trans htu.outputLimit, hst.rest.trans htu.rest⟩

theorem AxisAlike.reset [CFloat D] {s t : ControllerState D R}
    (h : SameCalibration calibration s t) :
    AxisAlike calibration (efmiPidAxisReset s) (efmiPidAxisReset t) where
  pid := ⟨rfl, rfl, rfl, rfl, rfl, rfl, rfl, rfl, rfl, rfl, rfl, rfl⟩
  calibration := ⟨h.kp, h.ki, h.kd, h.iLimit, h.outputLimit, h.rest⟩

variable [CFloat D] [CDouble F D] {gen : Generated D R E}

theorem ReadsOnly.axisStep_calibration (hreads : ReadsOnly gen calibration)
    (s : ControllerState D R) (setpoint measurement dt : F) (integrate : Bool) :
    SameCalibration calibration (efmiPidAxisStep gen s setpoint measurement dt integrate).2 s :=
  (hreads.dostep_calibration _).trans ⟨rfl, rfl, rfl, rfl, rfl, rfl⟩

theorem ReadsOnly.axisStep_alike (hreads : ReadsOnly gen calibration)
    {s t : ControllerState D R} (h : AxisAlike calibration s t) (setpoint measurement dt : F)
    (integrate : Bool) :
    let s' := efmiPidAxisStep gen s setpoint measurement dt integrate
    let t' := efmiPidAxisStep gen t setpoint measurement dt integrate
    s'.1 = t'.1 ∧ AxisAlike calibration s'.2 t'.2 := by
  intro s' t'
  have hcalibration : SameCalibration calibration s'.2 t'.2 :=
    ((hreads.axisStep_calibration s setpoint measurement dt integrate).trans h.calibration).trans
      (hreads.axisStep_calibration t setpoint measurement dt integrate).symm
  have hpid : SamePid s'.2 t'.2 := by
    obtain ⟨hpid, hcal⟩ := h
    exact hreads.dostep_pid _ _
      ⟨rfl, rfl, rfl, hpid.previousMeasFiltValid, hpid.previousMeasFilt, hpid.previousEInt,
        hpid.eInt, hpid.measFilt, hpid.derivative, hpid.pidError, hpid.pidOutput,
        hpid.measFiltValid⟩
      rfl ⟨hcal.kp, hcal.ki, hcal.kd, hcal.iLimit, hcal.outputLimit, hcal.rest⟩
  exact ⟨congrArg CDouble.narrow hpid.pidOutput, hpid, hcalibration⟩

end Calibration

section Alike

/-! ## Controllers -/

structure RateCalibrated {C : Type} (calibration : R → C) (s t : RateController D R) : Prop where
  roll : SameCalibration calibration s.roll t.roll
  pitch : SameCalibration calibration s.pitch t.pitch
  yaw : SameCalibration calibration s.yaw t.yaw

structure RateAlike {C : Type} (calibration : R → C) (s t : RateController D R) : Prop where
  roll : AxisAlike calibration s.roll t.roll
  pitch : AxisAlike calibration s.pitch t.pitch
  yaw : AxisAlike calibration s.yaw t.yaw

structure AttitudeCalibrated {C : Type} (calibration : R → C) (s t : AttitudeController D R) :
    Prop where
  roll : SameCalibration calibration s.roll t.roll
  pitch : SameCalibration calibration s.pitch t.pitch

structure AttitudeAlike {C : Type} (calibration : R → C) (s t : AttitudeController D R) :
    Prop where
  roll : AxisAlike calibration s.roll t.roll
  pitch : AxisAlike calibration s.pitch t.pitch

variable {C : Type} {calibration : R → C}

theorem RateAlike.reset [CFloat D] {s t : RateController D R} (h : RateCalibrated calibration s t) :
    RateAlike calibration (rateControllerReset s) (rateControllerReset t) :=
  ⟨.reset h.roll, .reset h.pitch, .reset h.yaw⟩

theorem RateAlike.calibrated {s t : RateController D R} (h : RateAlike calibration s t) :
    RateCalibrated calibration s t :=
  ⟨h.roll.calibration, h.pitch.calibration, h.yaw.calibration⟩

theorem AttitudeAlike.reset [CFloat D] {s t : AttitudeController D R}
    (h : AttitudeCalibrated calibration s t) :
    AttitudeAlike calibration (attitudeControllerReset s) (attitudeControllerReset t) :=
  ⟨.reset h.roll, .reset h.pitch⟩

theorem AttitudeAlike.calibrated {s t : AttitudeController D R}
    (h : AttitudeAlike calibration s t) : AttitudeCalibrated calibration s t :=
  ⟨h.roll.calibration, h.pitch.calibration⟩

end Alike

section Machines

variable [CFloat F] [CFloat D] [CDouble F D] (gen : Generated D R E)

/-! ## The rate controllers -/

abbrev RateStep (F : Type) : Type := RateTriplet F × Vec3f F × F × Bool

def rateMachine : Machine (RateController D R) (RateStep F) (RateTriplet F) where
  step
    | controller, (rateDesired, gyro, dt, integrate) =>
        rateControllerStep gen controller rateDesired gyro dt integrate
  reset := rateControllerReset

/-- The initialisation ends in a reset, so another one changes nothing. -/
theorem rateControllerReset_init :
    rateControllerReset (rateControllerInit F gen) = rateControllerInit F gen := rfl

variable {C : Type} {calibration : R → C} {gen}

/-- The rate controllers forget at a reset. -/
theorem ReadsOnly.rate_forgets (hreads : ReadsOnly gen calibration) :
    (rateMachine (F := F) gen).Forgets
      (RateCalibrated calibration · (rateControllerInit F gen)) (RateAlike calibration)
      (rateControllerInit F gen) where
  inv_step := by
    rintro s ⟨rateDesired, gyro, dt, integrate⟩ h
    simp only [rateMachine, rateControllerStep]
    split
    · exact h
    · exact ⟨(hreads.axisStep_calibration ..).trans h.roll,
        (hreads.axisStep_calibration ..).trans h.pitch,
        (hreads.axisStep_calibration ..).trans h.yaw⟩
  inv_reset := by
    intro s h
    rw [← rateControllerReset_init]
    exact (RateAlike.reset h).calibrated
  answer_eq := by
    rintro s t ⟨rateDesired, gyro, dt, integrate⟩ h
    simp only [rateMachine, rateControllerStep]
    split
    · rfl
    · rw [(hreads.axisStep_alike h.roll ..).1, (hreads.axisStep_alike h.pitch ..).1,
        (hreads.axisStep_alike h.yaw ..).1]
  alike_step := by
    rintro s t ⟨rateDesired, gyro, dt, integrate⟩ h
    simp only [rateMachine, rateControllerStep]
    split
    · exact h
    · exact ⟨(hreads.axisStep_alike h.roll ..).2, (hreads.axisStep_alike h.pitch ..).2,
        (hreads.axisStep_alike h.yaw ..).2⟩
  alike_reset := by
    intro s h
    rw [← rateControllerReset_init]
    exact .reset h
  inv_fresh := ⟨.refl _, .refl _, .refl _⟩
  alike_fresh := by
    rw [← rateControllerReset_init]
    exact .reset ⟨.refl _, .refl _, .refl _⟩

/-! ## The attitude controllers -/

/-- The arguments of `rdd2_attitude_controller_step`, but for the rates it
writes to. -/
abbrev AttitudeStep (F : Type) : Type := AttitudeEuler F × AttitudeEuler F × RcChannels × F

variable (gen) in
/-- The answer of a step that does not return at once is what it writes of
`rate_desired`, the yaw apart. -/
def attitudeMachine : Machine (AttitudeController D R) (AttitudeStep F) (Option (F × F)) where
  step
    | controller, (attitude, attitudeDesired, rc, dt) =>
        let step := attitudeControllerStep gen controller attitude attitudeDesired rc dt
          (RateTriplet.zero F)
        (if CFloat.le dt (CFloat.lit 0) then none else some (step.1.roll, step.1.pitch), step.2)
  reset := attitudeControllerReset

variable (gen) in
/-- Whatever rates it writes to. -/
theorem attitudeControllerStep_held (controller : AttitudeController D R)
    (attitude attitudeDesired : AttitudeEuler F) (rc : RcChannels) (dt : F)
    (held : RateTriplet F) :
    let step := (attitudeMachine gen).step controller (attitude, attitudeDesired, rc, dt)
    let taken := attitudeControllerStep gen controller attitude attitudeDesired rc dt held
    taken.2 = step.2 ∧
      ∀ command ∈ step.1, taken.1.roll = command.1 ∧ taken.1.pitch = command.2 := by
  simp only [attitudeMachine, attitudeControllerStep]
  split
  · exact ⟨rfl, fun _ h => nomatch h⟩
  · refine ⟨rfl, ?_⟩
    rintro command h
    cases h
    exact ⟨rfl, rfl⟩

theorem attitudeControllerReset_init :
    attitudeControllerReset (attitudeControllerInit F gen) = attitudeControllerInit F gen := rfl

theorem ReadsOnly.attitude_forgets (hreads : ReadsOnly gen calibration) :
    (attitudeMachine (F := F) gen).Forgets
      (AttitudeCalibrated calibration · (attitudeControllerInit F gen))
      (AttitudeAlike calibration) (attitudeControllerInit F gen) where
  inv_step := by
    rintro s ⟨attitude, attitudeDesired, rc, dt⟩ h
    simp only [attitudeMachine, attitudeControllerStep]
    split
    · exact h
    · exact ⟨(hreads.axisStep_calibration ..).trans h.roll,
        (hreads.axisStep_calibration ..).trans h.pitch⟩
  inv_reset := by
    intro s h
    rw [← attitudeControllerReset_init]
    exact (AttitudeAlike.reset h).calibrated
  answer_eq := by
    rintro s t ⟨attitude, attitudeDesired, rc, dt⟩ h
    simp only [attitudeMachine, attitudeControllerStep]
    split
    · rfl
    · rw [(hreads.axisStep_alike h.roll ..).1, (hreads.axisStep_alike h.pitch ..).1]
  alike_step := by
    rintro s t ⟨attitude, attitudeDesired, rc, dt⟩ h
    simp only [attitudeMachine, attitudeControllerStep]
    split
    · exact h
    · exact ⟨(hreads.axisStep_alike h.roll ..).2, (hreads.axisStep_alike h.pitch ..).2⟩
  alike_reset := by
    intro s h
    rw [← attitudeControllerReset_init]
    exact .reset h
  inv_fresh := ⟨.refl _, .refl _⟩
  alike_fresh := by
    rw [← attitudeControllerReset_init]
    exact .reset ⟨.refl _, .refl _⟩

end Machines

end Rdd2
