import Rdd2.LockstepTick

/-!
# The lockstep loop looks at no clock

In the lockstep build `main` still reads `k_uptime_get`, the time stamp of the RC input and
the motor clock, and keeps the first two in its context; the values of a motor test that is
off are copied into it as well. None of them gets any further: two loops that differ in
these, with inputs that differ in these, send the same motor outputs and differ in nothing
else afterwards (`cycle_clockless`).
-/

namespace Rdd2.Lockstep

section Clockless

variable {F D R E A : Type}

/-! ## Motor outputs -/

def motorOutput : Call F → Option (MotorValues F × Bool)
  | .motor (.motorOutputPublish motors armed) => some (motors, armed)
  | _ => none

def motorOutputs (calls : List (Call F)) : List (MotorValues F × Bool) :=
  calls.filterMap motorOutput

theorem motorOutputs_append (xs ys : List (Call F)) :
    motorOutputs (xs ++ ys) = motorOutputs xs ++ motorOutputs ys := by
  rw [motorOutputs, List.filterMap_append]
  rfl

theorem finalizeCycle_motorOutputs (input : CycleInput F) (timestampNs : UInt64)
    (loop : Loop F D R E) :
    motorOutputs (finalizeCycle lockstepBoard input timestampNs loop).calls = [] := by
  unfold finalizeCycle publishFlightState loopDividerExpired
  cases input.atTarget with
  | false => rfl
  | true =>
      cases loop.publishCountdown with
      | zero => rfl
      | succ countdown => rfl

/-! ## The clocks -/

variable [CFloat F]

/-- What a cycle reads but for the clocks and the values of motor tests. -/
def clocklessInput (input : CycleInput F) : CycleInput F :=
  { input with
    rcStampMs := 0
    nowMs := 0
    motorTest := { input.motorTest with values := MotorValues.zero F }
    motorRawTest := { input.motorRawTest with values := fun _ => 0 }
    motorClock := ⟨0, 0⟩ }

/-- The loop but for what it keeps of them. -/
def clockless (loop : Loop F D R E) : Loop F D R E :=
  { loop with ctx :=
      { loop.ctx with
        motors := MotorValues.zero F
        rawTest := fun _ => 0
        nowMs := 0
        status := { loop.ctx.status with rcStampMs := 0 } } }

def clocklessStage (stage : Stage F D R E A) : Stage F D R E A :=
  { stage with loop := clockless stage.loop }

def Untested (input : CycleInput F) : Prop :=
  input.motorTest.active = false ∧ input.motorRawTest.active = false

theorem clockless_idem (loop : Loop F D R E) : clockless (clockless loop) = clockless loop := rfl

/-! ## Stages -/

theorem beginCycle_clockless [CFloat D] (gen : Generated D R E) (loop : Loop F D R E)
    (input : CycleInput F) :
    beginCycle gen lockstepBoard (clockless loop) (clocklessInput input)
      = clocklessStage (beginCycle gen lockstepBoard loop input) := by
  unfold beginCycle clocklessStage
  dsimp only
  unfold accumulateSample
  rw [apply_ite clockless]
  rfl

theorem updateEstimator_clockless [CDouble F D] (gen : Generated D R E) (due : Bool)
    (loop : Loop F D R E) :
    updateEstimator gen due (clockless loop) = clocklessStage (updateEstimator gen due loop) := by
  unfold updateEstimator
  rw [apply_ite clocklessStage, apply_ite clocklessStage, apply_ite clocklessStage]
  rfl

theorem resetControllers_clockless [CFloat D] (required : Bool) (loop : Loop F D R E) :
    resetControllers required (clockless loop) = clocklessStage (resetControllers required loop) := by
  unfold resetControllers
  rw [apply_ite clocklessStage]
  rfl

/-- The same calls, and the same loop but for the clocks. -/
def SameStage (a b : Stage F D R E A) : Prop :=
  a.calls = b.calls ∧ clockless a.loop = clockless b.loop

/-- The motor clock is not looked at. -/
theorem finalizeCycle_clockless (input : CycleInput F) (timestampNs : UInt64)
    (loop : Loop F D R E) :
    clockless (finalizeCycle lockstepBoard input timestampNs loop).loop
      = (finalizeCycle lockstepBoard (clocklessInput input) 0 (clockless loop)).loop := by
  have hat : (clocklessInput input).atTarget = input.atTarget := rfl
  unfold finalizeCycle publishFlightState
  rw [hat]
  cases input.atTarget with
  | false => rfl
  | true => rfl

/-- What is written is what is in the context; the lockstep build has no trigger. -/
theorem writeMotors_clockless (input : CycleInput F) (armed testMode : Bool)
    {a b : Loop F D R E} (hsame : clockless a = clockless b)
    (hmotors : armed = true → a.ctx.motors = b.ctx.motors) :
    SameStage (writeMotors lockstepBoard (clocklessInput input) armed testMode a)
      (writeMotors lockstepBoard input armed testMode b) := by
  refine ⟨?_, hsame⟩
  have happlied : (fun i => appliedValue armed testMode (a.ctx.motors i))
      = fun i => appliedValue armed testMode (b.ctx.motors i) := by
    cases armed with
    | true => rw [hmotors rfl]
    | false => rfl
  have hat : (clocklessInput input).atTarget = input.atTarget := rfl
  unfold writeMotors motorOutputWriteAll
  rw [hat]
  cases input.atTarget with
  | false => rfl
  | true =>
      show ((motorOutputPublish lockstepBoard (fun i => appliedValue armed testMode (a.ctx.motors i))
        armed) ++ []).map Call.motor = _
      rw [happlied]
      rfl

/-! ## Commands -/

variable [CFloat D] [CDouble F D] (gen : Generated D R E)

theorem stepAttitude_clockless (due required : Bool) (attitudeDt : F) (loop : Loop F D R E) :
    stepAttitude gen due required attitudeDt (clockless loop)
      = clocklessStage (stepAttitude gen due required attitudeDt loop) := by
  unfold stepAttitude
  rw [apply_ite clocklessStage]
  rfl

theorem desireRates_clockless (due required : Bool) (attitudeDt : F) (loop : Loop F D R E) :
    desireRates gen due required attitudeDt (clockless loop)
      = clocklessStage (desireRates gen due required attitudeDt loop) := by
  have hmode : (clockless loop).ctx.flightMode = loop.ctx.flightMode := rfl
  unfold desireRates
  rw [hmode]
  cases loop.ctx.flightMode with
  | autoLevel =>
      dsimp only
      rw [stepAttitude_clockless]
      rfl
  | acro => rfl

theorem fly_clockless (input : CycleInput F) (due required : Bool) (attitudeDt : F)
    (loop : Loop F D R E) :
    SameStage (fly gen lockstepBoard (clocklessInput input) due required attitudeDt (clockless loop))
      (fly gen lockstepBoard input due required attitudeDt loop) := by
  have hdesired := desireRates_clockless gen due required attitudeDt loop
  have hmixed (loop : Loop F D R E) :
      (mixMotors gen (clockless loop)).loop.ctx.motors = (mixMotors gen loop).loop.ctx.motors ∧
        SameStage (mixMotors gen (clockless loop)) (mixMotors gen loop) := ⟨rfl, rfl, rfl⟩
  obtain ⟨hmotors, hcalls, hsame⟩ := hmixed (desireRates gen due required attitudeDt loop).loop
  obtain ⟨hwritten, hloop⟩ := writeMotors_clockless input
    (mixMotors gen (desireRates gen due required attitudeDt loop).loop).loop.ctx.status.armed false
    hsame (fun _ => hmotors)
  refine ⟨?_, ?_⟩
  · unfold fly
    dsimp only
    rw [hdesired]
    exact congrArg₂ _ (congrArg₂ _ rfl hcalls) hwritten
  · unfold fly
    dsimp only
    rw [hdesired]
    exact hloop

/-- The loop when the getters have copied the values of the tests. -/
def copyTests (input : CycleInput F) (loop : Loop F D R E) : Loop F D R E :=
  { loop with ctx :=
      { loop.ctx with
        motors := input.motorTest.values
        rawTest := input.motorRawTest.values } }

/-- While no test is on there are two exits. -/
theorem commandMotors_untested {input : CycleInput F} (htest : Untested input)
    (due required : Bool) (attitudeDt : F) (loop : Loop F D R E) :
    commandMotors gen lockstepBoard input due required attitudeDt loop =
      if !loop.ctx.status.imuOk || loop.ctx.rcStale then
        writeMotors lockstepBoard input false false (copyTests input loop)
      else fly gen lockstepBoard input due required attitudeDt (copyTests input loop) := by
  obtain ⟨hmotor, hraw⟩ := htest
  unfold commandMotors motorTestGet
  dsimp only
  rw [hmotor, hraw]
  rfl

theorem commandMotors_clockless {input : CycleInput F} (htest : Untested input)
    (due required : Bool) (attitudeDt : F) (loop : Loop F D R E) :
    SameStage
      (commandMotors gen lockstepBoard (clocklessInput input) due required attitudeDt
        (clockless loop))
      (commandMotors gen lockstepBoard input due required attitudeDt loop) := by
  have hcopied : copyTests (clocklessInput input) (clockless loop)
      = clockless (copyTests input loop) := rfl
  have htest' : Untested (clocklessInput input) := htest
  rw [commandMotors_untested gen htest, commandMotors_untested gen htest', hcopied]
  show SameStage (if !loop.ctx.status.imuOk || loop.ctx.rcStale then _ else _) _
  split
  · exact writeMotors_clockless input false false (clockless_idem _) nofun
  · exact fly_clockless gen input due required attitudeDt _

/-! ## The cycle -/

theorem cycle_clocklessInput {input : CycleInput F} (htest : Untested input)
    (loop : Loop F D R E) :
    clockless (cycle gen lockstepBoard loop input).1
        = clockless (cycle gen lockstepBoard (clockless loop) (clocklessInput input)).1 ∧
      motorOutputs (cycle gen lockstepBoard loop input).2.calls
        = motorOutputs (cycle gen lockstepBoard (clockless loop) (clocklessInput input)).2.calls := by
  let begun := beginCycle gen lockstepBoard loop input
  let required := controllerResetRequired loop begun.loop
  let estimated := updateEstimator gen begun.result begun.loop
  let reset := resetControllers required estimated.loop
  obtain ⟨hcalls, hloop⟩ := commandMotors_clockless gen htest begun.result required
    estimated.result reset.loop
  have hstages :
      cycle gen lockstepBoard (clockless loop) (clocklessInput input) =
        let commanded := commandMotors gen lockstepBoard (clocklessInput input) begun.result
          required estimated.result (clockless reset.loop)
        let finished := finalizeCycle lockstepBoard (clocklessInput input) commanded.result
          commanded.loop
        (finished.loop,
          { imuOk := finished.loop.ctx.status.imuOk
            armed := finished.loop.ctx.status.armed
            flightMode := finished.loop.ctx.flightMode
            calls := estimated.calls ++ reset.calls ++ commanded.calls ++ finished.calls }) := by
    simp only [cycle, beginCycle_clockless, clocklessStage, updateEstimator_clockless,
      resetControllers_clockless]
    rfl
  rw [hstages]
  refine ⟨?_, ?_⟩
  · show clockless (finalizeCycle _ _ _ _).loop = clockless (finalizeCycle _ _ _ _).loop
    rw [finalizeCycle_clockless, finalizeCycle_clockless, hloop]
    rfl
  · show motorOutputs (estimated.calls ++ reset.calls ++ _ ++ _)
      = motorOutputs (estimated.calls ++ reset.calls ++ _ ++ _)
    simp only [motorOutputs_append, finalizeCycle_motorOutputs, hcalls]
    rfl

/-- Neither the clocks nor the values of motor tests that are off have a part in a cycle of
the lockstep build. -/
theorem cycle_clockless {input input' : CycleInput F} {loop loop' : Loop F D R E}
    (hinput : clocklessInput input = clocklessInput input') (hloop : clockless loop = clockless loop')
    (htest : Untested input) :
    clockless (cycle gen lockstepBoard loop input).1
        = clockless (cycle gen lockstepBoard loop' input').1 ∧
      motorOutputs (cycle gen lockstepBoard loop input).2.calls
        = motorOutputs (cycle gen lockstepBoard loop' input').2.calls := by
  have htest' : Untested input' := by
    have hmotor := congrArg (fun input => input.motorTest.active) hinput
    have hraw := congrArg (fun input => input.motorRawTest.active) hinput
    exact ⟨hmotor.symm.trans htest.1, hraw.symm.trans htest.2⟩
  obtain ⟨hleft, houtputs⟩ := cycle_clocklessInput gen htest loop
  obtain ⟨hright, houtputs'⟩ := cycle_clocklessInput gen htest' loop'
  rw [hleft, houtputs, hright, houtputs', hinput, hloop]
  exact ⟨rfl, rfl⟩

end Clockless

end Rdd2.Lockstep
