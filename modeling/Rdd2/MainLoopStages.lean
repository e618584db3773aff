import Rdd2.MainLoop

/-!
# What the stages of a cycle leave alone

After the inputs are in, every stage keeps them and the countdowns
(`InputsKept`), and every stage after the estimator keeps the estimate too
(`EstimateKept`). Composed over the cycle they say where the fields of the
next loop state come from, the armed flag first (`cycle_armed`).
-/

namespace Rdd2

variable {F D R E : Type}

/-- The inputs, their arming and the attitude countdowns are the same. -/
structure InputsKept (a b : Loop F D R E) : Prop where
  gyro : b.ctx.gyro = a.ctx.gyro
  accel : b.ctx.accel = a.ctx.accel
  rc : b.ctx.rc = a.ctx.rc
  status : b.ctx.status = a.ctx.status
  dt : b.ctx.dt = a.ctx.dt
  rcStale : b.ctx.rcStale = a.ctx.rcStale
  flightMode : b.ctx.flightMode = a.ctx.flightMode
  autolevel : b.autolevelAttitudeCountdown = a.autolevelAttitudeCountdown
  background : b.backgroundAttitudeCountdown = a.backgroundAttitudeCountdown

/-- So are the attitude, the estimator and the accumulators. -/
structure EstimateKept (a b : Loop F D R E) : Prop extends InputsKept a b where
  attitude : b.ctx.attitude = a.ctx.attitude
  attitudeEstimator : b.attitudeEstimator = a.attitudeEstimator
  accum : b.accum = a.accum

theorem InputsKept.trans {a b c : Loop F D R E} (hab : InputsKept a b) (hbc : InputsKept b c) :
    InputsKept a c where
  gyro := hbc.gyro.trans hab.gyro
  accel := hbc.accel.trans hab.accel
  rc := hbc.rc.trans hab.rc
  status := hbc.status.trans hab.status
  dt := hbc.dt.trans hab.dt
  rcStale := hbc.rcStale.trans hab.rcStale
  flightMode := hbc.flightMode.trans hab.flightMode
  autolevel := hbc.autolevel.trans hab.autolevel
  background := hbc.background.trans hab.background

theorem EstimateKept.refl (a : Loop F D R E) : EstimateKept a a :=
  ⟨⟨rfl, rfl, rfl, rfl, rfl, rfl, rfl, rfl, rfl⟩, rfl, rfl, rfl⟩

theorem EstimateKept.trans {a b c : Loop F D R E} (hab : EstimateKept a b)
    (hbc : EstimateKept b c) : EstimateKept a c where
  toInputsKept := hab.toInputsKept.trans hbc.toInputsKept
  attitude := hbc.attitude.trans hab.attitude
  attitudeEstimator := hbc.attitudeEstimator.trans hab.attitudeEstimator
  accum := hbc.accum.trans hab.accum

/-! ## Stages -/

theorem accumulateSample_keeps [CFloat F] (loop : Loop F D R E) :
    InputsKept loop (accumulateSample loop) := by
  unfold accumulateSample
  split
  · exact ⟨rfl, rfl, rfl, rfl, rfl, rfl, rfl, rfl, rfl⟩
  · exact ⟨rfl, rfl, rfl, rfl, rfl, rfl, rfl, rfl, rfl⟩

theorem updateEstimator_keeps [CFloat F] [CDouble F D] (gen : Generated D R E) (due : Bool)
    (loop : Loop F D R E) :
    InputsKept loop (updateEstimator gen due loop).loop := by
  unfold updateEstimator
  split
  · split
    · exact ⟨rfl, rfl, rfl, rfl, rfl, rfl, rfl, rfl, rfl⟩
    · exact (EstimateKept.refl loop).toInputsKept
  · split
    · exact ⟨rfl, rfl, rfl, rfl, rfl, rfl, rfl, rfl, rfl⟩
    · exact (EstimateKept.refl loop).toInputsKept

theorem resetControllers_keeps [CFloat D] (required : Bool) (loop : Loop F D R E) :
    EstimateKept loop (resetControllers required loop).loop := by
  unfold resetControllers
  split
  · exact ⟨⟨rfl, rfl, rfl, rfl, rfl, rfl, rfl, rfl, rfl⟩, rfl, rfl, rfl⟩
  · exact EstimateKept.refl loop

theorem publishFlightState_keeps (board : Board) (atTarget : Bool) (loop : Loop F D R E) :
    EstimateKept loop (publishFlightState board atTarget loop).loop := by
  unfold publishFlightState
  split
  · exact EstimateKept.refl loop
  · exact ⟨⟨rfl, rfl, rfl, rfl, rfl, rfl, rfl, rfl, rfl⟩, rfl, rfl, rfl⟩

theorem finalizeCycle_keeps (board : Board) (input : CycleInput F) (timestampNs : UInt64)
    (loop : Loop F D R E) :
    EstimateKept loop (finalizeCycle board input timestampNs loop).loop := by
  have hlatency (us : UInt32) :
      EstimateKept loop { loop with ctx := { loop.ctx with imuToMotorLatencyUs := us } } :=
    ⟨⟨rfl, rfl, rfl, rfl, rfl, rfl, rfl, rfl, rfl⟩, rfl, rfl, rfl⟩
  exact (hlatency _).trans (publishFlightState_keeps board input.atTarget _)

section Inputs

variable [CFloat F] [CFloat D] (gen : Generated D R E) (board : Board) (input : CycleInput F)

/-! ## Arming -/

/-- Whether a cycle is armed: `wasArmed` is the flag before it. -/
def arms (wasArmed : Bool) : Bool :=
  input.imuOk && !rcStaleFrom board input && rateArmSwitchHigh gen input.rc &&
    (wasArmed || decide (rateThrottleUs input.rc ≤ throttleArmMax))

theorem takeInputs_armed (ctx : ControlContext F) :
    (takeInputs gen board ctx input).status.armed = arms gen board input ctx.status.armed := by
  have htable : ∀ imuOk stale switch armed low : Bool,
      (if !imuOk || stale || !switch then false else if !armed && low then true else armed) =
        (imuOk && !stale && switch && (armed || low)) := by
    decide
  exact htable _ _ _ _ _

theorem beginCycle_status (loop : Loop F D R E) :
    (beginCycle gen board loop input).loop.ctx.status =
      (takeInputs gen board loop.ctx input).status :=
  (accumulateSample_keeps _).status

theorem beginCycle_armed (loop : Loop F D R E) :
    (beginCycle gen board loop input).loop.ctx.status.armed =
      arms gen board input loop.ctx.status.armed := by
  rw [beginCycle_status, takeInputs_armed]

theorem beginCycle_flightMode (loop : Loop F D R E) :
    (beginCycle gen board loop input).loop.ctx.flightMode = flightModeFromRc input.rc :=
  (accumulateSample_keeps _).flightMode

end Inputs

section Stages

variable [CFloat F] [CFloat D] [CDouble F D] (gen : Generated D R E) (board : Board)
  (input : CycleInput F)

/-! ## Commands -/

theorem stepAttitude_keeps (due required : Bool) (attitudeDt : F) (loop : Loop F D R E) :
    EstimateKept loop (stepAttitude gen due required attitudeDt loop).loop := by
  unfold stepAttitude
  dsimp only
  split
  · exact ⟨⟨rfl, rfl, rfl, rfl, rfl, rfl, rfl, rfl, rfl⟩, rfl, rfl, rfl⟩
  · exact EstimateKept.refl loop

theorem desireRates_keeps (due required : Bool) (attitudeDt : F) (loop : Loop F D R E) :
    EstimateKept loop (desireRates gen due required attitudeDt loop).loop := by
  -- both modes end by writing desired rates and attitude only
  have hdesired (from' : Loop F D R E) (attitude : AttitudeEuler F) (rates : RateTriplet F) :
      EstimateKept from'
        { from' with ctx :=
            { from'.ctx with attitudeDesired := attitude, rateDesired := rates } } :=
    ⟨⟨rfl, rfl, rfl, rfl, rfl, rfl, rfl, rfl, rfl⟩, rfl, rfl, rfl⟩
  unfold desireRates
  split
  · exact (stepAttitude_keeps gen due required attitudeDt loop).trans (hdesired _ _ _)
  · exact hdesired _ _ _

theorem mixMotors_keeps (loop : Loop F D R E) :
    EstimateKept loop (mixMotors gen loop).loop :=
  ⟨⟨rfl, rfl, rfl, rfl, rfl, rfl, rfl, rfl, rfl⟩, rfl, rfl, rfl⟩

theorem fly_keeps (due required : Bool) (attitudeDt : F) (loop : Loop F D R E) :
    EstimateKept loop (fly gen board input due required attitudeDt loop).loop :=
  (desireRates_keeps gen due required attitudeDt loop).trans (mixMotors_keeps gen _)

theorem commandMotors_keeps (due required : Bool) (attitudeDt : F) (loop : Loop F D R E) :
    EstimateKept loop (commandMotors gen board input due required attitudeDt loop).loop := by
  -- the test getters write nothing but `motors` and `raw_test`
  have hmotors (m : MotorValues F) (r : MotorRaw) :
      EstimateKept loop { loop with ctx := { loop.ctx with motors := m, rawTest := r } } :=
    ⟨⟨rfl, rfl, rfl, rfl, rfl, rfl, rfl, rfl, rfl⟩, rfl, rfl, rfl⟩
  unfold commandMotors
  dsimp only
  split
  · exact hmotors _ _
  · split
    · exact hmotors _ _
    · split
      · exact hmotors _ _
      · exact (hmotors _ _).trans (fly_keeps gen board input due required attitudeDt _)

/-! ## The cycle -/

def estimateCycle (loop : Loop F D R E) : Stage F D R E F :=
  let begun := beginCycle gen board loop input
  updateEstimator gen begun.result begun.loop

theorem cycle_keeps_estimate (loop : Loop F D R E) :
    EstimateKept (estimateCycle gen board input loop).loop (cycle gen board loop input).1 :=
  ((resetControllers_keeps _ _).trans (commandMotors_keeps gen board input _ _ _ _)).trans
    (finalizeCycle_keeps board input _ _)

theorem cycle_keeps_inputs (loop : Loop F D R E) :
    InputsKept (beginCycle gen board loop input).loop (cycle gen board loop input).1 :=
  (updateEstimator_keeps gen _ _).trans (cycle_keeps_estimate gen board input loop).toInputsKept

theorem cycle_status (loop : Loop F D R E) :
    (cycle gen board loop input).1.ctx.status = (takeInputs gen board loop.ctx input).status :=
  (cycle_keeps_inputs gen board input loop).status.trans (beginCycle_status gen board input loop)

theorem cycle_armed (loop : Loop F D R E) :
    (cycle gen board loop input).1.ctx.status.armed =
      arms gen board input loop.ctx.status.armed := by
  rw [cycle_status, takeInputs_armed]

theorem cycle_flightMode (loop : Loop F D R E) :
    (cycle gen board loop input).1.ctx.flightMode = flightModeFromRc input.rc :=
  (cycle_keeps_inputs gen board input loop).flightMode.trans
    (beginCycle_flightMode gen board input loop)

theorem loopAfter_concat (inputs : List (CycleInput F)) :
    loopAfter gen board (inputs ++ [input]) =
      (cycle gen board (loopAfter gen board inputs) input).1 :=
  Mealy.after_concat _ _ _ _

theorem reports_concat (inputs : List (CycleInput F)) :
    reports gen board (inputs ++ [input]) =
      reports gen board inputs ++ [(cycle gen board (loopAfter gen board inputs) input).2] :=
  Mealy.outputs_concat _ _ _ _

end Stages

end Rdd2
