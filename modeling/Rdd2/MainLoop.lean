import Rdd2.EfmiControl
import Rdd2.Mealy
import Rdd2.MotorOutput

/-!
# The control loop

`main()` from the top of its loop to the bottom. One cycle takes what the
cycle reads (`CycleInput`) and answers with what it did (`CycleReport`):
the calls to estimator, controllers, motors and topics in order, and the
arming and mode it did them in. The body is cut where the source changes
subject; a stage is the loop state it leaves, its calls, and a local of
`main` that later stages read.
-/

namespace Rdd2

/-! ## State -/

structure ControlContext (F : Type) where
  gyro : Vec3f F
  accel : Vec3f F
  rc : RcChannels
  status : ControlStatus
  attitude : AttitudeEuler F
  attitudeDesired : AttitudeEuler F
  rateDesired : RateTriplet F
  rateCmd : RateTriplet F
  motors : MotorValues F
  rawTest : MotorRaw
  throttleInput : F
  throttleCmd : F
  dt : F
  imuToMotorLatencyUs : UInt32
  nowMs : Int
  rcStale : Bool
  flightMode : FlightMode

/-- `attitude_gyro_accum`, `attitude_accel_accum`, `attitude_dt_accum` and
`attitude_sample_count` -/
structure AttitudeAccum (F : Type) where
  gyro : Vec3f F
  accel : Vec3f F
  dt : F
  sampleCount : Nat

/-- The statics of `main.c` and the locals of `main` that live from one
cycle to the next. -/
structure Loop (F D R E : Type) where
  ctx : ControlContext F
  attitudeController : AttitudeController D R
  attitudeEstimator : EstimatorState D E
  rateController : RateController D R
  autolevelAttitudeCountdown : Nat
  backgroundAttitudeCountdown : Nat
  accum : AttitudeAccum F
  publishCountdown : Nat

/-- What a cycle reads: `rdd2_control_input_wait`, `k_uptime_get`, the two
motor tests, the motor clock and `rdd2_imu_stream_lockstep_at_target`. -/
structure CycleInput (F : Type) where
  imuOk : Bool
  gyro : Vec3f F
  accel : Vec3f F
  dt : F
  imuInterruptTimestampNs : UInt64
  rcLinkQuality : UInt8
  rc : RcChannels
  rcStampMs : Int
  rcValid : Bool
  nowMs : Int
  motorTest : MotorTest F
  motorRawTest : MotorTest UInt16
  motorClock : MotorClock
  atTarget : Bool

/-- A call of the loop, with its arguments. A prediction also carries the
number of samples in its averages, and reading the attitude what was read. -/
inductive Call (F : Type) where
  | attitudeEstimatorResetFromAccel (accel : Vec3f F)
  | attitudeEstimatorPredict (sampleCount : Nat) (gyro accel : Vec3f F) (dt : F)
  | attitudeEstimatorGetAttitude (attitude : AttitudeEuler F)
  | attitudeControllerReset
  | rateControllerReset
  | attitudeControllerStep (attitude attitudeDesired : AttitudeEuler F) (rc : RcChannels) (dt : F)
  | rateControllerStep (rateDesired : RateTriplet F) (gyro : Vec3f F) (dt : F) (integrate : Bool)
  | motor (call : MotorCall F)
  | imuLatencyStatsUpdate (latencyUs : UInt32)
  | flightStatePublish (gyro : Vec3f F) (status : ControlStatus)
      (attitude attitudeDesired : AttitudeEuler F) (rateDesired : RateTriplet F)
      (latencyUs : UInt32)

structure CycleReport (F : Type) where
  imuOk : Bool
  armed : Bool
  flightMode : FlightMode
  calls : List (Call F)

/-- What a part of the cycle leaves and does, and the local it computes. -/
structure Stage (F D R E A : Type) where
  loop : Loop F D R E
  calls : List (Call F)
  result : A

section Cycle

variable {F D R E : Type} [CFloat F] [CFloat D] [CDouble F D]

variable (F) in
/-- `(struct control_context){0}` -/
def ControlContext.zero : ControlContext F where
  gyro := Vec3f.zero F
  accel := Vec3f.zero F
  rc := fun _ => 0
  status :=
    { rcStampMs := 0, throttleUs := 0, rcLinkQuality := 0, flightMode := .acro, armed := false
      rcValid := false, rcStale := false, imuOk := false, armSwitch := false }
  attitude := AttitudeEuler.zero F
  attitudeDesired := AttitudeEuler.zero F
  rateDesired := RateTriplet.zero F
  rateCmd := RateTriplet.zero F
  motors := MotorValues.zero F
  rawTest := fun _ => 0
  throttleInput := CFloat.lit 0
  throttleCmd := CFloat.lit 0
  dt := CFloat.lit 0
  imuToMotorLatencyUs := 0
  nowMs := 0
  rcStale := false
  flightMode := .acro

variable (F) in
def AttitudeAccum.zero : AttitudeAccum F := ⟨Vec3f.zero F, Vec3f.zero F, CFloat.lit 0, 0⟩

/-- `main` before its loop, once everything has initialised. -/
def bootLoop (gen : Generated D R E) : Loop F D R E where
  ctx := ControlContext.zero F
  attitudeController := attitudeControllerInit F gen
  attitudeEstimator := attitudeEstimatorInit gen
  rateController := rateControllerInit F gen
  autolevelAttitudeCountdown := 0
  backgroundAttitudeCountdown := 0
  accum := AttitudeAccum.zero F
  publishCountdown := 0

/-! ## Inputs and arming -/

/-- `ctx->rc_stale`; the lockstep build looks at no clock. -/
def rcStaleFrom (board : Board) (input : CycleInput F) : Bool :=
  if board.lockstep then !input.rcValid
  else !input.rcValid || decide (input.nowMs - input.rcStampMs > rcStaleTimeoutMs)

/-- From `rdd2_control_input_wait` to the cleared commands. -/
def readInputs (gen : Generated D R E) (board : Board) (ctx : ControlContext F)
    (input : CycleInput F) : ControlContext F :=
  { ctx with
    gyro := input.gyro
    accel := input.accel
    rc := input.rc
    status :=
      { ctx.status with
        imuOk := input.imuOk
        rcLinkQuality := input.rcLinkQuality
        rcStampMs := input.rcStampMs
        rcValid := input.rcValid
        flightMode := flightModeFromRc input.rc
        armSwitch := rateArmSwitchHigh gen input.rc
        throttleUs := rateThrottleUs input.rc
        rcStale := rcStaleFrom board input }
    dt := if CFloat.le input.dt (CFloat.lit 0) then controlDtS F else input.dt
    nowMs := input.nowMs
    rcStale := rcStaleFrom board input
    flightMode := flightModeFromRc input.rc
    rateCmd := RateTriplet.zero F
    motors := MotorValues.zero F
    imuToMotorLatencyUs := 0 }

def armedNext (ctx : ControlContext F) : Bool :=
  if !ctx.status.imuOk || ctx.rcStale || !ctx.status.armSwitch then false
  else if !ctx.status.armed && decide (ctx.status.throttleUs ≤ throttleArmMax) then true
  else ctx.status.armed

/-- The context once inputs are read and arming is decided. -/
def takeInputs (gen : Generated D R E) (board : Board) (ctx : ControlContext F)
    (input : CycleInput F) : ControlContext F :=
  let ctx := readInputs gen board ctx input
  { ctx with status := { ctx.status with armed := armedNext ctx } }

/-! ## Attitude estimate -/

/-- `attitude_update_due`, and the two countdowns it leaves: auto level
first, then background. -/
def attitudeUpdateDue (mode : FlightMode) (armed : Bool) (autolevel background : Nat) :
    Bool × Nat × Nat :=
  if armed && mode = .autoLevel then
    let expired := loopDividerExpired autolevel attitudeAutolevelDiv
    (expired.1, expired.2, background)
  else
    let expired := loopDividerExpired background attitudeBackgroundDiv
    (expired.1, autolevel, expired.2)

/-- `a += b` on the three members. -/
def Vec3f.add (a b : Vec3f F) : Vec3f F :=
  ⟨CFloat.add a.x b.x, CFloat.add a.y b.y, CFloat.add a.z b.z⟩

/-- `a * scale` on the three members. -/
def Vec3f.scale (a : Vec3f F) (scale : F) : Vec3f F :=
  ⟨CFloat.mul a.x scale, CFloat.mul a.y scale, CFloat.mul a.z scale⟩

/-- The accumulators after this cycle's sample; a failed IMU clears them
and the attitude. -/
def accumulateSample (loop : Loop F D R E) : Loop F D R E :=
  if loop.ctx.status.imuOk then
    { loop with accum :=
        { gyro := loop.accum.gyro.add loop.ctx.gyro
          accel := loop.accum.accel.add loop.ctx.accel
          dt := CFloat.add loop.accum.dt loop.ctx.dt
          sampleCount := loop.accum.sampleCount + 1 } }
  else
    { loop with
      accum := AttitudeAccum.zero F
      ctx :=
        { loop.ctx with
          attitude := AttitudeEuler.zero F
          attitudeDesired := AttitudeEuler.zero F
          rateDesired := RateTriplet.zero F } }

/-- The disarmed re-initialisation or the armed prediction; `result` is
`attitude_dt`. -/
def updateEstimator (gen : Generated D R E) (runAttitudeUpdate : Bool) (loop : Loop F D R E) :
    Stage F D R E F :=
  if !loop.ctx.status.armed then
    if loop.ctx.status.imuOk && runAttitudeUpdate then
      let estimator := attitudeEstimatorResetFromAccel gen loop.attitudeEstimator loop.ctx.accel
      let attitude : AttitudeEuler F := attitudeEstimatorGetAttitude estimator
      { loop :=
          { loop with
            attitudeEstimator := estimator
            ctx := { loop.ctx with attitude := attitude, attitudeDesired := attitude }
            accum := AttitudeAccum.zero F }
        calls :=
          [.attitudeEstimatorResetFromAccel loop.ctx.accel, .attitudeEstimatorGetAttitude attitude]
        result := CFloat.lit 0 }
    else { loop := loop, calls := [], result := CFloat.lit 0 }
  else if loop.ctx.status.imuOk && runAttitudeUpdate && decide (loop.accum.sampleCount > 0) then
    let sampleScale : F := CFloat.div (CFloat.lit 1) (CFloat.lit loop.accum.sampleCount)
    let avgGyro := loop.accum.gyro.scale sampleScale
    let avgAccel := loop.accum.accel.scale sampleScale
    let attitudeDt := loop.accum.dt
    let estimator :=
      attitudeEstimatorPredict gen loop.attitudeEstimator avgGyro avgAccel attitudeDt
    let attitude : AttitudeEuler F := attitudeEstimatorGetAttitude estimator
    { loop :=
        { loop with
          attitudeEstimator := estimator
          ctx := { loop.ctx with attitude := attitude }
          accum := AttitudeAccum.zero F }
      calls :=
        [.attitudeEstimatorPredict loop.accum.sampleCount avgGyro avgAccel attitudeDt,
          .attitudeEstimatorGetAttitude attitude]
      result := attitudeDt }
  else { loop := loop, calls := [], result := CFloat.lit 0 }

/-! ## Controllers and motors -/

/-- The resets behind `controller_reset_required`. -/
def resetControllers (controllerResetRequired : Bool) (loop : Loop F D R E) :
    Stage F D R E Unit :=
  if controllerResetRequired then
    { loop :=
        { loop with
          attitudeController := attitudeControllerReset loop.attitudeController
          rateController := rateControllerReset loop.rateController }
      calls := [.attitudeControllerReset, .rateControllerReset]
      result := () }
  else { loop := loop, calls := [], result := () }

/-- The attitude controllers in AUTO_LEVEL, when they are due. -/
def stepAttitude (gen : Generated D R E) (runAttitudeUpdate controllerResetRequired : Bool)
    (attitudeDt : F) (loop : Loop F D R E) : Stage F D R E Unit :=
  let zero : F := CFloat.lit 0
  if loop.ctx.status.imuOk &&
      (controllerResetRequired || (runAttitudeUpdate && CFloat.lt zero attitudeDt)) then
    let desired := attitudeDesiredFromRc gen loop.ctx.rc loop.ctx.attitude
    let dt := if CFloat.lt zero attitudeDt then attitudeDt else loop.ctx.dt
    let step := attitudeControllerStep gen loop.attitudeController loop.ctx.attitude desired
      loop.ctx.rc dt loop.ctx.rateDesired
    { loop :=
        { loop with
          attitudeController := step.2
          ctx := { loop.ctx with attitudeDesired := desired, rateDesired := step.1 } }
      calls := [.attitudeControllerStep loop.ctx.attitude desired loop.ctx.rc dt]
      result := () }
  else { loop := loop, calls := [], result := () }

/-- The `switch` on the flight mode: `ctx->rate_desired`. -/
def desireRates (gen : Generated D R E) (runAttitudeUpdate controllerResetRequired : Bool)
    (attitudeDt : F) (loop : Loop F D R E) : Stage F D R E Unit :=
  match loop.ctx.flightMode with
  | .autoLevel =>
      let stepped := stepAttitude gen runAttitudeUpdate controllerResetRequired attitudeDt loop
      let ctx := stepped.loop.ctx
      { stepped with loop :=
          { stepped.loop with ctx :=
              { ctx with rateDesired :=
                  { ctx.rateDesired with yaw := rateYawDesiredFromRc gen ctx.rc } } } }
  | .acro =>
      { loop :=
          { loop with ctx :=
              { loop.ctx with
                rateDesired := rateDesiredFromRc gen loop.ctx.rc
                attitudeDesired := loop.ctx.attitude } }
        calls := []
        result := () }

/-- Throttle, rate controllers and mixer: `ctx->motors`. -/
def mixMotors (gen : Generated D R E) (loop : Loop F D R E) : Stage F D R E Unit :=
  let throttleInput : F := rateThrottleInputFromRc gen loop.ctx.rc
  let throttleCmd := rateThrottleCommand gen throttleInput loop.ctx.status.armed
  let integrate := ratePidIntegrate gen throttleInput loop.ctx.status.armed
  let step := rateControllerStep gen loop.rateController loop.ctx.rateDesired loop.ctx.gyro
    loop.ctx.dt integrate
  { loop :=
      { loop with
        rateController := step.2
        ctx :=
          { loop.ctx with
            throttleInput := throttleInput
            throttleCmd := throttleCmd
            rateCmd := step.1
            motors := mixQuadX gen throttleCmd step.1 } }
    calls := [.rateControllerStep loop.ctx.rateDesired loop.ctx.gyro loop.ctx.dt integrate]
    result := () }

/-- `rdd2_motor_output_write_all` of `ctx->motors`; `result` is
`motor_signal_timestamp_ns`. -/
def writeMotors (board : Board) (input : CycleInput F) (armed testMode : Bool)
    (loop : Loop F D R E) : Stage F D R E UInt64 :=
  let write := motorOutputWriteAll board input.atTarget input.motorClock loop.ctx.motors armed
    testMode
  { loop := loop, calls := write.1.map .motor, result := write.2 }

/-- `rdd2_motor_output_write_all_raw` of `ctx->raw_test`. -/
def writeMotorsRaw (board : Board) (input : CycleInput F) (loop : Loop F D R E) :
    Stage F D R E UInt64 :=
  let write := motorOutputWriteAllRaw board input.atTarget input.motorClock loop.ctx.rawTest
  { loop := loop, calls := write.1.map .motor, result := write.2 }

/-- The normal exit: the controllers run and the motors get what they
command. -/
def fly (gen : Generated D R E) (board : Board) (input : CycleInput F)
    (runAttitudeUpdate controllerResetRequired : Bool) (attitudeDt : F) (loop : Loop F D R E) :
    Stage F D R E UInt64 :=
  let desired := desireRates gen runAttitudeUpdate controllerResetRequired attitudeDt loop
  let mixed := mixMotors gen desired.loop
  let written := writeMotors board input mixed.loop.ctx.status.armed false mixed.loop
  { written with calls := desired.calls ++ mixed.calls ++ written.calls }

/-- The four exits of the cycle: motor test, raw test, failsafe, normal.
Both test getters copy their values whether or not the test is active. -/
def commandMotors (gen : Generated D R E) (board : Board) (input : CycleInput F)
    (runAttitudeUpdate controllerResetRequired : Bool) (attitudeDt : F) (loop : Loop F D R E) :
    Stage F D R E UInt64 :=
  let test := motorTestGet input.motorTest
  let loop := { loop with ctx := { loop.ctx with motors := test.2 } }
  if test.1 then writeMotors board input true true loop
  else
    let rawTest := motorTestGet input.motorRawTest
    let loop := { loop with ctx := { loop.ctx with rawTest := rawTest.2 } }
    if rawTest.1 then writeMotorsRaw board input loop
    else if !loop.ctx.status.imuOk || loop.ctx.rcStale then
      writeMotors board input false false loop
    else fly gen board input runAttitudeUpdate controllerResetRequired attitudeDt loop

/-! ## End of the cycle -/

def imuToMotorLatencyUs (board : Board) (imuInterruptTimestampNs motorSignalTimestampNs : UInt64) :
    UInt32 :=
  if board.lockstep then 0
  else if imuInterruptTimestampNs = 0 ∨ motorSignalTimestampNs = 0 ∨
      motorSignalTimestampNs ≤ imuInterruptTimestampNs then 0
  else
    let latencyNs := motorSignalTimestampNs - imuInterruptTimestampNs
    if latencyNs ≥ 4294967295 * 1000 then 4294967295 else (latencyNs / 1000).toUInt32

def publishFlightState (board : Board) (atTarget : Bool) (loop : Loop F D R E) :
    Stage F D R E Unit :=
  if board.lockstep && !atTarget then { loop := loop, calls := [], result := () }
  else
    let expired := loopDividerExpired loop.publishCountdown flightStatePublishDiv
    let ctx := loop.ctx
    { loop := { loop with publishCountdown := expired.2 }
      calls :=
        if expired.1 then
          [.flightStatePublish ctx.gyro ctx.status ctx.attitude ctx.attitudeDesired
            ctx.rateDesired ctx.imuToMotorLatencyUs]
        else []
      result := () }

def finalizeCycle (board : Board) (input : CycleInput F) (motorSignalTimestampNs : UInt64)
    (loop : Loop F D R E) : Stage F D R E Unit :=
  let latency :=
    imuToMotorLatencyUs board input.imuInterruptTimestampNs motorSignalTimestampNs
  let published := publishFlightState board input.atTarget
    { loop with ctx := { loop.ctx with imuToMotorLatencyUs := latency } }
  { published with calls := .imuLatencyStatsUpdate latency :: published.calls }

/-! ## The cycle -/

/-- The loop once the inputs are in, arming is decided and the sample is
accumulated; `result` is `run_attitude_update`. -/
def beginCycle (gen : Generated D R E) (board : Board) (loop : Loop F D R E)
    (input : CycleInput F) : Stage F D R E Bool :=
  let ctx := takeInputs gen board loop.ctx input
  let due := attitudeUpdateDue ctx.flightMode ctx.status.armed loop.autolevelAttitudeCountdown
    loop.backgroundAttitudeCountdown
  { loop := accumulateSample
      { loop with
        ctx := ctx
        autolevelAttitudeCountdown := due.2.1
        backgroundAttitudeCountdown := due.2.2 }
    calls := []
    result := due.1 }

/-- `controller_reset_required`: `previous` is the loop at the top of the
cycle. -/
def controllerResetRequired (previous begun : Loop F D R E) : Bool :=
  !begun.ctx.status.armed || !previous.ctx.status.armed ||
    begun.ctx.flightMode != previous.ctx.flightMode

/-- The body of the loop. -/
def cycle (gen : Generated D R E) (board : Board) (loop : Loop F D R E) (input : CycleInput F) :
    Loop F D R E × CycleReport F :=
  let begun := beginCycle gen board loop input
  let resetRequired := controllerResetRequired loop begun.loop
  let estimated := updateEstimator gen begun.result begun.loop
  let reset := resetControllers resetRequired estimated.loop
  let commanded :=
    commandMotors gen board input begun.result resetRequired estimated.result reset.loop
  let finished := finalizeCycle board input commanded.result commanded.loop
  (finished.loop,
    { imuOk := finished.loop.ctx.status.imuOk
      armed := finished.loop.ctx.status.armed
      flightMode := finished.loop.ctx.flightMode
      calls := estimated.calls ++ reset.calls ++ commanded.calls ++ finished.calls })

def loopAfter (gen : Generated D R E) (board : Board) (inputs : List (CycleInput F)) :
    Loop F D R E :=
  Mealy.after (cycle gen board) (bootLoop gen) inputs

def reports (gen : Generated D R E) (board : Board) (inputs : List (CycleInput F)) :
    List (CycleReport F) :=
  Mealy.outputs (cycle gen board) (bootLoop gen) inputs

end Cycle

end Rdd2
