import Rdd2.ControlTypes

/-!
# Controllers and estimator

`rate_control.c`, `attitude_control.c` and `attitude_estimator.c`, with the
wrappers of `rdd2_efmi_control.h`. All three drive code generated at build
time; its entry points are the fields of `Generated`, and what the
structures of that code hold beyond the members named here is `R` and `E`.
-/

namespace Rdd2

/-! ## Generated code -/

/-- `Vehicles_Rdd2_ControllerState`: the members the firmware names, and
the rest. -/
structure ControllerState (D R : Type) where
  rcRollUs : D
  rcPitchUs : D
  rcThrottleUs : D
  rcYawUs : D
  rcArmUs : D
  armSwitchHigh : Bool
  throttleInput : D
  throttleInputForCommand : D
  armed : Bool
  throttleCommand : D
  ratePidIntegrate : Bool
  yawRateDesired : D
  acroRateDesiredRoll : D
  acroRateDesiredPitch : D
  acroRateDesiredYaw : D
  attitudeRoll : D
  attitudePitch : D
  attitudeYaw : D
  attitudeDesiredRoll : D
  attitudeDesiredPitch : D
  attitudeDesiredYaw : D
  throttle : D
  rateCmdRoll : D
  rateCmdPitch : D
  rateCmdYaw : D
  motor0 : D
  motor1 : D
  motor2 : D
  motor3 : D
  kp : D
  ki : D
  kd : D
  iLimit : D
  outputLimit : D
  samplePeriod : D
  setpoint : D
  measurement : D
  integrate : D
  previousMeasFiltValid : Bool
  previousMeasFilt : D
  previousEInt : D
  eInt : D
  measFilt : D
  derivative : D
  pidError : D
  pidOutput : D
  measFiltValid : Bool
  rest : R

/-- `Estimation_ComplementaryAttitudeState`, in the same way. -/
structure EstimatorState (D E : Type) where
  gyroRadS : Fin 3 → D
  accelMS2 : Fin 3 → D
  samplePeriod : D
  reset : Bool
  eulerRad : Fin 3 → D
  rest : E

/-- The entry points of the generated code, and the all-zero rest of its
structures. -/
structure Generated (D R E : Type) where
  zeroRest : R
  startup : ControllerState D R → ControllerState D R
  recalibrate : ControllerState D R → ControllerState D R
  dostep : ControllerState D R → ControllerState D R
  estimatorZeroRest : E
  estimatorStartup : EstimatorState D E → EstimatorState D E
  estimatorRecalibrate : EstimatorState D E → EstimatorState D E
  estimatorDostep : EstimatorState D E → EstimatorState D E

section Model

variable {F D R E : Type} [CFloat F] [CFloat D] [CDouble F D] (gen : Generated D R E)

/-! ## `rdd2_efmi_control.h` -/

/-- `(Vehicles_Rdd2_ControllerState){0}` -/
def ControllerState.zero : ControllerState D R :=
  let z : D := CFloat.lit 0
  { rcRollUs := z, rcPitchUs := z, rcThrottleUs := z, rcYawUs := z, rcArmUs := z
    armSwitchHigh := false
    throttleInput := z, throttleInputForCommand := z, armed := false, throttleCommand := z
    ratePidIntegrate := false, yawRateDesired := z
    acroRateDesiredRoll := z, acroRateDesiredPitch := z, acroRateDesiredYaw := z
    attitudeRoll := z, attitudePitch := z, attitudeYaw := z
    attitudeDesiredRoll := z, attitudeDesiredPitch := z, attitudeDesiredYaw := z
    throttle := z, rateCmdRoll := z, rateCmdPitch := z, rateCmdYaw := z
    motor0 := z, motor1 := z, motor2 := z, motor3 := z
    kp := z, ki := z, kd := z, iLimit := z, outputLimit := z, samplePeriod := z
    setpoint := z, measurement := z, integrate := z
    previousMeasFiltValid := false, previousMeasFilt := z, previousEInt := z, eInt := z
    measFilt := z, derivative := z, pidError := z, pidOutput := z, measFiltValid := false
    rest := gen.zeroRest }

def efmiControllerInit : ControllerState D R :=
  gen.recalibrate (gen.startup (ControllerState.zero gen))

def efmiPidAxisReset (state : ControllerState D R) : ControllerState D R :=
  { state with
    setpoint := CFloat.lit 0
    measurement := CFloat.lit 0
    integrate := CFloat.lit 0
    previousMeasFiltValid := false
    previousMeasFilt := CFloat.lit 0
    previousEInt := CFloat.lit 0
    eInt := CFloat.lit 0
    measFilt := CFloat.lit 0
    derivative := CFloat.lit 0
    pidError := CFloat.lit 0
    pidOutput := CFloat.lit 0
    measFiltValid := false }

def efmiPidAxisStep (state : ControllerState D R) (setpoint measurement dt : F)
    (integrate : Bool) : F × ControllerState D R :=
  let state := { state with
    setpoint := CDouble.widen setpoint
    measurement := CDouble.widen measurement
    integrate := if integrate then CFloat.lit 1 else CFloat.lit 0
    samplePeriod := CDouble.widen dt }
  let state := gen.dostep state
  (CDouble.narrow state.pidOutput, state)

def controllerFromRc (rc : RcChannels) : ControllerState D R :=
  { efmiControllerInit gen with
    rcRollUs := CFloat.lit (rc rcRollIndex)
    rcPitchUs := CFloat.lit (rc rcPitchIndex)
    rcThrottleUs := CFloat.lit (rc rcThrottleIndex)
    rcYawUs := CFloat.lit (rc rcYawIndex)
    rcArmUs := CFloat.lit (rc rcArmIndex) }

/-! ## `rate_control.c` -/

structure RateController (D R : Type) where
  roll : ControllerState D R
  pitch : ControllerState D R
  yaw : ControllerState D R

def rateControllerReset (controller : RateController D R) : RateController D R where
  roll := efmiPidAxisReset controller.roll
  pitch := efmiPidAxisReset controller.pitch
  yaw := efmiPidAxisReset controller.yaw

variable (F) in
def rateControllerInit : RateController D R :=
  let axis := efmiControllerInit gen
  rateControllerReset
    { roll := axis
      pitch := axis
      yaw := gen.recalibrate { axis with
        kp := CDouble.widen (CFloat.lit (1 / 5) : F)
        ki := CDouble.widen (CFloat.lit (1 / 5) : F)
        kd := CDouble.widen (CFloat.lit 0 : F) } }

def rateArmSwitchHigh (rc : RcChannels) : Bool :=
  (gen.dostep (controllerFromRc gen rc)).armSwitchHigh

def rateThrottleUs (rc : RcChannels) : Int := rc rcThrottleIndex

def rateThrottleInputFromRc (rc : RcChannels) : F :=
  CDouble.narrow (gen.dostep (controllerFromRc gen rc)).throttleInput

/-- The step behind `rdd2_rate_throttle_command` and
`rdd2_rate_pid_integrate`. -/
def throttleStep (throttleInput : F) (armed : Bool) : ControllerState D R :=
  gen.dostep { efmiControllerInit gen with
    throttleInputForCommand := CDouble.widen throttleInput
    armed := armed }

def rateThrottleCommand (throttleInput : F) (armed : Bool) : F :=
  CDouble.narrow (throttleStep gen throttleInput armed).throttleCommand

def ratePidIntegrate (throttleInput : F) (armed : Bool) : Bool :=
  (throttleStep gen throttleInput armed).ratePidIntegrate

def rateYawDesiredFromRc (rc : RcChannels) : F :=
  CDouble.narrow (gen.dostep (controllerFromRc gen rc)).yawRateDesired

def rateDesiredFromRc (rc : RcChannels) : RateTriplet F :=
  let state := gen.dostep (controllerFromRc gen rc)
  { roll := CDouble.narrow state.acroRateDesiredRoll
    pitch := CDouble.narrow state.acroRateDesiredPitch
    yaw := CDouble.narrow state.acroRateDesiredYaw }

/-- `rdd2_rate_controller_step`: the command, and the controller after it. -/
def rateControllerStep (controller : RateController D R) (rateDesired : RateTriplet F)
    (gyro : Vec3f F) (dt : F) (integrate : Bool) : RateTriplet F × RateController D R :=
  if CFloat.le dt (CFloat.lit 0) then (RateTriplet.zero F, controller)
  else
    let roll := efmiPidAxisStep gen controller.roll rateDesired.roll gyro.x dt integrate
    let pitch := efmiPidAxisStep gen controller.pitch rateDesired.pitch gyro.y dt integrate
    let yaw := efmiPidAxisStep gen controller.yaw rateDesired.yaw gyro.z dt integrate
    (⟨roll.1, pitch.1, yaw.1⟩, ⟨roll.2, pitch.2, yaw.2⟩)

def mixQuadX (throttle : F) (rateCmd : RateTriplet F) : MotorValues F :=
  let state := gen.dostep { efmiControllerInit gen with
    throttle := CDouble.widen throttle
    rateCmdRoll := CDouble.widen rateCmd.roll
    rateCmdPitch := CDouble.widen rateCmd.pitch
    rateCmdYaw := CDouble.widen rateCmd.yaw }
  fun
    | 0 => CDouble.narrow state.motor0
    | 1 => CDouble.narrow state.motor1
    | 2 => CDouble.narrow state.motor2
    | 3 => CDouble.narrow state.motor3

/-! ## `attitude_control.c` -/

structure AttitudeController (D R : Type) where
  roll : ControllerState D R
  pitch : ControllerState D R

def attitudeControllerReset (controller : AttitudeController D R) : AttitudeController D R where
  roll := efmiPidAxisReset controller.roll
  pitch := efmiPidAxisReset controller.pitch

variable (F) in
/-- `rdd2_attitude_controller_init`; both axes have the same gains. -/
def attitudeControllerInit : AttitudeController D R :=
  let axis := gen.recalibrate { efmiControllerInit gen with
    kp := CDouble.widen (CFloat.lit 4 : F)
    ki := CDouble.widen (CFloat.lit 0 : F)
    kd := CDouble.widen (CFloat.lit 0 : F)
    iLimit := CDouble.widen (CFloat.lit 0 : F)
    outputLimit := CDouble.widen (CFloat.lit 6 : F) }
  attitudeControllerReset { roll := axis, pitch := axis }

def attitudeDesiredFromRc (rc : RcChannels) (attitude : AttitudeEuler F) : AttitudeEuler F :=
  let state := gen.dostep { controllerFromRc gen rc with
    attitudeRoll := CDouble.widen attitude.roll
    attitudePitch := CDouble.widen attitude.pitch
    attitudeYaw := CDouble.widen attitude.yaw }
  { roll := CDouble.narrow state.attitudeDesiredRoll
    pitch := CDouble.narrow state.attitudeDesiredPitch
    yaw := CDouble.narrow state.attitudeDesiredYaw }

/-- `rdd2_attitude_controller_step`: what becomes of the desired rates, and
the controller after it. -/
def attitudeControllerStep (controller : AttitudeController D R)
    (attitude attitudeDesired : AttitudeEuler F) (rc : RcChannels) (dt : F)
    (rateDesired : RateTriplet F) : RateTriplet F × AttitudeController D R :=
  if CFloat.le dt (CFloat.lit 0) then (rateDesired, controller)
  else
    let roll := efmiPidAxisStep gen controller.roll attitudeDesired.roll attitude.roll dt false
    let pitch :=
      efmiPidAxisStep gen controller.pitch attitudeDesired.pitch attitude.pitch dt false
    (⟨roll.1, pitch.1, rateYawDesiredFromRc gen rc⟩, ⟨roll.2, pitch.2⟩)

/-! ## `attitude_estimator.c` -/

def setInputs (model : EstimatorState D E) (gyro accel : Vec3f F) : EstimatorState D E :=
  { model with
    gyroRadS := fun
      | 0 => CDouble.widen gyro.x
      | 1 => CDouble.widen gyro.y
      | 2 => CDouble.widen gyro.z
    accelMS2 := fun
      | 0 => CDouble.widen accel.x
      | 1 => CDouble.widen accel.y
      | 2 => CDouble.widen accel.z }

/-- `rdd2_attitude_estimator_init`, of the zeroed static. -/
def attitudeEstimatorInit : EstimatorState D E :=
  let z : D := CFloat.lit 0
  gen.estimatorRecalibrate (gen.estimatorStartup
    ⟨fun _ => z, fun _ => z, z, false, fun _ => z, gen.estimatorZeroRest⟩)

def attitudeEstimatorResetFromAccel (estimator : EstimatorState D E) (accel : Vec3f F) :
    EstimatorState D E :=
  gen.estimatorDostep { setInputs estimator (Vec3f.zero F) accel with reset := true }

def attitudeEstimatorPredict (estimator : EstimatorState D E) (gyro accel : Vec3f F) (dt : F) :
    EstimatorState D E :=
  if CFloat.le dt (CFloat.lit 0) then estimator
  else
    gen.estimatorDostep { setInputs estimator gyro accel with
      samplePeriod := CDouble.widen dt
      reset := false }

def attitudeEstimatorGetAttitude (estimator : EstimatorState D E) : AttitudeEuler F where
  roll := CDouble.narrow (estimator.eulerRad 0)
  pitch := CDouble.narrow (estimator.eulerRad 1)
  yaw := CDouble.narrow (estimator.eulerRad 2)

end Model

end Rdd2
