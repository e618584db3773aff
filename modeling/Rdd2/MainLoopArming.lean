import Rdd2.MainLoopStages

/-!
# Motor output and arming

No motor turns without arming, over whole runs. In one cycle the only exits
that send a throttle are the two motor tests and the armed normal exit; and
the armed flag, which every cycle computes again, was set in a cycle with
the throttle low and has been confirmed in every cycle since
(`Mealy.since_rise`).
-/

namespace Rdd2

variable {F D R E : Type}

def dshotThrottles (calls : List (Call F)) : List (Fin 4 × UInt16) :=
  calls.filterMap fun
    | .motor (.dshotDataSet channel throttle) => some (channel, throttle)
    | _ => none

theorem mem_dshotThrottles {calls : List (Call F)} {channel : Fin 4} {throttle : UInt16} :
    (channel, throttle) ∈ dshotThrottles calls ↔
      Call.motor (.dshotDataSet channel throttle) ∈ calls := by
  unfold dshotThrottles
  rw [List.mem_filterMap]
  constructor
  · rintro ⟨call, hmem, hcall⟩
    split at hcall
    · cases hcall
      exact hmem
    · cases hcall
  · intro h
    exact ⟨_, h, rfl⟩

theorem dshotThrottles_append (a b : List (Call F)) :
    dshotThrottles (a ++ b) = dshotThrottles a ++ dshotThrottles b :=
  List.filterMap_append

/-! ## Throttles of one stage -/

@[simp] theorem updateEstimator_throttles [CFloat F] [CDouble F D] (gen : Generated D R E)
    (due : Bool) (loop : Loop F D R E) :
    dshotThrottles (updateEstimator gen due loop).calls = [] := by
  unfold updateEstimator
  split
  · split <;> rfl
  · split <;> rfl

@[simp] theorem resetControllers_throttles [CFloat D] (required : Bool)
    (loop : Loop F D R E) :
    dshotThrottles (resetControllers required loop).calls = [] := by
  unfold resetControllers
  split <;> rfl

@[simp] theorem finalizeCycle_throttles (board : Board) (input : CycleInput F)
    (timestampNs : UInt64) (loop : Loop F D R E) :
    dshotThrottles (finalizeCycle board input timestampNs loop).calls = [] := by
  simp only [finalizeCycle, publishFlightState]
  split
  · rfl
  · dsimp only
    split <;> rfl

/-- A write of `ctx->motors` that is not armed stops every motor. -/
theorem writeMotors_unarmed [CFloat F] (board : Board) (input : CycleInput F) {testMode : Bool}
    {loop : Loop F D R E} {channel : Fin 4} {throttle : UInt16}
    (h : (channel, throttle) ∈
      dshotThrottles (writeMotors board input false testMode loop).calls) :
    throttle = dshotDisarmed := by
  rw [mem_dshotThrottles] at h
  obtain ⟨call, hmem, hcall⟩ := List.mem_map.mp h
  cases hcall
  exact motorOutputWriteAll_unarmed hmem

section Arming

variable [CFloat F] [CFloat D] [CDouble F D] (gen : Generated D R E) (board : Board)
  (input : CycleInput F)

/-! ## Arming -/

/-- What must hold in a cycle for the vehicle to be armed in it. -/
structure FlightReady : Prop where
  imuOk : input.imuOk = true
  rcValid : input.rcValid = true
  rcFresh : input.nowMs - input.rcStampMs ≤ rcStaleTimeoutMs
  armSwitch : rateArmSwitchHigh gen input.rc = true

/-- A cycle that ends armed is ready for flight, and was armed before
unless the throttle is low in it. -/
theorem cycle_armed_ready (hboard : board.lockstep = false) {loop : Loop F D R E}
    (h : (cycle gen board loop input).1.ctx.status.armed = true) :
    FlightReady gen input ∧
      (loop.ctx.status.armed = true ∨ input.rc rcThrottleIndex ≤ throttleArmMax) := by
  rw [cycle_armed] at h
  simp only [arms, rcStaleFrom, hboard, Bool.and_eq_true, Bool.or_eq_true, Bool.not_eq_true',
    Bool.or_eq_false_iff, decide_eq_true_eq, decide_eq_false_iff_not, Bool.false_eq_true,
    if_false, Bool.not_eq_false', not_lt, gt_iff_lt] at h
  obtain ⟨⟨⟨himu, hvalid, hfresh⟩, hswitch⟩, hthrottle⟩ := h
  exact ⟨⟨himu, hvalid, hfresh, hswitch⟩, hthrottle⟩

/-! ## Throttles of one cycle -/

@[simp] theorem stepAttitude_throttles (due required : Bool) (attitudeDt : F)
    (loop : Loop F D R E) :
    dshotThrottles (stepAttitude gen due required attitudeDt loop).calls = [] := by
  unfold stepAttitude
  dsimp only
  split <;> rfl

@[simp] theorem desireRates_throttles (due required : Bool) (attitudeDt : F)
    (loop : Loop F D R E) :
    dshotThrottles (desireRates gen due required attitudeDt loop).calls = [] := by
  unfold desireRates
  split
  · exact stepAttitude_throttles gen due required attitudeDt loop
  · rfl

/-- Without a motor test a throttle is sent only if armed: the failsafe
exit writes unarmed, and the normal exit with the flag itself. -/
theorem commandMotors_armed {due required : Bool} {attitudeDt : F} {loop : Loop F D R E}
    (htest : input.motorTest.active = false) (hraw : input.motorRawTest.active = false)
    {channel : Fin 4} {throttle : UInt16}
    (h : (channel, throttle) ∈
      dshotThrottles (commandMotors gen board input due required attitudeDt loop).calls)
    (hthrottle : throttle ≠ dshotDisarmed) : loop.ctx.status.armed = true := by
  by_contra harmed
  rw [Bool.not_eq_true] at harmed
  apply hthrottle
  unfold commandMotors motorTestGet at h
  simp only [htest, hraw, Bool.false_eq_true, if_false] at h
  split at h
  · exact writeMotors_unarmed board input h
  · simp only [fly, dshotThrottles_append, desireRates_throttles, List.nil_append] at h
    rw [((desireRates_keeps gen _ _ _ _).trans (mixMotors_keeps gen _)).status, harmed] at h
    exact writeMotors_unarmed board input h

/-- Without a motor test, a cycle that sends a throttle ends armed. -/
theorem cycle_throttle {loop : Loop F D R E} (htest : input.motorTest.active = false)
    (hraw : input.motorRawTest.active = false) {channel : Fin 4} {throttle : UInt16}
    (h : (channel, throttle) ∈ dshotThrottles (cycle gen board loop input).2.calls)
    (hthrottle : throttle ≠ dshotDisarmed) :
    (cycle gen board loop input).1.ctx.status.armed = true := by
  simp only [cycle, dshotThrottles_append, updateEstimator_throttles, resetControllers_throttles,
    finalizeCycle_throttles, List.nil_append, List.append_nil] at h
  have harmed := commandMotors_armed gen board input htest hraw h hthrottle
  rw [(resetControllers_keeps _ _).status] at harmed
  rw [(cycle_keeps_estimate gen board input loop).status]
  exact harmed

/-! ## Throttles of a run -/

/-- An armed loop was armed by a cycle with the throttle low, and every
cycle since was ready for flight. -/
theorem armed_since (hboard : board.lockstep = false) {inputs : List (CycleInput F)}
    (h : (loopAfter gen board inputs).ctx.status.armed = true) :
    ∃ early low held, inputs = early ++ low :: held ∧
      low.rc rcThrottleIndex ≤ throttleArmMax ∧ ∀ c ∈ low :: held, FlightReady gen c := by
  obtain ⟨early, low, held, rfl, hbefore, harmed, hready⟩ :=
    Mealy.since_rise (cycle gen board) (P := fun loop => loop.ctx.status.armed = true)
      Bool.false_ne_true (fun loop c hc => (cycle_armed_ready gen board c hboard hc).1) h
  refine ⟨early, low, held, rfl, ?_, hready⟩
  rw [Mealy.after_concat] at harmed
  rcases (cycle_armed_ready gen board low hboard harmed).2 with hbefore' | hlow
  · exact absurd hbefore' hbefore
  · exact hlow

/-- In every cycle of every run of the flight build in which no motor test
is active, a channel that gets a throttle other than `DSHOT_DISARMED` is
driven with IMU, RC link and arm switch in order, and there was a cycle
with the throttle channel low since which they have been in order in every
cycle. -/
theorem throttle_gated_by_arming (hboard : board.lockstep = false) (pre : List (CycleInput F))
    (input : CycleInput F) (htest : input.motorTest.active = false)
    (hraw : input.motorRawTest.active = false) (channel : Fin 4) (throttle : UInt16)
    (hcall : (channel, throttle) ∈
      dshotThrottles (cycle gen board (loopAfter gen board pre) input).2.calls)
    (hthrottle : throttle ≠ dshotDisarmed) :
    FlightReady gen input ∧
      ∃ early low held, pre ++ [input] = early ++ low :: held ∧
        low.rc rcThrottleIndex ≤ throttleArmMax ∧ ∀ c ∈ low :: held, FlightReady gen c := by
  have harmed := cycle_throttle gen board input htest hraw hcall hthrottle
  refine ⟨(cycle_armed_ready gen board input hboard harmed).1, ?_⟩
  apply armed_since gen board hboard
  rw [loopAfter_concat]
  exact harmed

end Arming

/-! ## A bench run -/

/-- A controller with the roles of the generated one and the simplest
laws: switches at centre, throttle passed through, proportional control. -/
def benchGenerated : Generated Rat Unit Unit where
  zeroRest := ()
  startup := id
  recalibrate := id
  dostep s :=
    { s with
      armSwitchHigh := decide (s.rcArmUs > 1500)
      throttleInput := (s.rcThrottleUs - 1000) / 1000
      throttleCommand := if s.armed then s.throttleInputForCommand else 0
      ratePidIntegrate := s.armed
      yawRateDesired := (s.rcYawUs - 1500) / 500
      acroRateDesiredRoll := (s.rcRollUs - 1500) / 500
      acroRateDesiredPitch := (s.rcPitchUs - 1500) / 500
      acroRateDesiredYaw := (s.rcYawUs - 1500) / 500
      attitudeDesiredRoll := (s.rcRollUs - 1500) / 500
      attitudeDesiredPitch := (s.rcPitchUs - 1500) / 500
      attitudeDesiredYaw := s.attitudeYaw
      motor0 := s.throttle - s.rateCmdRoll + s.rateCmdPitch + s.rateCmdYaw
      motor1 := s.throttle + s.rateCmdRoll + s.rateCmdPitch - s.rateCmdYaw
      motor2 := s.throttle + s.rateCmdRoll - s.rateCmdPitch + s.rateCmdYaw
      motor3 := s.throttle - s.rateCmdRoll - s.rateCmdPitch - s.rateCmdYaw
      pidOutput := s.kp * (s.setpoint - s.measurement) }
  estimatorZeroRest := ()
  estimatorStartup := id
  estimatorRecalibrate := id
  estimatorDostep s :=
    if s.reset then { s with eulerRad := fun _ => 0 }
    else { s with eulerRad := fun i => s.eulerRad i + s.gyroRadS i * s.samplePeriod }

def benchBoard : Board := ⟨false, true⟩

/-- Sticks centred, arm switch up, level and still; `throttleUs` and the
mode channel as given. -/
def benchInput (throttleUs modeUs : Int) : CycleInput Rat where
  imuOk := true
  gyro := ⟨0, 0, 0⟩
  accel := ⟨0, 0, 10⟩
  dt := 1 / 1600
  imuInterruptTimestampNs := 1000
  rcLinkQuality := 100
  rc
    | 2 => throttleUs
    | 4 => 2000
    | 5 => modeUs
    | _ => 1500
  rcStampMs := 20
  rcValid := true
  nowMs := 30
  motorTest := ⟨false, fun _ => 0⟩
  motorRawTest := ⟨false, fun _ => 0⟩
  motorClock := ⟨2000, 0⟩
  atTarget := true

/-- Armed with the throttle low, then opened to half. -/
theorem throttle_gated_by_arming_half :
    FlightReady benchGenerated (benchInput 1500 1000) ∧
      ∃ early low held,
        [benchInput 1000 1000] ++ [benchInput 1500 1000] = early ++ low :: held ∧
        low.rc rcThrottleIndex ≤ throttleArmMax ∧
        ∀ c ∈ low :: held, FlightReady benchGenerated c :=
  throttle_gated_by_arming benchGenerated benchBoard rfl [benchInput 1000 1000]
    (benchInput 1500 1000) rfl rfl 0 1048 (by decide +kernel) (by decide)

end Rdd2
