import Rdd2.Lockstep

/-!
# What a tick publishes

A cycle of the lockstep build asks for no publication until its input's time
is reached, and then for one of the motor outputs and, every eighth time, one
of the flight state (`cycle_publications`). The count of the times is
`publish_countdown`, which no other tick touches (`cycle_publishCountdown`).
-/

namespace Rdd2.Lockstep

section Tick

variable {F D R E : Type}

theorem publications_append (n : Nat) (b : Bool) (xs ys : List (Call F)) :
    publications n b (xs ++ ys) = publications n b xs ++ publications n b ys := by
  simp [publications]

/-! ## Publications of a stage -/

theorem updateEstimator_publications [CFloat F] [CDouble F D] (gen : Generated D R E) (n : Nat)
    (b due : Bool) (loop : Loop F D R E) :
    publications n b (updateEstimator gen due loop).calls = [] := by
  unfold updateEstimator
  split
  · split <;> rfl
  · split <;> rfl

theorem resetControllers_publications [CFloat D] (n : Nat) (b required : Bool)
    (loop : Loop F D R E) :
    publications n b (resetControllers required loop).calls = [] := by
  unfold resetControllers
  split <;> rfl

/-- One publication of motor outputs at the target, none before it. -/
def MotorOnly (n : Nat) (atTarget : Bool) (calls : List (Call F)) : Prop :=
  ∃ motor : Call F, publications n atTarget calls =
    if atTarget then [(.pwmSignalOutputs, ⟨n, true, motor⟩)] else []

theorem writeMotors_publications [CFloat F] (n : Nat) (input : CycleInput F)
    (armed testMode : Bool) (loop : Loop F D R E) :
    MotorOnly n input.atTarget (writeMotors lockstepBoard input armed testMode loop).calls := by
  unfold writeMotors motorOutputWriteAll
  cases input.atTarget with
  | false => exact ⟨.attitudeControllerReset, rfl⟩
  | true => exact ⟨_, rfl⟩

theorem writeMotorsRaw_publications [CFloat F] (n : Nat) (input : CycleInput F)
    (loop : Loop F D R E) :
    MotorOnly n input.atTarget (writeMotorsRaw lockstepBoard input loop).calls := by
  unfold writeMotorsRaw motorOutputWriteAllRaw
  cases input.atTarget with
  | false => exact ⟨.attitudeControllerReset, rfl⟩
  | true => exact ⟨_, rfl⟩

def flightPublications (n countdown : Nat) (flight : Call F) : List (Topic × Publication F) :=
  if countdown = 0 then flightTopics.map fun topic => (topic, ⟨n, true, flight⟩) else []

theorem finalizeCycle_publications (n : Nat) (input : CycleInput F) (timestampNs : UInt64)
    (loop : Loop F D R E) :
    ∃ flight : Call F,
      publications n input.atTarget (finalizeCycle lockstepBoard input timestampNs loop).calls =
        if input.atTarget then flightPublications n loop.publishCountdown flight else [] := by
  unfold finalizeCycle publishFlightState loopDividerExpired flightPublications
  cases input.atTarget with
  | false => exact ⟨.attitudeControllerReset, rfl⟩
  | true =>
      cases loop.publishCountdown with
      | zero => exact ⟨_, rfl⟩
      | succ countdown => exact ⟨.attitudeControllerReset, rfl⟩

/-! ## The countdown in a stage -/

theorem beginCycle_publishCountdown [CFloat F] [CFloat D] (gen : Generated D R E)
    (loop : Loop F D R E) (input : CycleInput F) :
    (beginCycle gen lockstepBoard loop input).loop.publishCountdown = loop.publishCountdown := by
  unfold beginCycle accumulateSample
  dsimp only
  split <;> rfl

theorem updateEstimator_publishCountdown [CFloat F] [CDouble F D] (gen : Generated D R E)
    (due : Bool) (loop : Loop F D R E) :
    (updateEstimator gen due loop).loop.publishCountdown = loop.publishCountdown := by
  unfold updateEstimator
  split
  · split <;> rfl
  · split <;> rfl

theorem resetControllers_publishCountdown [CFloat D] (required : Bool) (loop : Loop F D R E) :
    (resetControllers required loop).loop.publishCountdown = loop.publishCountdown := by
  unfold resetControllers
  split <;> rfl

variable [CFloat F] [CFloat D] [CDouble F D] (gen : Generated D R E)

/-! ## Commands -/

theorem desireRates_publications (n : Nat) (b due required : Bool) (attitudeDt : F)
    (loop : Loop F D R E) :
    publications n b (desireRates gen due required attitudeDt loop).calls = [] := by
  unfold desireRates
  split
  · unfold stepAttitude
    dsimp only
    split <;> rfl
  · rfl

theorem commandMotors_publications (n : Nat) (input : CycleInput F) (due required : Bool)
    (attitudeDt : F) (loop : Loop F D R E) :
    MotorOnly n input.atTarget
      (commandMotors gen lockstepBoard input due required attitudeDt loop).calls := by
  unfold commandMotors
  dsimp only
  split
  · exact writeMotors_publications n input _ _ _
  · split
    · exact writeMotorsRaw_publications n input _
    · split
      · exact writeMotors_publications n input _ _ _
      · unfold fly
        dsimp only
        obtain ⟨motor, hmotor⟩ := writeMotors_publications n input _ false (mixMotors gen _).loop
        refine ⟨motor, ?_⟩
        rw [publications_append, publications_append, desireRates_publications]
        exact hmotor

theorem desireRates_publishCountdown (due required : Bool) (attitudeDt : F)
    (loop : Loop F D R E) :
    (desireRates gen due required attitudeDt loop).loop.publishCountdown
      = loop.publishCountdown := by
  unfold desireRates
  split
  · unfold stepAttitude
    dsimp only
    split <;> rfl
  · rfl

theorem commandMotors_publishCountdown (input : CycleInput F) (due required : Bool)
    (attitudeDt : F) (loop : Loop F D R E) :
    (commandMotors gen lockstepBoard input due required attitudeDt loop).loop.publishCountdown
      = loop.publishCountdown := by
  unfold commandMotors
  dsimp only
  split
  · rfl
  · split
    · rfl
    · split
      · rfl
      · exact desireRates_publishCountdown gen due required attitudeDt _

/-- The loop when `finalize_cycle` is called. -/
def commandedLoop (loop : Loop F D R E) (input : CycleInput F) : Stage F D R E UInt64 :=
  let begun := beginCycle gen lockstepBoard loop input
  let resetRequired := controllerResetRequired loop begun.loop
  let estimated := updateEstimator gen begun.result begun.loop
  let reset := resetControllers resetRequired estimated.loop
  commandMotors gen lockstepBoard input begun.result resetRequired estimated.result reset.loop

theorem commandedLoop_publishCountdown (loop : Loop F D R E) (input : CycleInput F) :
    (commandedLoop gen loop input).loop.publishCountdown = loop.publishCountdown := by
  unfold commandedLoop
  dsimp only
  rw [commandMotors_publishCountdown, resetControllers_publishCountdown,
    updateEstimator_publishCountdown, beginCycle_publishCountdown]

/-! ## The cycle -/

/-- Before the target a cycle publishes nothing; at the target it publishes
motor outputs and, when the countdown is over, the flight state. -/
theorem cycle_publications (n : Nat) (loop : Loop F D R E) (input : CycleInput F) :
    ∃ motor flight : Call F,
      publications n input.atTarget (cycle gen lockstepBoard loop input).2.calls =
        if input.atTarget then
          (.pwmSignalOutputs, ⟨n, true, motor⟩)
            :: flightPublications n loop.publishCountdown flight
        else [] := by
  have hcalls : (cycle gen lockstepBoard loop input).2.calls =
      (updateEstimator gen (beginCycle gen lockstepBoard loop input).result
        (beginCycle gen lockstepBoard loop input).loop).calls
      ++ (resetControllers _ _).calls ++ (commandedLoop gen loop input).calls
      ++ (finalizeCycle lockstepBoard input (commandedLoop gen loop input).result
        (commandedLoop gen loop input).loop).calls := rfl
  obtain ⟨motor, hmotor⟩ : MotorOnly n input.atTarget (commandedLoop gen loop input).calls :=
    commandMotors_publications gen n input _ _ _ _
  obtain ⟨flight, hflight⟩ := finalizeCycle_publications n input
    (commandedLoop gen loop input).result (commandedLoop gen loop input).loop
  rw [commandedLoop_publishCountdown] at hflight
  refine ⟨motor, flight, ?_⟩
  rw [hcalls, publications_append, publications_append, publications_append,
    updateEstimator_publications, resetControllers_publications, hmotor, hflight]
  cases input.atTarget <;> rfl

theorem cycle_publishCountdown (loop : Loop F D R E) (input : CycleInput F) :
    (cycle gen lockstepBoard loop input).1.publishCountdown =
      if input.atTarget then (loopDividerExpired loop.publishCountdown flightStatePublishDiv).2
      else loop.publishCountdown := by
  have hloop : (cycle gen lockstepBoard loop input).1 =
      (finalizeCycle lockstepBoard input (commandedLoop gen loop input).result
        (commandedLoop gen loop input).loop).loop := rfl
  rw [hloop, ← commandedLoop_publishCountdown gen loop input]
  unfold finalizeCycle publishFlightState
  cases input.atTarget <;> rfl

theorem Control.fly_pc (c : Control F D R E) {input : CycleInput F}
    (hinput : input.atTarget = c.atTarget) :
    ∃ motor flight : Call F, (c.fly gen input).pc = .publish (if c.atTarget then
      (.pwmSignalOutputs, ⟨c.consumed, true, motor⟩)
        :: flightPublications c.consumed c.loop.publishCountdown flight else []) := by
  obtain ⟨motor, flight, hpub⟩ := cycle_publications gen c.consumed c.loop input
  refine ⟨motor, flight, ?_⟩
  rw [← hinput, ← hpub]
  rfl

end Tick

end Rdd2.Lockstep
