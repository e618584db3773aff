import Rdd2.Guarded
import Rdd2.MainLoop

/-!
# The lockstep exchange

Two threads of the lockstep build. The coordinator (`direct_thread` and
`fastdyn_thread`, which differ in where the shared memory lives) takes an
input from the host, publishes it to the control thread, waits for motor
outputs and answers. The control thread is `main` with the lockstep
`rdd2_imu_stream_wait_next` before each cycle: it sleeps until there is an
input, and then runs as many cycles as it takes to reach the input's time.

A thread is a program counter with its locals; a step of one is one access to
what they share, and the events of a run are the steps in the order they
happen in. A host that goes away sets `terminate`, and a coordinator that polls
in vain looks at it. What either thread can do in a step is said once
(`controlStep_cases`, `coordinatorStep_cases`).

Every publication carries the input it was made for and whether its tick had
reached that input's time. No step reads either.
-/

namespace Rdd2.Lockstep

/-! ## Topics -/

inductive Topic where
  | pwmSignalOutputs
  | vehicleHealth
  | attitudeEstimate
  | attitudeCommand
  | controlLoopMetrics
  deriving DecidableEq, Repr

/-- The topics of `rdd2_topic_flight_state_blob_t`. -/
def flightTopics : List Topic :=
  [.vehicleHealth, .attitudeEstimate, .attitudeCommand, .controlLoopMetrics]

theorem pwmSignalOutputs_notMem : Topic.pwmSignalOutputs ∉ flightTopics := by decide

theorem vehicleHealth_mem : Topic.vehicleHealth ∈ flightTopics := List.mem_cons_self ..

theorem flightTopics_ne {topic : Topic} (h : topic ∈ flightTopics) :
    topic ≠ .pwmSignalOutputs := by
  rintro rfl
  exact pwmSignalOutputs_notMem h

/-- What a `zros_pub_update` publishes, by the call it was made for. -/
structure Publication (F : Type) where
  input : Nat
  atTarget : Bool
  call : Call F

/-- A topic with its newest sample; a topic that was never published has its
initial zeros, which are `none`. -/
structure TopicState (F : Type) where
  count : Nat
  newest : Option (Publication F)

abbrev Topics (F : Type) : Type := Topic → TopicState F

/-- `rdd2_topic_generation` -/
def TopicState.generation {F : Type} (t : TopicState F) : UInt32 := UInt32.ofNat t.count

/-- `zros_pub_update` -/
def Topics.publish {F : Type} (topics : Topics F) (topic : Topic) (p : Publication F) : Topics F :=
  Function.update topics topic ⟨(topics topic).count + 1, some p⟩

/-! ## State -/

/-- `synapse_topic_InertialSampleData_t`, as far as it is decoded. -/
structure InertialSample (F : Type) where
  timestampUs : UInt64
  gyro : Vec3f F
  accel : Vec3f F
  /-- The flags have both `Accel` and `Gyro`. -/
  decodable : Bool

/-- `g_lockstep_input_store` and `g_lockstep_input_sem`. -/
structure InputStore (F : Type) where
  count : Nat
  newest : Option (InertialSample F)
  sem : Bool

def InputStore.generation {F : Type} (store : InputStore F) : UInt32 := UInt32.ofNat store.count

inductive ControlPc (F : Type) where
  /-- At the head of `lockstep_wait_until_controller_tick_ready`. -/
  | loopHead
  /-- In `rdd2_lockstep_input_wait_next`, about to look at the generation. -/
  | waitNext
  /-- In `k_sem_take`. -/
  | semTake
  /-- In `lockstep_latest_sample_get`. -/
  | latestGet
  /-- With a tick to run; `imuOk` is what the wait returned. -/
  | tick (imuOk : Bool)
  /-- With the publications of a tick to make. -/
  | publish (pending : List (Topic × Publication F))

/-- The control thread: the statics of `imu_stream.c` and of `main`, and the
number of the input it last read. -/
structure Control (F D R E : Type) where
  pc : ControlPc F
  imuGeneration : UInt32
  currentBootTimeNs : UInt64
  targetBootTimeNs : UInt64
  gyro : Vec3f F
  accel : Vec3f F
  loop : Loop F D R E
  consumed : Nat

inductive CoordinatorPc where
  /-- In `cerebri_lockstep_sequence_wait`. -/
  | sequenceWait
  /-- In `lockstep_input_store_publish`, before `k_sem_give`. -/
  | semGive
  /-- Polling `rdd2_topic_motor_output_generation`. -/
  | motorGeneration
  /-- In `cerebri_lockstep_sequence_terminated`, after a poll in vain. -/
  | sequenceTerminated
  /-- In `rdd2_topic_motor_output_copy_blob`, with the generation read before. -/
  | motorCopy (generation : UInt32)
  /-- About to read `rdd2_topic_flight_state_generation`. -/
  | flightGeneration
  /-- In `rdd2_topic_flight_state_copy_blob`. -/
  | flightCopy (generation : UInt32)
  /-- Writing the shared memory. -/
  | write
  /-- In `cerebri_lockstep_sequence_respond`. -/
  | respond
  /-- Returned: on an invalid input, an error of the wait, or `terminate`. -/
  | stopped
  deriving DecidableEq, Repr

/-- The topics as the shared memory has them. -/
abbrev Outputs (F : Type) : Type := Topic → Option (Publication F)

/-- The coordinator: its locals, the shared outputs, and the outputs the host
was answered with so far. `flight` is `none` where `flight_len` is zero. -/
structure Coordinator (F : Type) where
  pc : CoordinatorPc
  motorGeneration : UInt32
  flightGeneration : UInt32
  motor : Option (Publication F)
  flight : Option (Outputs F)
  shared : Outputs F
  responses : List (Outputs F)

/-- `terminate` is the word of the shared memory. -/
structure System (F D R E : Type) where
  terminate : Bool
  inputs : InputStore F
  topics : Topics F
  control : Control F D R E
  coordinator : Coordinator F

/-- `rdd2_imu_stream_lockstep_at_target` -/
def Control.atTarget {F D R E : Type} (c : Control F D R E) : Bool :=
  decide (c.currentBootTimeNs ≥ c.targetBootTimeNs)

/-- The lockstep build, its motor topic up. -/
def lockstepBoard : Board := ⟨true, true⟩

def controlPeriodNs : UInt64 := 625000

/-- What the host asks for: whether the manual control decodes, and the
sample. -/
structure Request (F : Type) where
  manualOk : Bool
  sample : InertialSample F

/-- A step of one of the threads. A control step has at hand what a cycle
reads from elsewhere, a coordinator step what the host asks for next. -/
inductive Event (F : Type) where
  | control (env : CycleInput F)
  | coordinator (request : Request F)
  /-- `cerebri_lockstep_sequence_wait` returns an error, `-ECANCELED` or another. -/
  | waitFailed
  /-- The host goes away; `Drop` of its `Transport`. -/
  | terminate

/-! ## The control thread -/

section Steps

variable {F D R E : Type}

/-- The publications a cycle asks for, in order: one of the motor outputs, and
four of the flight state. -/
def publications (input : Nat) (atTarget : Bool) (calls : List (Call F)) :
    List (Topic × Publication F) :=
  calls.flatMap fun call =>
    match call with
    | .motor (.motorOutputPublish _ _) => [(.pwmSignalOutputs, ⟨input, atTarget, call⟩)]
    | .flightStatePublish _ _ _ _ _ _ =>
        flightTopics.map fun topic => (topic, ⟨input, atTarget, call⟩)
    | _ => []

/-- `rdd2_imu_stream_wait_next` once there is time to fly: a controller period,
or what is left of it. -/
def Control.advance (c : Control F D R E) : Control F D R E :=
  let next := c.currentBootTimeNs + controlPeriodNs
  { c with currentBootTimeNs := if next > c.targetBootTimeNs then c.targetBootTimeNs else next }

theorem Control.advance_eq (c : Control F D R E) :
    ∃ time, c.advance = { c with currentBootTimeNs := time } := ⟨_, rfl⟩

@[simp] theorem Control.advance_consumed (c : Control F D R E) :
    c.advance.consumed = c.consumed := by
  obtain ⟨time, h⟩ := c.advance_eq
  rw [h]

@[simp] theorem Control.advance_imuGeneration (c : Control F D R E) :
    c.advance.imuGeneration = c.imuGeneration := by
  obtain ⟨time, h⟩ := c.advance_eq
  rw [h]

@[simp] theorem Control.advance_loop (c : Control F D R E) : c.advance.loop = c.loop := by
  obtain ⟨time, h⟩ := c.advance_eq
  rw [h]

/-- `lockstep_latest_sample_get` and the target it gives. -/
def Control.takeSample (c : Control F D R E) (count : Nat) (sample : InertialSample F) :
    Control F D R E :=
  let target := sample.timestampUs * 1000
  { c with
    gyro := sample.gyro
    accel := sample.accel
    targetBootTimeNs :=
      if target ≤ c.currentBootTimeNs then c.currentBootTimeNs + controlPeriodNs else target
    consumed := count
    pc := .loopHead }

/-! ## The coordinator -/

/-- The shared outputs once they are written: the motor outputs, and the flight state if
`flight_len` says that there is one. -/
def Coordinator.written (c : Coordinator F) : Outputs F := fun topic =>
  if topic = .pwmSignalOutputs then c.motor
  else
    match c.flight with
    | none => c.shared topic
    | some flight => flight topic

def coordinatorStep (s : System F D R E) (request : Request F) : Option (System F D R E) :=
  let c := s.coordinator
  match c.pc with
  | .sequenceWait =>
      if request.manualOk && request.sample.decodable then
        some { s with
          inputs := { s.inputs with count := s.inputs.count + 1, newest := some request.sample }
          coordinator := { c with pc := .semGive } }
      else some { s with coordinator := { c with pc := .stopped } }
  | .semGive =>
      some { s with
        inputs := { s.inputs with sem := true }
        coordinator := { c with pc := .motorGeneration } }
  | .motorGeneration =>
      let generation := (s.topics .pwmSignalOutputs).generation
      if generation = 0 ∨ generation = c.motorGeneration then
        some { s with coordinator := { c with pc := .sequenceTerminated } }
      else some { s with coordinator := { c with pc := .motorCopy generation } }
  | .motorCopy generation =>
      if (s.topics .pwmSignalOutputs).generation = 0 then
        some { s with coordinator := { c with pc := .sequenceTerminated } }
      else
        some { s with coordinator := { c with
          motor := (s.topics .pwmSignalOutputs).newest
          motorGeneration := generation
          pc := .flightGeneration } }
  | .sequenceTerminated =>
      if s.terminate then some { s with coordinator := { c with pc := .stopped } }
      else some { s with coordinator := { c with pc := .motorGeneration } }
  | .flightGeneration =>
      let generation := (s.topics .vehicleHealth).generation
      if generation = 0 ∨ generation = c.flightGeneration then
        some { s with coordinator := { c with flight := none, pc := .write } }
      else some { s with coordinator := { c with pc := .flightCopy generation } }
  | .flightCopy generation =>
      some { s with coordinator := { c with
        flight := some fun topic => (s.topics topic).newest
        flightGeneration := generation
        pc := .write } }
  | .write => some { s with coordinator := { c with shared := c.written, pc := .respond } }
  | .respond =>
      some { s with coordinator := { c with
        responses := c.responses ++ [c.shared]
        pc := .sequenceWait } }
  | .stopped => none

inductive CoordinatorMove (s : System F D R E) (request : Request F) : System F D R E → Prop
  | take (hpc : s.coordinator.pc = .sequenceWait)
      (hok : (request.manualOk && request.sample.decodable) = true) :
      CoordinatorMove s request { s with
        inputs := { s.inputs with count := s.inputs.count + 1, newest := some request.sample }
        coordinator := { s.coordinator with pc := .semGive } }
  | reject (hpc : s.coordinator.pc = .sequenceWait)
      (hbad : (request.manualOk && request.sample.decodable) = false) :
      CoordinatorMove s request { s with coordinator := { s.coordinator with pc := .stopped } }
  | give (hpc : s.coordinator.pc = .semGive) :
      CoordinatorMove s request { s with
        inputs := { s.inputs with sem := true }
        coordinator := { s.coordinator with pc := .motorGeneration } }
  | pollOld (hpc : s.coordinator.pc = .motorGeneration)
      (hold : (s.topics .pwmSignalOutputs).generation = 0 ∨
        (s.topics .pwmSignalOutputs).generation = s.coordinator.motorGeneration) :
      CoordinatorMove s request { s with
        coordinator := { s.coordinator with pc := .sequenceTerminated } }
  | pollNew (hpc : s.coordinator.pc = .motorGeneration)
      (hsome : (s.topics .pwmSignalOutputs).generation ≠ 0)
      (hnew : (s.topics .pwmSignalOutputs).generation ≠ s.coordinator.motorGeneration) :
      CoordinatorMove s request { s with
        coordinator := { s.coordinator with
          pc := .motorCopy (s.topics .pwmSignalOutputs).generation } }
  | copyNone {generation : UInt32} (hpc : s.coordinator.pc = .motorCopy generation)
      (hnone : (s.topics .pwmSignalOutputs).generation = 0) :
      CoordinatorMove s request { s with
        coordinator := { s.coordinator with pc := .sequenceTerminated } }
  | copy {generation : UInt32} (hpc : s.coordinator.pc = .motorCopy generation)
      (hsome : (s.topics .pwmSignalOutputs).generation ≠ 0) :
      CoordinatorMove s request { s with
        coordinator := { s.coordinator with
          motor := (s.topics .pwmSignalOutputs).newest
          motorGeneration := generation
          pc := .flightGeneration } }
  | exit (hpc : s.coordinator.pc = .sequenceTerminated) (hterminate : s.terminate = true) :
      CoordinatorMove s request { s with coordinator := { s.coordinator with pc := .stopped } }
  | again (hpc : s.coordinator.pc = .sequenceTerminated) (hgoing : s.terminate = false) :
      CoordinatorMove s request { s with
        coordinator := { s.coordinator with pc := .motorGeneration } }
  | flightOld (hpc : s.coordinator.pc = .flightGeneration)
      (hold : (s.topics .vehicleHealth).generation = 0 ∨
        (s.topics .vehicleHealth).generation = s.coordinator.flightGeneration) :
      CoordinatorMove s request { s with
        coordinator := { s.coordinator with flight := none, pc := .write } }
  | flightNew (hpc : s.coordinator.pc = .flightGeneration)
      (hsome : (s.topics .vehicleHealth).generation ≠ 0)
      (hnew : (s.topics .vehicleHealth).generation ≠ s.coordinator.flightGeneration) :
      CoordinatorMove s request { s with
        coordinator := { s.coordinator with
          pc := .flightCopy (s.topics .vehicleHealth).generation } }
  | flightCopy {generation : UInt32} (hpc : s.coordinator.pc = .flightCopy generation) :
      CoordinatorMove s request { s with
        coordinator := { s.coordinator with
          flight := some fun topic => (s.topics topic).newest
          flightGeneration := generation
          pc := .write } }
  | write (hpc : s.coordinator.pc = .write) :
      CoordinatorMove s request { s with
        coordinator := { s.coordinator with shared := s.coordinator.written, pc := .respond } }
  | respond (hpc : s.coordinator.pc = .respond) :
      CoordinatorMove s request { s with
        coordinator := { s.coordinator with
          responses := s.coordinator.responses ++ [s.coordinator.shared]
          pc := .sequenceWait } }

theorem coordinatorStep_cases {s t : System F D R E} {request : Request F}
    (hstep : coordinatorStep s request = some t) : CoordinatorMove s request t := by
  cases hpc : s.coordinator.pc with
  | sequenceWait =>
      simp only [coordinatorStep, hpc] at hstep
      split at hstep
      · rename_i hok
        cases hstep
        exact .take hpc hok
      · rename_i hbad
        cases hstep
        exact .reject hpc (Bool.eq_false_iff.mpr hbad)
  | semGive =>
      simp only [coordinatorStep, hpc, Option.some.injEq] at hstep
      subst hstep
      exact .give hpc
  | motorGeneration =>
      simp only [coordinatorStep, hpc] at hstep
      split at hstep
      · rename_i hold
        cases hstep
        exact .pollOld hpc hold
      · rename_i hnew
        cases hstep
        exact .pollNew hpc (not_or.mp hnew).1 (not_or.mp hnew).2
  | motorCopy generation =>
      simp only [coordinatorStep, hpc] at hstep
      split at hstep
      · rename_i hnone
        cases hstep
        exact .copyNone hpc hnone
      · rename_i hsome
        cases hstep
        exact .copy hpc hsome
  | sequenceTerminated =>
      simp only [coordinatorStep, hpc] at hstep
      split at hstep
      · rename_i hterminate
        cases hstep
        exact .exit hpc hterminate
      · rename_i hgoing
        cases hstep
        exact .again hpc (Bool.eq_false_iff.mpr hgoing)
  | flightGeneration =>
      simp only [coordinatorStep, hpc] at hstep
      split at hstep
      · rename_i hold
        cases hstep
        exact .flightOld hpc hold
      · rename_i hnew
        cases hstep
        exact .flightNew hpc (not_or.mp hnew).1 (not_or.mp hnew).2
  | flightCopy generation =>
      simp only [coordinatorStep, hpc, Option.some.injEq] at hstep
      subst hstep
      exact .flightCopy hpc
  | write =>
      simp only [coordinatorStep, hpc, Option.some.injEq] at hstep
      subst hstep
      exact .write hpc
  | respond =>
      simp only [coordinatorStep, hpc, Option.some.injEq] at hstep
      subst hstep
      exact .respond hpc
  | stopped =>
      simp only [coordinatorStep, hpc] at hstep
      cases hstep

/-! ## A cycle -/

variable [CFloat F] [CFloat D] [CDouble F D] (gen : Generated D R E)

/-- One cycle with what `rdd2_imu_stream_wait_next` hands it; it asks for its
publications. -/
def Control.fly (c : Control F D R E) (input : CycleInput F) : Control F D R E :=
  let flown := cycle gen lockstepBoard c.loop input
  { c with
    loop := flown.1
    pc := .publish (publications c.consumed input.atTarget flown.2.calls) }

/-- What the cycle reads: the sample last decoded, and the time that passed. -/
def Control.cycleInput (c : Control F D R E) (env : CycleInput F) : CycleInput F :=
  let next := c.advance.currentBootTimeNs
  { env with
    imuOk := true
    gyro := c.gyro
    accel := c.accel
    dt := CFloat.mul (CFloat.lit (next - c.currentBootTimeNs).toNat)
      (CFloat.lit (1 / 1000000000))
    imuInterruptTimestampNs := next
    atTarget := c.advance.atTarget }

/-- What the cycle reads when the wait failed: zeros, and `dt` as it was. -/
def Control.failedInput (c : Control F D R E) (env : CycleInput F) : CycleInput F :=
  { env with
    imuOk := false
    gyro := Vec3f.zero F
    accel := Vec3f.zero F
    dt := c.loop.ctx.dt
    imuInterruptTimestampNs := 0
    atTarget := c.atTarget }

/-- A step of the control thread; `none` where it blocks. -/
def controlStep (s : System F D R E) (env : CycleInput F) : Option (System F D R E) :=
  let c := s.control
  match c.pc with
  | .loopHead =>
      some { s with control := { c with pc := if c.atTarget then .waitNext else .tick true } }
  | .waitNext =>
      let generation := s.inputs.generation
      if generation ≠ 0 ∧ generation ≠ c.imuGeneration then
        some { s with control := { c with imuGeneration := generation, pc := .latestGet } }
      else some { s with control := { c with pc := .semTake } }
  | .semTake =>
      if s.inputs.sem then
        some { s with
          inputs := { s.inputs with sem := false }
          control := { c with pc := .waitNext } }
      else none
  | .latestGet =>
      if s.inputs.generation = 0 then some { s with control := { c with pc := .tick false } }
      else
        match s.inputs.newest with
        | none => some { s with control := { c with pc := .tick false } }
        | some sample => some { s with control := c.takeSample s.inputs.count sample }
  | .tick true => some { s with control := c.advance.fly gen (c.cycleInput env) }
  | .tick false => some { s with control := c.fly gen (c.failedInput env) }
  | .publish [] => some { s with control := { c with pc := .loopHead } }
  | .publish ((topic, p) :: pending) =>
      some { s with
        topics := s.topics.publish topic p
        control := { c with pc := .publish pending } }

inductive ControlMove (s : System F D R E) (env : CycleInput F) : System F D R E → Prop
  | arrived (hpc : s.control.pc = .loopHead) (hat : s.control.atTarget = true) :
      ControlMove s env { s with control := { s.control with pc := .waitNext } }
  | behind (hpc : s.control.pc = .loopHead) (hat : s.control.atTarget = false) :
      ControlMove s env { s with control := { s.control with pc := .tick true } }
  | input (hpc : s.control.pc = .waitNext) (hsome : s.inputs.generation ≠ 0)
      (hnew : s.inputs.generation ≠ s.control.imuGeneration) :
      ControlMove s env { s with
        control := { s.control with imuGeneration := s.inputs.generation, pc := .latestGet } }
  | sleep (hpc : s.control.pc = .waitNext)
      (hold : s.inputs.generation = 0 ∨ s.inputs.generation = s.control.imuGeneration) :
      ControlMove s env { s with control := { s.control with pc := .semTake } }
  | woken (hpc : s.control.pc = .semTake) (hsem : s.inputs.sem = true) :
      ControlMove s env { s with
        inputs := { s.inputs with sem := false }
        control := { s.control with pc := .waitNext } }
  | failed (hpc : s.control.pc = .latestGet)
      (hnone : s.inputs.generation = 0 ∨ s.inputs.newest = none) :
      ControlMove s env { s with control := { s.control with pc := .tick false } }
  | taken {sample : InertialSample F} (hpc : s.control.pc = .latestGet)
      (hsome : s.inputs.generation ≠ 0) (hnewest : s.inputs.newest = some sample) :
      ControlMove s env { s with control := s.control.takeSample s.inputs.count sample }
  | fly (hpc : s.control.pc = .tick true) :
      ControlMove s env { s with
        control := s.control.advance.fly gen (s.control.cycleInput env) }
  | flyFailed (hpc : s.control.pc = .tick false) :
      ControlMove s env { s with control := s.control.fly gen (s.control.failedInput env) }
  | published (hpc : s.control.pc = .publish []) :
      ControlMove s env { s with control := { s.control with pc := .loopHead } }
  | publish {topic : Topic} {p : Publication F} {pending : List (Topic × Publication F)}
      (hpc : s.control.pc = .publish ((topic, p) :: pending)) :
      ControlMove s env { s with
        topics := s.topics.publish topic p
        control := { s.control with pc := .publish pending } }

theorem controlStep_cases {s t : System F D R E} {env : CycleInput F}
    (hstep : controlStep gen s env = some t) : ControlMove gen s env t := by
  cases hpc : s.control.pc with
  | loopHead =>
      simp only [controlStep, hpc, Option.some.injEq] at hstep
      subst hstep
      cases hat : s.control.atTarget with
      | true => exact .arrived hpc hat
      | false => exact .behind hpc hat
  | waitNext =>
      simp only [controlStep, hpc] at hstep
      split at hstep
      · rename_i hnew
        cases hstep
        exact .input hpc hnew.1 hnew.2
      · rename_i hold
        cases hstep
        exact .sleep hpc (by rwa [not_and_or, not_not, not_not] at hold)
  | semTake =>
      simp only [controlStep, hpc] at hstep
      split at hstep
      · rename_i hsem
        cases hstep
        exact .woken hpc hsem
      · cases hstep
  | latestGet =>
      simp only [controlStep, hpc] at hstep
      split at hstep
      · rename_i hnone
        cases hstep
        exact .failed hpc (Or.inl hnone)
      · rename_i hsome
        split at hstep
        · rename_i hnone
          cases hstep
          exact .failed hpc (Or.inr hnone)
        · rename_i sample hnewest
          cases hstep
          exact .taken hpc hsome hnewest
  | tick imuOk =>
      cases imuOk with
      | true =>
          simp only [controlStep, hpc, Option.some.injEq] at hstep
          subst hstep
          exact .fly hpc
      | false =>
          simp only [controlStep, hpc, Option.some.injEq] at hstep
          subst hstep
          exact .flyFailed hpc
  | publish pending =>
      cases pending with
      | nil =>
          simp only [controlStep, hpc, Option.some.injEq] at hstep
          subst hstep
          exact .published hpc
      | cons tp pending =>
          obtain ⟨topic, p⟩ := tp
          simp only [controlStep, hpc, Option.some.injEq] at hstep
          subst hstep
          exact .publish hpc

/-- Nothing but the semaphore blocks the control thread. -/
theorem controlStep_blocked {s : System F D R E} {env : CycleInput F}
    (h : controlStep gen s env = none) : s.control.pc = .semTake ∧ s.inputs.sem = false := by
  cases hpc : s.control.pc with
  | semTake =>
      refine ⟨rfl, Bool.eq_false_iff.mpr fun hsem => ?_⟩
      simp only [controlStep, hpc, hsem, if_true] at h
      cases h
  | loopHead =>
      simp only [controlStep, hpc] at h
      cases h
  | waitNext =>
      simp only [controlStep, hpc] at h
      split at h <;> cases h
  | latestGet =>
      simp only [controlStep, hpc] at h
      split at h
      · cases h
      · split at h <;> cases h
  | tick imuOk =>
      cases imuOk <;> simp only [controlStep, hpc] at h <;> cases h
  | publish pending =>
      cases pending <;> simp only [controlStep, hpc] at h <;> cases h

/-- The coordinator and the count of the inputs are not the control thread's to change. -/
theorem controlStep_coordinator {s t : System F D R E} {env : CycleInput F}
    (hstep : controlStep gen s env = some t) :
    t.coordinator = s.coordinator ∧ t.inputs.count = s.inputs.count := by
  cases controlStep_cases gen hstep <;> exact ⟨rfl, rfl⟩

/-! ## The system -/

def step (s : System F D R E) : Event F → Option (System F D R E)
  | .control env => controlStep gen s env
  | .coordinator request => coordinatorStep s request
  | .waitFailed =>
      if s.coordinator.pc = .sequenceWait then
        some { s with coordinator := { s.coordinator with pc := .stopped } }
      else none
  | .terminate => some { s with terminate := true }

/-- `rdd2_motor_output_init` has published, and `main` is about to wait for its
first sample. -/
def boot : System F D R E where
  terminate := false
  inputs := { count := 0, newest := none, sem := false }
  topics
    | .pwmSignalOutputs =>
        ⟨1, some ⟨0, true, .motor (.motorOutputPublish (MotorValues.zero F) false)⟩⟩
    | _ => ⟨0, none⟩
  control :=
    { pc := .loopHead
      imuGeneration := 0
      currentBootTimeNs := 0
      targetBootTimeNs := 0
      gyro := Vec3f.zero F
      accel := Vec3f.zero F
      loop := bootLoop gen
      consumed := 0 }
  coordinator :=
    { pc := .sequenceWait
      motorGeneration := 0
      flightGeneration := 0
      motor := none
      flight := none
      shared := fun _ => none
      responses := [] }

end Steps

end Rdd2.Lockstep
