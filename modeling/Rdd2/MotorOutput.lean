import Mathlib.Data.Fintype.Defs
import Rdd2.ControlTypes

/-!
# Motor output

`motor_output.c` in the DShot build and in the lockstep build. What it asks
of the driver and of the topic bus is a list of `MotorCall`s; the time
stamps that the driver answers with are arguments.
-/

namespace Rdd2

def dshotDisarmed : UInt16 := 0
def dshotMin : UInt16 := 48
def dshotMax : UInt16 := 2047

/-- The build and what `rdd2_motor_output_init` found: whether
`CONFIG_RDD2_LOCKSTEP` is set and `g_rdd2_motor_output_pub_ready`. -/
structure Board where
  lockstep : Bool
  motorOutputPubReady : Bool
  deriving DecidableEq, Repr

/-- `nxp_flexio_dshot_data_set`, the publication of motor values, and
`nxp_flexio_dshot_trigger`. -/
inductive MotorCall (F : Type) where
  | dshotDataSet (channel : Fin 4) (throttle : UInt16)
  | motorOutputPublish (motors : MotorValues F) (armed : Bool)
  | dshotTrigger

/-- What `motor_output_trigger_and_timestamp` reads:
`nxp_flexio_dshot_last_trigger_ns_get` or `k_uptime_get_32`. -/
structure MotorClock where
  lastTriggerNs : UInt64
  uptime32 : UInt32
  deriving DecidableEq, Repr

section Publish

variable {F : Type}

def motorOutputPublish (board : Board) (motors : MotorValues F) (armed : Bool) :
    List (MotorCall F) :=
  if board.motorOutputPubReady then [.motorOutputPublish motors armed] else []

/-- The `nxp_flexio_dshot_data_set` calls of a loop over the motors; the
lockstep build has none. -/
def dshotDataSetAll (board : Board) (values : MotorRaw) : List (MotorCall F) :=
  if board.lockstep then [] else (List.finRange 4).map fun i => .dshotDataSet i (values i)

def motorOutputTriggerAndTimestamp (board : Board) (clock : MotorClock) :
    List (MotorCall F) × UInt64 :=
  if board.lockstep then ([], clock.uptime32.toUInt64) else ([.dshotTrigger], clock.lastTriggerNs)

/-- How both writes end: the driver gets `raw`, the topic `applied`, and
the frame is triggered. -/
def motorOutputSend (board : Board) (clock : MotorClock) (raw : MotorRaw)
    (applied : MotorValues F) (armed : Bool) : List (MotorCall F) × UInt64 :=
  let trigger := motorOutputTriggerAndTimestamp board clock
  (dshotDataSetAll board raw ++ motorOutputPublish board applied armed ++ trigger.1, trigger.2)

theorem mem_dshotDataSetAll {board : Board} {values : MotorRaw} {channel : Fin 4}
    {throttle : UInt16}
    (h : (MotorCall.dshotDataSet channel throttle : MotorCall F) ∈ dshotDataSetAll board values) :
    throttle = values channel := by
  unfold dshotDataSetAll at h
  split at h
  · cases h
  · obtain ⟨i, _, hi⟩ := List.mem_map.mp h
    cases hi
    rfl

/-- The driver is given the raw values and nothing else. -/
theorem mem_motorOutputSend {board : Board} {clock : MotorClock} {raw : MotorRaw}
    {applied : MotorValues F} {armed : Bool} {channel : Fin 4} {throttle : UInt16}
    (h : MotorCall.dshotDataSet channel throttle ∈
      (motorOutputSend board clock raw applied armed).1) :
    throttle = raw channel := by
  simp only [motorOutputSend, List.mem_append] at h
  rcases h with (h | h) | h
  · exact mem_dshotDataSetAll h
  · unfold motorOutputPublish at h
    split at h <;> simp at h
  · unfold motorOutputTriggerAndTimestamp at h
    split at h <;> simp at h

end Publish

section Write

variable {F : Type} [CFloat F]

variable (F) in
def motorIdleThrottle : F := CFloat.lit 0

def motorToDshot (normalized : F) (armed : Bool) : UInt16 :=
  let minOutput : F := if armed then motorIdleThrottle F else CFloat.lit 0
  let clamped := clampf normalized minOutput (CFloat.lit 1)
  let span : F := CFloat.lit (dshotMax.toNat - dshotMin.toNat)
  if !armed || CFloat.le clamped (CFloat.lit 0) then dshotDisarmed
  else
    CFloat.toUInt16 (CFloat.add (CFloat.add (CFloat.lit dshotMin.toNat) (CFloat.mul clamped span))
      (CFloat.lit (1 / 2)))

/-- `applied_values[i]` of `rdd2_motor_output_write_all` -/
def appliedValue (armed testMode : Bool) (value : F) : F :=
  let minOutput : F := if armed && !testMode then motorIdleThrottle F else CFloat.lit 0
  if armed then clampf value minOutput (CFloat.lit 1) else CFloat.lit 0

/-- `rdd2_motor_output_write_all`: the calls, and the time stamp it
returns. `atTarget` is `rdd2_imu_stream_lockstep_at_target()`. -/
def motorOutputWriteAll (board : Board) (atTarget : Bool) (clock : MotorClock)
    (motors : MotorValues F) (armed testMode : Bool) : List (MotorCall F) × UInt64 :=
  if board.lockstep && !atTarget then ([], 0)
  else
    let applied : MotorValues F := fun i => appliedValue armed testMode (motors i)
    motorOutputSend board clock
      (fun i => motorToDshot (applied i) (armed && CFloat.lt (CFloat.lit 0) (applied i)))
      applied armed

/-- The value a raw test sends, in the DShot range. -/
def clampRaw (value : UInt16) : UInt16 :=
  let value := if value ≠ dshotDisarmed ∧ value < dshotMin then dshotMin else value
  if value > dshotMax then dshotMax else value

/-- `applied_values[i]` of `rdd2_motor_output_write_all_raw` -/
def appliedRaw (value : UInt16) : F :=
  if value = dshotDisarmed then CFloat.lit 0
  else CFloat.div (CFloat.lit ((value.toNat : Int) - dshotMin.toNat))
    (CFloat.lit (dshotMax.toNat - dshotMin.toNat))

def motorOutputWriteAllRaw (board : Board) (atTarget : Bool) (clock : MotorClock)
    (raw : MotorRaw) : List (MotorCall F) × UInt64 :=
  if board.lockstep && !atTarget then ([], 0)
  else
    let clamped : MotorRaw := fun i => clampRaw (raw i)
    motorOutputSend board clock clamped (fun i => appliedRaw (clamped i))
      ((List.finRange 4).any fun i => clamped i != dshotDisarmed)

@[simp] theorem motorToDshot_unarmed (normalized : F) :
    motorToDshot normalized false = dshotDisarmed := by
  unfold motorToDshot
  rfl

/-- A write that is not armed gives every channel `DSHOT_DISARMED`,
whatever is in the motor values. -/
theorem motorOutputWriteAll_unarmed {board : Board} {atTarget testMode : Bool}
    {clock : MotorClock} {motors : MotorValues F} {channel : Fin 4} {throttle : UInt16}
    (h : MotorCall.dshotDataSet channel throttle ∈
      (motorOutputWriteAll board atTarget clock motors false testMode).1) :
    throttle = dshotDisarmed := by
  unfold motorOutputWriteAll at h
  split at h
  · simp at h
  · rw [mem_motorOutputSend h, Bool.false_and, motorToDshot_unarmed]

end Write

/-! ## Motor tests -/

/-- `g_motor_test_active` and `g_motor_test_values`, or the raw pair; both
are written with interrupts locked. -/
structure MotorTest (V : Type) where
  active : Bool
  values : Fin 4 → V

/-- `rdd2_motor_test_get` and `rdd2_motor_raw_test_get`: the values are
copied out whether or not the test is active. -/
def motorTestGet {V : Type} (test : MotorTest V) : Bool × (Fin 4 → V) :=
  (test.active, test.values)

end Rdd2
