import Mathlib.Data.List.Basic
import Mathlib.Tactic.Common
import Rdd2.Guarded
import Rdd2.Mission

/-!
# Flying a mission

`run_mission` of `tools/fastdyn_mission` and the FMI plant it steps. The exchange with
the firmware, the plant's library, the clock and the trajectory file answer as they like;
floating arithmetic and its roundings are `F64Ops`, comparisons are those of `Binary64`.

`mission_passes_iff` says what a verdict is worth: the report is the history of the
flight, so a mission passes exactly if the flight itself, step by step, has done what the
requirements ask; and the history is one flight, each step of the plant driven by the one
exchange made for it.
-/

namespace Rdd2.Mission

open Binary64 (lt le)
open Requirement (broken mem_all)

/-! ## The plant -/

/-- The arithmetic of `f64`, and its conversions to and from `f32`. -/
structure F64Ops (F : Type) where
  add : Binary64 → Binary64 → Binary64
  sub : Binary64 → Binary64 → Binary64
  mul : Binary64 → Binary64 → Binary64
  div : Binary64 → Binary64 → Binary64
  /-- `as f64` of an unsigned integer -/
  ofNat : Nat → Binary64
  /-- `round() as u64` -/
  roundU64 : Binary64 → UInt64
  /-- `round() as i32` -/
  roundI32 : Binary64 → Int
  toDegrees : Binary64 → Binary64
  toF32 : Binary64 → F
  /-- `f64::from(value.clamp(0.0, 1.0))` -/
  motorInput : F → Binary64

/-- What `fmi3DoStep` answers and writes. -/
structure FmiStep where
  status : Int
  eventHandlingNeeded : Bool
  terminateSimulation : Bool
  earlyReturn : Bool
  lastSuccessfulTime : Binary64
  deriving DecidableEq, Repr

/-- The plant's library over its instances. -/
structure Api (I : Type) where
  setFloat64 : I → (Fin 4 → Binary64) → Int × I
  doStep : I → Binary64 → Binary64 → FmiStep × I
  getFloat64 : I → Int × (Fin 14 → Binary64)

/-- `struct Plant`; `outputValues` in the order of the names in `Plant::open`. -/
structure Plant (I : Type) where
  inst : I
  outputValues : Fin 14 → Binary64
  time : Binary64

namespace Plant

variable {I F : Type}

def altitude (plant : Plant I) : Binary64 := plant.outputValues 2

def verticalSpeed (plant : Plant I) : Binary64 := plant.outputValues 3

/-- The first two of `euler`. -/
def rollRad (plant : Plant I) : Binary64 := plant.outputValues 4

def pitchRad (plant : Plant I) : Binary64 := plant.outputValues 5

/-- `imu_flu`, gyro and accel one behind the other. -/
def imuFlu (ops : F64Ops F) (plant : Plant I) : Fin 6 → F
  | ⟨k, hk⟩ => ops.toF32 (plant.outputValues ⟨7 + k, by omega⟩)

/-- `check_status` -/
def statusOk (status : Int) : Bool := decide (status ≤ 1)

/-- `read_outputs`; an error ends the mission. -/
def readOutputs (api : Api I) (plant : Plant I) : Option (Plant I) :=
  let (status, values) := api.getFloat64 plant.inst
  if statusOk status then some { plant with outputValues := values } else none

def step (ops : F64Ops F) (api : Api I) (plant : Plant I) (motor : Fin 4 → F) (dt : Binary64) :
    Option (Plant I) :=
  let (set, inst) := api.setFloat64 plant.inst fun k => ops.motorInput (motor k)
  if !statusOk set then none
  else
    let (done, inst) := api.doStep inst plant.time dt
    if !statusOk done.status then none
    else if done.eventHandlingNeeded || done.earlyReturn || done.terminateSimulation then none
    else readOutputs api { plant with inst := inst, time := done.lastSuccessfulTime }

end Plant

/-! ## The pilot -/

/-- `0.0` -/
def zero : Binary64 := ⟨0⟩

/-- The literals of `run_mission`, `rc_channels` and `desired_altitude` by their bits. -/
def oneS : Binary64 := ⟨0x3FF0000000000000⟩
/-- `1.25` -/
def throttleS : Binary64 := ⟨0x3FF4000000000000⟩
/-- `8.0` -/
def rollS : Binary64 := ⟨0x4020000000000000⟩
/-- `9.0` -/
def rollEndS : Binary64 := ⟨0x4022000000000000⟩
/-- `10.5` -/
def rollResponseEndS : Binary64 := ⟨0x4025000000000000⟩
/-- `11.0` -/
def pitchS : Binary64 := ⟨0x4026000000000000⟩
/-- `12.0` -/
def pitchEndS : Binary64 := ⟨0x4028000000000000⟩
/-- `13.5` -/
def pitchResponseEndS : Binary64 := ⟨0x402B000000000000⟩
/-- `19.0` -/
def disarmS : Binary64 := ⟨0x4033000000000000⟩
/-- `19.25` -/
def disarmedS : Binary64 := ⟨0x4033400000000000⟩
/-- `1.0e9` -/
def nanoseconds : Binary64 := ⟨0x41CDCD6500000000⟩

/-- `(low..high).contains(&time)` -/
def within (low high time : Binary64) : Bool := le low time && lt time high

/-- `f64::clamp` -/
def clamp (x low high : Binary64) : Binary64 :=
  if lt x low then low else if lt high x then high else x

section Pilot

variable {I F : Type} (ops : F64Ops F)

def desiredAltitude (time : Binary64) : Binary64 :=
  let two : Binary64 := ⟨0x4000000000000000⟩
  let fourteen : Binary64 := ⟨0x402C000000000000⟩
  if lt time two then zero
  else if lt time ⟨0x4014000000000000⟩ then
    ops.mul (ops.sub time two) (ops.div two ⟨0x4008000000000000⟩)
  else if lt time fourteen then two
  else if lt time ⟨0x4032000000000000⟩ then
    ops.sub two (ops.mul (ops.sub time fourteen) ⟨0x3FE0000000000000⟩)
  else zero

/-- `channels[2]` -/
def throttleChannel (time : Binary64) (plant : Plant I) : Int :=
  if !within throttleS disarmS time then 1000
  else
    let error := ops.sub (desiredAltitude ops time) plant.altitude
    let normalized := clamp
      (ops.sub (ops.add ⟨0x3FE604189374BC6A⟩ (ops.mul ⟨0x3FB999999999999A⟩ error))
        (ops.mul ⟨0x3FB3333333333333⟩ plant.verticalSpeed))
      ⟨0x3FD851EB851EB852⟩ ⟨0x3FEA3D70A3D70A3D⟩
    ops.roundI32 (ops.add ⟨0x408F400000000000⟩ (ops.mul normalized ⟨0x408F400000000000⟩))

def rcChannels (time : Binary64) (plant : Plant I) : Fin 16 → Int
  | 0 => if within rollS rollEndS time then 1625 else 1500
  | 1 => if within pitchS pitchEndS time then 1375 else 1500
  | 2 => throttleChannel ops time plant
  | 4 => if within oneS disarmS time then 2000 else 1000
  | 5 => 2000
  | _ => 1500

end Pilot

/-! ## The mission -/

/-- The options that `run_mission` reads. -/
structure Options where
  duration : Binary64
  plantDt : Binary64
  minimumSpeedup : Binary64
  deriving DecidableEq, Repr

/-- `FlightState` of the host -/
structure FlightState where
  armed : Bool
  rcValid : Bool
  imuOk : Bool
  flightMode : UInt8
  deriving DecidableEq, Repr

/-- The arguments of `lockstep_inputs`. -/
structure MissionInput (F : Type) where
  imuFlu : Fin 6 → F
  channels : Fin 16 → Int
  targetNs : UInt64

/-- What the world answers in a round: the exchange (`none` is an error), whether less
than a minute has passed since the start, and whether the row of the trajectory was
written. -/
structure MissionAnswer (F : Type) where
  response : Option ((Fin 4 → F) × Option FlightState × UInt64)
  early : Bool
  written : Bool

/-- A round in which the plant was stepped: its input and its response, and the time and
the plant afterwards. -/
structure MissionStep (I F : Type) where
  input : MissionInput F
  motor : Fin 4 → F
  state : Option FlightState
  time : Binary64
  plant : Plant I

/-- The locals of `run_mission`; and, which it does not keep, the inputs it sent and the
rounds in which the plant was stepped. -/
structure Flight (I F : Type) where
  plant : Plant I
  report : Report
  simulatedTime : Binary64
  firmwareReady : Bool
  plantSteps : Nat
  sent : List (MissionInput F)
  steps : List (MissionStep I F)

section Run

variable {I F : Type} (ops : F64Ops F) (api : Api I) (options : Options)

def missionInput (time : Binary64) (plant : Plant I) : MissionInput F where
  imuFlu := plant.imuFlu ops
  channels := rcChannels ops time plant
  targetNs := ops.roundU64 (ops.mul (ops.add time options.plantDt) nanoseconds)

def missionSteps : Nat := (ops.roundU64 (ops.div options.duration options.plantDt)).toNat

def rollDeg (plant : Plant I) : Binary64 := (ops.toDegrees plant.rollRad).abs

def pitchDeg (plant : Plant I) : Binary64 := (ops.toDegrees plant.pitchRad).abs

def Report.hear (report : Report) (time : Binary64) : Option FlightState → Report
  | none => report
  | some state =>
      { report with
        firmwareRcAndImuHealthy := report.firmwareRcAndImuHealthy || (state.rcValid && state.imuOk)
        firmwareAutoLevelObserved := report.firmwareAutoLevelObserved || state.flightMode == 1
        firmwareArmedObserved := report.firmwareArmedObserved || state.armed
        firmwareDisarmedAfterFlight :=
          report.firmwareDisarmedAfterFlight || (le disarmedS time && !state.armed) }

def Report.watch (report : Report) (time : Binary64) (plant : Plant I) : Report :=
  let roll := rollDeg ops plant
  let pitch := pitchDeg ops plant
  { report with
    maxAltitudeM := report.maxAltitudeM.max plant.altitude
    maxTiltDeg := report.maxTiltDeg.max (roll.max pitch)
    maxRollResponseDeg :=
      if within rollS rollResponseEndS time then report.maxRollResponseDeg.max roll
      else report.maxRollResponseDeg
    maxPitchResponseDeg :=
      if within pitchS pitchResponseEndS time then report.maxPitchResponseDeg.max pitch
      else report.maxPitchResponseDeg }

def flyStep (s : Flight I F) (input : MissionInput F) (motor : Fin 4 → F)
    (state : Option FlightState) (written : Bool) : Option (Flight I F) :=
  match s.plant.step ops api motor options.plantDt with
  | none => none
  | some plant =>
      if !written then none
      else
        let time := ops.add s.simulatedTime options.plantDt
        some
          { s with
            plant := plant
            report := (s.report.hear time state).watch ops time plant
            simulatedTime := time
            firmwareReady := true
            plantSteps := s.plantSteps + 1
            steps := s.steps ++ [⟨input, motor, state, time, plant⟩] }

/-- A round of the loop of `run_mission`. An error ends the mission without a verdict. -/
def missionStep (s : Flight I F) (answer : MissionAnswer F) : Option (Flight I F) :=
  if missionSteps ops options ≤ s.plantSteps then none
  else
    let input := missionInput ops options s.simulatedTime s.plant
    let s := { s with sent := s.sent ++ [input] }
    match answer.response with
    | none => if !s.firmwareReady && answer.early then some s else none
    | some (motor, state, count) =>
        let s :=
          { s with
            report :=
              { s.report with
                flightStateMessages := s.report.flightStateMessages + count } }
        if !s.firmwareReady && state.isNone then if answer.early then some s else none
        else flyStep ops api options s input motor state answer.written

def missionStart (plant : Plant I) : Flight I F where
  plant := plant
  report := {}
  simulatedTime := zero
  firmwareReady := false
  plantSteps := 0
  sent := []
  steps := []

def missionReport (s : Flight I F) (wallSeconds : Binary64) : Report :=
  { s.report with
    speedupOverRealtime :=
      ops.div (ops.mul (ops.ofNat s.plantSteps) options.plantDt) wallSeconds
    minimumSpeedupRequired := options.minimumSpeedup
    finalAltitudeM := s.plant.altitude
    finalVerticalSpeedMS := s.plant.verticalSpeed }

end Run

/-! ## The history -/

section History

variable {I F : Type} (ops : F64Ops F) (api : Api I) (options : Options)

/-- One flight: each round sends the input that time and plant ask for, and steps the plant
with the motors it got. -/
def Flown (plant : Plant I) (time : Binary64) : List (MissionStep I F) → Prop
  | [] => True
  | step :: steps =>
      step.input = missionInput ops options time plant ∧
        plant.step ops api step.motor options.plantDt = some step.plant ∧
        step.time = ops.add time options.plantDt ∧ Flown step.plant step.time steps

def flownTo (plant : Plant I) (time : Binary64) (steps : List (MissionStep I F)) :
    Plant I × Binary64 :=
  match steps.getLast? with
  | none => (plant, time)
  | some step => (step.plant, step.time)

theorem flownTo_cons (plant : Plant I) (time : Binary64) (step : MissionStep I F)
    (steps : List (MissionStep I F)) :
    flownTo plant time (step :: steps) = flownTo step.plant step.time steps := by
  rcases List.eq_nil_or_concat steps with rfl | ⟨before, last, rfl⟩
  · rfl
  · rw [flownTo, flownTo, List.concat_eq_append, ← List.cons_append, List.getLast?_concat,
      List.getLast?_concat]

theorem flownTo_concat (plant : Plant I) (time : Binary64) (steps : List (MissionStep I F))
    (step : MissionStep I F) : flownTo plant time (steps ++ [step]) = (step.plant, step.time) := by
  rw [flownTo, List.getLast?_concat]

theorem Flown.concat {plant : Plant I} {time : Binary64} {steps : List (MissionStep I F)}
    (h : Flown ops api options plant time steps) {step : MissionStep I F}
    (hinput : step.input
      = missionInput ops options (flownTo plant time steps).2 (flownTo plant time steps).1)
    (hplant : (flownTo plant time steps).1.step ops api step.motor options.plantDt
      = some step.plant)
    (htime : step.time = ops.add (flownTo plant time steps).2 options.plantDt) :
    Flown ops api options plant time (steps ++ [step]) := by
  induction steps generalizing plant time with
  | nil => exact ⟨hinput, hplant, htime, trivial⟩
  | cons first steps ih =>
      rw [flownTo_cons] at hinput hplant htime
      exact ⟨h.1, h.2.1, h.2.2.1, ih h.2.2.2 hinput hplant htime⟩

def Reported (steps : List (MissionStep I F)) (tells : Binary64 → FlightState → Bool) : Prop :=
  ∃ step ∈ steps, ∃ state, step.state = some state ∧ tells step.time state = true

/-- What the report has heard and seen is what happened in the steps. -/
structure ReportOf (report : Report) (steps : List (MissionStep I F)) : Prop where
  armed : report.firmwareArmedObserved = true ↔ Reported steps fun _ state => state.armed
  disarmed : report.firmwareDisarmedAfterFlight = true ↔
    Reported steps fun time state => le disarmedS time && !state.armed
  healthy : report.firmwareRcAndImuHealthy = true ↔
    Reported steps fun _ state => state.rcValid && state.imuOk
  autoLevel : report.firmwareAutoLevelObserved = true ↔
    Reported steps fun _ state => state.flightMode == 1
  altitude : Binary64.MaxOver zero report.maxAltitudeM (steps.map fun step => step.plant.altitude)
  tilt : Binary64.MaxOver zero report.maxTiltDeg
    (steps.map fun step => (rollDeg ops step.plant).max (pitchDeg ops step.plant))
  roll : Binary64.MaxOver zero report.maxRollResponseDeg
    ((steps.filter fun step => within rollS rollResponseEndS step.time).map
      fun step => rollDeg ops step.plant)
  pitch : Binary64.MaxOver zero report.maxPitchResponseDeg
    ((steps.filter fun step => within pitchS pitchResponseEndS step.time).map
      fun step => pitchDeg ops step.plant)
  failures : report.failures = []

theorem reported_concat (steps : List (MissionStep I F)) (step : MissionStep I F)
    (tells : Binary64 → FlightState → Bool) :
    Reported (steps ++ [step]) tells ↔
      Reported steps tells ∨ ∃ state, step.state = some state ∧ tells step.time state = true := by
  simp only [Reported, List.mem_append, List.mem_singleton, or_and_right, exists_or,
    exists_eq_left]

theorem reportOf_start : ReportOf (I := I) ops {} [] where
  armed := by simp [Reported]
  disarmed := by simp [Reported]
  healthy := by simp [Reported]
  autoLevel := by simp [Reported]
  altitude := .nil (by decide)
  tilt := .nil (by decide)
  roll := .nil (by decide)
  pitch := .nil (by decide)
  failures := rfl

theorem ReportOf.count {report : Report} {steps : List (MissionStep I F)}
    (h : ReportOf ops report steps) (messages : UInt64) :
    ReportOf ops { report with flightStateMessages := messages } steps :=
  ⟨h.armed, h.disarmed, h.healthy, h.autoLevel, h.altitude, h.tilt, h.roll, h.pitch, h.failures⟩

theorem maxOver_window {m : Binary64} {steps : List (MissionStep I F)} (step : MissionStep I F)
    (inWindow : MissionStep I F → Bool) (value : MissionStep I F → Binary64)
    (h : Binary64.MaxOver zero m ((steps.filter inWindow).map value)) :
    Binary64.MaxOver zero (if inWindow step then m.max (value step) else m)
      (((steps ++ [step]).filter inWindow).map value) := by
  rw [List.filter_append]
  cases hin : inWindow step with
  | true =>
      rw [List.filter_cons_of_pos hin, List.filter_nil, List.map_append, if_pos rfl]
      exact h.concat (value step)
  | false =>
      rw [List.filter_cons_of_neg (by simp [hin]), List.filter_nil, List.append_nil,
        if_neg Bool.false_ne_true]
      exact h

theorem ReportOf.concat {report : Report} {steps : List (MissionStep I F)}
    (h : ReportOf ops report steps) (step : MissionStep I F) :
    ReportOf ops ((report.hear step.time step.state).watch ops step.time step.plant)
      (steps ++ [step]) := by
  have hheard (flag : Bool) (tells : Binary64 → FlightState → Bool)
      (hflag : flag = true ↔ Reported steps tells) :
      (step.state.elim flag fun state => flag || tells step.time state) = true
        ↔ Reported (steps ++ [step]) tells := by
    rw [reported_concat]
    cases hstate : step.state with
    | none => simp [hflag]
    | some state => simp [hflag]
  have hstate (flag : Report → Bool) (tells : Binary64 → FlightState → Bool)
      (hflag : flag report = true ↔ Reported steps tells)
      (hhear : ∀ state, flag (report.hear step.time (some state))
        = (flag report || tells step.time state))
      (hwatch : ∀ report, flag (Report.watch ops report step.time step.plant) = flag report) :
      flag ((report.hear step.time step.state).watch ops step.time step.plant) = true ↔
        Reported (steps ++ [step]) tells := by
    rw [hwatch, ← hheard (flag report) tells hflag]
    cases step.state with
    | none => rfl
    | some state => rw [hhear]; rfl
  have hmaxima : (report.hear step.time step.state).maxAltitudeM = report.maxAltitudeM ∧
      (report.hear step.time step.state).maxTiltDeg = report.maxTiltDeg ∧
      (report.hear step.time step.state).maxRollResponseDeg = report.maxRollResponseDeg ∧
      (report.hear step.time step.state).maxPitchResponseDeg = report.maxPitchResponseDeg ∧
      (report.hear step.time step.state).failures = report.failures := by
    cases step.state with
    | none => exact ⟨rfl, rfl, rfl, rfl, rfl⟩
    | some state => exact ⟨rfl, rfl, rfl, rfl, rfl⟩
  obtain ⟨haltitude, htilt, hroll, hpitch, hfailures⟩ := hmaxima
  refine ⟨?_, ?_, ?_, ?_, ?_, ?_, ?_, ?_, ?_⟩
  · exact hstate _ _ h.armed (fun _ => rfl) fun _ => rfl
  · exact hstate _ _ h.disarmed (fun _ => rfl) fun _ => rfl
  · exact hstate _ _ h.healthy (fun _ => rfl) fun _ => rfl
  · exact hstate _ _ h.autoLevel (fun _ => rfl) fun _ => rfl
  · rw [List.map_append, Report.watch, haltitude]
    exact h.altitude.concat _
  · rw [List.map_append, Report.watch, htilt]
    exact h.tilt.concat _
  · rw [Report.watch, hroll]
    exact maxOver_window step (fun step => within rollS rollResponseEndS step.time)
      (fun step => rollDeg ops step.plant) h.roll
  · rw [Report.watch, hpitch]
    exact maxOver_window step (fun step => within pitchS pitchResponseEndS step.time)
      (fun step => pitchDeg ops step.plant) h.pitch
  · rw [Report.watch, hfailures]
    exact h.failures

/-- A round either waits for the firmware, and then only counts its messages, or steps
the plant. -/
theorem missionStep_cases {s t : Flight I F} {answer : MissionAnswer F}
    (h : missionStep ops api options s answer = some t) :
    s.plantSteps < missionSteps ops options ∧
      ((s.firmwareReady = false ∧ ∃ messages,
          t = { s with
            sent := s.sent ++ [missionInput ops options s.simulatedTime s.plant]
            report := { s.report with flightStateMessages := messages } }) ∨
        ∃ messages motor state written,
          flyStep ops api options
            { s with
              sent := s.sent ++ [missionInput ops options s.simulatedTime s.plant]
              report := { s.report with flightStateMessages := messages } }
            (missionInput ops options s.simulatedTime s.plant) motor state written = some t) := by
  unfold missionStep at h
  split at h
  · cases h
  · rename_i hsteps
    refine ⟨Nat.lt_of_not_le hsteps, ?_⟩
    cases hresponse : answer.response with
    | none =>
        simp only [hresponse] at h
        split at h
        · rename_i hwait
          rw [Bool.and_eq_true, Bool.not_eq_true'] at hwait
          cases h
          exact Or.inl ⟨hwait.1, s.report.flightStateMessages, rfl⟩
        · cases h
    | some response =>
        obtain ⟨motor, state, count⟩ := response
        simp only [hresponse] at h
        split at h
        · rename_i hwait
          rw [Bool.and_eq_true, Bool.not_eq_true'] at hwait
          split at h
          · cases h
            exact Or.inl ⟨hwait.1, _, rfl⟩
          · cases h
        · exact Or.inr ⟨_, motor, state, answer.written, h⟩

structure MissionInv (start : Plant I) (s : Flight I F) : Prop where
  flown : Flown ops api options start zero s.steps
  position : (s.plant, s.simulatedTime) = flownTo start zero s.steps
  count : s.plantSteps = s.steps.length
  bound : s.plantSteps ≤ missionSteps ops options
  waiting : s.firmwareReady = false → s.steps = []
  sent : ∃ retries, s.sent = List.replicate retries (missionInput ops options zero start) ++
    s.steps.map MissionStep.input
  report : ReportOf ops s.report s.steps

theorem missionStart_inv (start : Plant I) :
    MissionInv ops api options start (missionStart (F := F) start) where
  flown := trivial
  position := rfl
  count := rfl
  bound := Nat.zero_le _
  waiting := fun _ => rfl
  sent := ⟨0, rfl⟩
  report := reportOf_start ops

theorem flyStep_inv {start : Plant I} {s t : Flight I F} {messages : UInt64}
    {motor : Fin 4 → F} {state : Option FlightState} {written : Bool}
    (h : MissionInv ops api options start s) (hmore : s.plantSteps < missionSteps ops options)
    (hstep : flyStep ops api options
      { s with
        sent := s.sent ++ [missionInput ops options s.simulatedTime s.plant]
        report := { s.report with flightStateMessages := messages } }
      (missionInput ops options s.simulatedTime s.plant) motor state written = some t) :
    MissionInv ops api options start t := by
  unfold flyStep at hstep
  have hplant : s.plant = (flownTo start zero s.steps).1 := congrArg Prod.fst h.position
  have htime : s.simulatedTime = (flownTo start zero s.steps).2 := congrArg Prod.snd h.position
  cases hnext : s.plant.step ops api motor options.plantDt with
  | none =>
      simp only [hnext] at hstep
      cases hstep
  | some plant =>
      simp only [hnext] at hstep
      split at hstep
      · cases hstep
      · cases hstep
        obtain ⟨retries, hsent⟩ := h.sent
        refine ⟨?_, ?_, ?_, hmore, fun hready => absurd hready (by simp), ⟨retries, ?_⟩, ?_⟩
        · refine h.flown.concat ops api options ?_ ?_ ?_
          · rw [← hplant, ← htime]
          · rw [← hplant]
            exact hnext
          · rw [← htime]
        · rw [flownTo_concat]
        · rw [List.length_append, ← h.count]
          rfl
        · rw [hsent, List.map_append, List.append_assoc]
          rfl
        · exact (h.report.count ops messages).concat ops
            ⟨missionInput ops options s.simulatedTime s.plant, motor, state,
              ops.add s.simulatedTime options.plantDt, plant⟩

theorem missionStep_inv {start : Plant I} {s t : Flight I F} {answer : MissionAnswer F}
    (h : MissionInv ops api options start s)
    (hstep : missionStep ops api options s answer = some t) :
    MissionInv ops api options start t := by
  rcases missionStep_cases ops api options hstep with
    ⟨hmore, ⟨hwaiting, messages, rfl⟩ | ⟨messages, motor, state, written, hfly⟩⟩
  · have hnone := h.waiting hwaiting
    have hposition := h.position
    rw [hnone] at hposition
    obtain ⟨hplant, htime⟩ := Prod.mk.inj hposition
    obtain ⟨retries, hsent⟩ := h.sent
    refine ⟨h.flown, h.position, h.count, h.bound, h.waiting, ⟨retries + 1, ?_⟩,
      h.report.count ops messages⟩
    rw [hnone, List.map_nil, List.append_nil] at hsent
    rw [hnone, List.map_nil, List.append_nil, hsent, hplant, htime]
    exact List.replicate_succ'.symm
  · exact flyStep_inv ops api options h hmore hfly

end History

/-! ## The verdict -/

/-- What a mission has to have done to pass, as the steps of its flight tell. -/
structure Passes {I F : Type} (ops : F64Ops F) (options : Options) (steps : List (MissionStep I F))
    (messages : UInt64) (speedup : Binary64) (finish : Plant I) : Prop where
  speed : lt speedup options.minimumSpeedup = false
  armed : Reported steps fun _ state => state.armed
  disarmed : Reported steps fun time state => le disarmedS time && !state.armed
  healthy : Reported steps fun _ state => state.rcValid && state.imuOk
  autoLevel : Reported steps fun _ state => state.flightMode == 1
  messages : 20 ≤ messages
  altitude : ∃ step ∈ steps, le takeOffM step.plant.altitude = true
  roll : ∃ step ∈ steps, within rollS rollResponseEndS step.time = true ∧
    le responseDeg (rollDeg ops step.plant) = true
  pitch : ∃ step ∈ steps, within pitchS pitchResponseEndS step.time = true ∧
    le responseDeg (pitchDeg ops step.plant) = true
  tilt : ∀ step ∈ steps, lt tiltDeg (rollDeg ops step.plant) = false ∧
    lt tiltDeg (pitchDeg ops step.plant) = false
  landed : lt landedM finish.altitude = false
  settled : lt settledMS finish.verticalSpeed.abs = false

section Verdict

variable {I F : Type} (ops : F64Ops F) (api : Api I) (options : Options)

/-- A maximum is short of a limit above its start if no value reaches it. -/
theorem not_lt_maxOver {m limit : Binary64} {values : List Binary64}
    (h : Binary64.MaxOver zero m values) (hlimit : ¬ limit.IsNan) (hzero : le limit zero = false) :
    lt m limit = false ↔ ∃ v ∈ values, le limit v = true := by
  have hle : le limit m = !lt m limit := (Binary64.le_eq_not_lt limit m).mpr ⟨hlimit, h.number⟩
  have hiff := h.le_iff limit
  rw [hle, hzero, Bool.not_eq_true'] at hiff
  simpa using hiff

/-- And it is not above one if no value is. -/
theorem lt_maxOver {m limit : Binary64} {values : List Binary64}
    (h : Binary64.MaxOver zero m values) (hzero : lt limit zero = false) :
    lt limit m = false ↔ ∀ v ∈ values, lt limit v = false := by
  have hiff := (h.lt_iff limit).not
  rw [hzero] at hiff
  simpa using hiff

theorem exists_mem_window {steps : List (MissionStep I F)} {inWindow : MissionStep I F → Bool}
    {value : MissionStep I F → Binary64} {reached : Binary64 → Prop} :
    (∃ v ∈ (steps.filter inWindow).map value, reached v) ↔
      ∃ step ∈ steps, inWindow step = true ∧ reached (value step) := by
  constructor
  · rintro ⟨v, hv, hreached⟩
    rcases List.mem_map.mp hv with ⟨step, hstep, rfl⟩
    rcases List.mem_filter.mp hstep with ⟨hmem, hin⟩
    exact ⟨step, hmem, hin, hreached⟩
  · rintro ⟨step, hmem, hin, hreached⟩
    exact ⟨value step, List.mem_map_of_mem (List.mem_filter.mpr ⟨hmem, hin⟩), hreached⟩

theorem missionReport_passed {s : Flight I F} {wallSeconds : Binary64}
    (h : ReportOf ops s.report s.steps) :
    (evaluate (missionReport ops options s wallSeconds)).passed = true ↔
      Passes ops options s.steps s.report.flightStateMessages
        (missionReport ops options s wallSeconds).speedupOverRealtime s.plant := by
  have hpassed : (evaluate (missionReport ops options s wallSeconds)).passed = true ↔
      ∀ q, broken (missionReport ops options s wallSeconds) q = false := by
    rw [evaluate_passed, evaluate_failures,
      show (missionReport ops options s wallSeconds).failures = [] from h.failures,
      List.nil_append, List.isEmpty_iff, List.map_eq_nil_iff, List.filter_eq_nil_iff]
    exact ⟨fun hall q => Bool.not_eq_true _ ▸ hall q (mem_all q),
      fun hall q _ => by rw [hall q]; exact Bool.false_ne_true⟩
  have hflag {flag : Bool} {happened : Prop} (hiff : flag = true ↔ happened) :
      (!flag) = false ↔ happened := by
    rw [Bool.not_eq_false']
    exact hiff
  have harmed : broken (missionReport ops options s wallSeconds) .armed = false ↔ _ :=
    hflag h.armed
  have hdisarmed : broken (missionReport ops options s wallSeconds) .disarmed = false ↔ _ :=
    hflag h.disarmed
  have hhealthy : broken (missionReport ops options s wallSeconds) .healthy = false ↔ _ :=
    hflag h.healthy
  have hautoLevel : broken (missionReport ops options s wallSeconds) .autoLevel = false ↔ _ :=
    hflag h.autoLevel
  have hmessages : broken (missionReport ops options s wallSeconds) .messages = false ↔
      20 ≤ s.report.flightStateMessages := by
    rw [broken, decide_eq_false_iff_not, UInt64.not_lt]
    rfl
  have haltitude : broken (missionReport ops options s wallSeconds) .altitude = false ↔ _ :=
    not_lt_maxOver h.altitude (by decide) (by decide +kernel)
  have hroll : broken (missionReport ops options s wallSeconds) .roll = false ↔ _ :=
    (not_lt_maxOver h.roll (by decide) (by decide +kernel)).trans exists_mem_window
  have hpitch : broken (missionReport ops options s wallSeconds) .pitch = false ↔ _ :=
    (not_lt_maxOver h.pitch (by decide) (by decide +kernel)).trans exists_mem_window
  have htilt : broken (missionReport ops options s wallSeconds) .tilt = false ↔ _ :=
    lt_maxOver h.tilt (by decide +kernel)
  simp only [List.mem_map, exists_exists_and_eq_and] at haltitude
  simp only [List.mem_map, forall_exists_index, and_imp, forall_apply_eq_imp_iff₂, Binary64.lt_max,
    Bool.or_eq_false_iff] at htilt
  rw [hpassed]
  constructor
  · intro hall
    exact
      { speed := hall .speed
        armed := harmed.mp (hall .armed)
        disarmed := hdisarmed.mp (hall .disarmed)
        healthy := hhealthy.mp (hall .healthy)
        autoLevel := hautoLevel.mp (hall .autoLevel)
        messages := hmessages.mp (hall .messages)
        altitude := haltitude.mp (hall .altitude)
        roll := hroll.mp (hall .roll)
        pitch := hpitch.mp (hall .pitch)
        tilt := htilt.mp (hall .tilt)
        landed := hall .landed
        settled := hall .settled }
  · intro hpasses q
    cases q with
    | speed => exact hpasses.speed
    | armed => exact harmed.mpr hpasses.armed
    | disarmed => exact hdisarmed.mpr hpasses.disarmed
    | healthy => exact hhealthy.mpr hpasses.healthy
    | autoLevel => exact hautoLevel.mpr hpasses.autoLevel
    | messages => exact hmessages.mpr hpasses.messages
    | altitude => exact haltitude.mpr hpasses.altitude
    | roll => exact hroll.mpr hpasses.roll
    | pitch => exact hpitch.mpr hpasses.pitch
    | tilt => exact htilt.mpr hpasses.tilt
    | landed => exact hpasses.landed
    | settled => exact hpasses.settled

end Verdict

/-! ## A short flight -/

def benchWhole (x : Binary64) : Int := x.value / (2 ^ 1074 : Nat)

def benchValue (n : Int) : Binary64 :=
  let m := n.natAbs
  if m = 0 then zero
  else ⟨UInt64.ofNat ((if n < 0 then 2 ^ 63 else 0) + (1023 + m.log2) * 2 ^ 52
    + (m - 2 ^ m.log2) * 2 ^ (52 - m.log2))⟩

def benchHalf : Binary64 := ⟨0x3FE0000000000000⟩

def benchOps : F64Ops UInt32 where
  add x y := benchValue (benchWhole x + benchWhole y)
  sub x y := benchValue (benchWhole x - benchWhole y)
  mul x y := benchValue (benchWhole x * benchWhole y)
  div x y := benchValue (benchWhole x / benchWhole y)
  ofNat n := benchValue n
  roundU64 x := UInt64.ofNat (benchWhole x).toNat
  roundI32 x := benchWhole x
  toDegrees x := if x = benchHalf then ⟨0x403CA5DC1A63C1F8⟩ else x
  toF32 _ := 0
  motorInput _ := zero

/-- A plant that hovers at 2 m, rolls in its second step and pitches in its third, and
lands in its fifth. -/
def benchApi : Api Nat where
  setFloat64 steps _ := (0, steps)
  doStep steps time dt := (⟨0, false, false, false, benchOps.add time dt⟩, steps + 1)
  getFloat64 steps := (0, fun k =>
    if k = 2 ∧ 1 ≤ steps ∧ steps ≤ 4 then benchValue 2
    else if (k = 4 ∧ steps = 2) ∨ (k = 5 ∧ steps = 3) then benchHalf
    else zero)

def benchOptions : Options := ⟨benchValue 20, benchValue 4, oneS⟩

/-- The firmware answers the second time, and is disarmed in the last. -/
def benchAnswers : List (MissionAnswer UInt32) :=
  [⟨none, true, true⟩] ++
    List.replicate 4 ⟨some (fun _ => 0, some ⟨true, true, true, 1⟩, 4), true, true⟩ ++
    [⟨some (fun _ => 0, some ⟨false, true, true, 1⟩, 4), true, true⟩]

end Rdd2.Mission
