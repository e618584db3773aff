import Rdd2.ControllerMemory
import Rdd2.MainLoopArming

/-!
# Controller history

What of its past a controller of the loop still carries. `main` resets both
controllers in every cycle that is not armed, that was not before, or that
changes the mode, whatever exit it then takes; so the cycles from the last
reset to a step are one flight in one mode (`SameFlight`).

If the generated code reads no more than it should (`ReadsOnly`), the
command of a cycle is that of a controller fresh from its initialisation
which has made only those steps: no cycle before the last reset has a part in
it (`no_history_crosses_boundary`).
-/

namespace Rdd2

open Resettable

variable {F D R E : Type}

/-! ## Events of the controllers -/

def rateEvent : Call F → Option (Event (RateStep F))
  | .rateControllerReset => some .reset
  | .rateControllerStep rateDesired gyro dt integrate =>
      some (.step (rateDesired, gyro, dt, integrate))
  | _ => none

def attitudeEvent : Call F → Option (Event (AttitudeStep F))
  | .attitudeControllerReset => some .reset
  | .attitudeControllerStep attitude attitudeDesired rc dt =>
      some (.step (attitude, attitudeDesired, rc, dt))
  | _ => none

/-- For each step of the cycle: every earlier step since the last reset is of
a cycle that was armed and in the mode of this one, as were all between. -/
def SameFlight {A : Type} (event : Call F → Option (Event A)) (done : List (CycleReport F))
    (report : CycleReport F) : Prop :=
  ∀ front call back a, report.calls = front ++ call :: back → event call = some (.step a) →
    ∀ early r late, done ++ [{ report with calls := front }] = early ++ r :: late →
      ∀ before earlier between b, r.calls = before ++ earlier :: between →
        event earlier = some (.step b) →
        (∀ c ∈ between ++ late.flatMap CycleReport.calls, event c ≠ some .reset) →
        ∀ r' ∈ r :: late, r'.armed = true ∧ r'.flightMode = report.flightMode

/-- A call that is no event of either controller. -/
def Call.Silent (call : Call F) : Prop := rateEvent call = none ∧ attitudeEvent call = none

theorem rateEvents_silent {calls : List (Call F)} (h : ∀ call ∈ calls, call.Silent) :
    calls.filterMap rateEvent = [] :=
  List.filterMap_eq_nil_iff.mpr fun call hcall => (h call hcall).1

theorem attitudeEvents_silent {calls : List (Call F)} (h : ∀ call ∈ calls, call.Silent) :
    calls.filterMap attitudeEvent = [] :=
  List.filterMap_eq_nil_iff.mpr fun call hcall => (h call hcall).2

def runEvents {A : Type} (event : Call F → Option (Event A)) (reports : List (CycleReport F)) :
    List (Event A) :=
  (reports.flatMap CycleReport.calls).filterMap event

theorem runEvents_concat {A : Type} (event : Call F → Option (Event A))
    (done : List (CycleReport F)) (report : CycleReport F) :
    runEvents event (done ++ [report])
      = runEvents event done ++ report.calls.filterMap event := by
  simp [runEvents]

/-! ## Stages that do not command -/

/-- Neither controller is touched, nor what they command. -/
structure ControlKept (a b : Loop F D R E) : Prop where
  rateController : b.rateController = a.rateController
  attitudeController : b.attitudeController = a.attitudeController
  rateCmd : b.ctx.rateCmd = a.ctx.rateCmd
  rateDesired : b.ctx.rateDesired = a.ctx.rateDesired

theorem updateEstimator_control [CFloat F] [CDouble F D] (gen : Generated D R E) (due : Bool)
    (loop : Loop F D R E) :
    ControlKept loop (updateEstimator gen due loop).loop ∧
      ∀ call ∈ (updateEstimator gen due loop).calls, call.Silent := by
  unfold updateEstimator
  split
  · split
    · exact ⟨⟨rfl, rfl, rfl, rfl⟩,
        List.forall_mem_cons.mpr ⟨⟨rfl, rfl⟩, List.forall_mem_singleton.mpr ⟨rfl, rfl⟩⟩⟩
    · exact ⟨⟨rfl, rfl, rfl, rfl⟩, fun _ h => nomatch h⟩
  · split
    · exact ⟨⟨rfl, rfl, rfl, rfl⟩,
        List.forall_mem_cons.mpr ⟨⟨rfl, rfl⟩, List.forall_mem_singleton.mpr ⟨rfl, rfl⟩⟩⟩
    · exact ⟨⟨rfl, rfl, rfl, rfl⟩, fun _ h => nomatch h⟩

theorem beginCycle_controllers [CFloat F] [CFloat D] (gen : Generated D R E) (board : Board)
    (input : CycleInput F) (loop : Loop F D R E) :
    (beginCycle gen board loop input).loop.rateController = loop.rateController ∧
      (beginCycle gen board loop input).loop.attitudeController = loop.attitudeController := by
  simp only [beginCycle, accumulateSample]
  split <;> exact ⟨rfl, rfl⟩

theorem finalizeCycle_control (board : Board) (input : CycleInput F) (timestampNs : UInt64)
    (loop : Loop F D R E) :
    ControlKept loop (finalizeCycle board input timestampNs loop).loop ∧
      ∀ call ∈ (finalizeCycle board input timestampNs loop).calls, call.Silent := by
  simp only [finalizeCycle, publishFlightState, List.forall_mem_cons]
  split
  · exact ⟨⟨rfl, rfl, rfl, rfl⟩, ⟨rfl, rfl⟩, List.forall_mem_nil _⟩
  · refine ⟨⟨rfl, rfl, rfl, rfl⟩, ⟨rfl, rfl⟩, ?_⟩
    dsimp only
    split
    · rw [List.forall_mem_singleton]
      exact ⟨rfl, rfl⟩
    · exact List.forall_mem_nil _

theorem motorCalls_silent (calls : List (MotorCall F)) :
    ∀ call ∈ calls.map Call.motor, call.Silent := by
  intro call hcall
  obtain ⟨motorCall, -, rfl⟩ := List.mem_map.mp hcall
  exact ⟨rfl, rfl⟩

theorem resetControllers_events [CFloat D] (required : Bool) (loop : Loop F D R E) :
    let reset := resetControllers required loop
    reset.calls.filterMap rateEvent = Machine.resets required ∧
      reset.calls.filterMap attitudeEvent = Machine.resets required := by
  cases required <;> exact ⟨rfl, rfl⟩

section History

variable [CFloat F] [CFloat D] [CDouble F D] (gen : Generated D R E) (board : Board)
  (input : CycleInput F)

/-! ## Commands -/

/-- The part of the cycle in which the controllers are stepped, by what it
leaves of them. -/
structure Commanded (loop : Loop F D R E) (calls : List (Call F)) (loop' : Loop F D R E) :
    Prop where
  rate : (rateMachine gen).Round loop.rateController false (· = loop'.ctx.rateCmd)
    (calls.filterMap rateEvent) loop'.rateController
  attitude : (attitudeMachine gen).Round loop.attitudeController false
    (fun answer => ∀ command ∈ answer, loop'.ctx.rateDesired.roll = command.1 ∧
      loop'.ctx.rateDesired.pitch = command.2)
    (calls.filterMap attitudeEvent) loop'.attitudeController

/-- An exit that leaves the controllers alone. -/
theorem Commanded.of_silent {loop loop' : Loop F D R E} {calls : List (Call F)}
    (hrate : loop'.rateController = loop.rateController)
    (hattitude : loop'.attitudeController = loop.attitudeController)
    (hcalls : ∀ call ∈ calls, call.Silent) : Commanded gen loop calls loop' where
  rate := by
    rw [rateEvents_silent hcalls, hrate]
    exact .idle
  attitude := by
    rw [attitudeEvents_silent hcalls, hattitude]
    exact .idle

/-- `desireRates` touches the attitude controllers only, in one step. -/
theorem desireRates_attitude (due required : Bool) (attitudeDt : F) (loop : Loop F D R E) :
    let desired := desireRates gen due required attitudeDt loop
    (attitudeMachine gen).Round loop.attitudeController false
      (fun answer => ∀ command ∈ answer, desired.loop.ctx.rateDesired.roll = command.1 ∧
        desired.loop.ctx.rateDesired.pitch = command.2)
      (desired.calls.filterMap attitudeEvent) desired.loop.attitudeController := by
  intro desired
  simp only [desired, desireRates, stepAttitude]
  split
  · split
    · obtain ⟨hleft, hwritten⟩ := attitudeControllerStep_held gen loop.attitudeController
        loop.ctx.attitude (attitudeDesiredFromRc gen loop.ctx.rc loop.ctx.attitude) loop.ctx.rc
        (if CFloat.lt (CFloat.lit 0) attitudeDt then attitudeDt else loop.ctx.dt)
        loop.ctx.rateDesired
      simp only [hleft]
      exact .step _ hwritten
    · exact .idle
  · exact .idle

theorem desireRates_rate (due required : Bool) (attitudeDt : F) (loop : Loop F D R E) :
    let desired := desireRates gen due required attitudeDt loop
    desired.calls.filterMap rateEvent = [] ∧
      desired.loop.rateController = loop.rateController := by
  simp only [desireRates, stepAttitude]
  split
  · split <;> exact ⟨rfl, rfl⟩
  · exact ⟨rfl, rfl⟩

theorem fly_commanded (due required : Bool) (attitudeDt : F) (loop : Loop F D R E) :
    let flown := fly gen board input due required attitudeDt loop
    Commanded gen loop flown.calls flown.loop := by
  obtain ⟨hevents, hcontroller⟩ := desireRates_rate gen due required attitudeDt loop
  have hattitude := desireRates_attitude gen due required attitudeDt loop
  have hwrites := motorCalls_silent
    (motorOutputWriteAll board input.atTarget input.motorClock
      (mixMotors gen (desireRates gen due required attitudeDt loop).loop).loop.ctx.motors
      (mixMotors gen (desireRates gen due required attitudeDt loop).loop).loop.ctx.status.armed
      false).1
  constructor
  · simp only [fly, writeMotors, List.filterMap_append, hevents, rateEvents_silent hwrites,
      List.nil_append, List.append_nil]
    rw [← hcontroller]
    exact .step _ rfl
  · have hmix : (mixMotors gen (desireRates gen due required attitudeDt loop).loop).calls.filterMap
        attitudeEvent = [] := rfl
    simp only [fly, writeMotors, List.filterMap_append, hmix, attitudeEvents_silent hwrites,
      List.append_nil]
    exact hattitude

theorem commandMotors_commanded (due required : Bool) (attitudeDt : F) (loop : Loop F D R E) :
    let commanded := commandMotors gen board input due required attitudeDt loop
    Commanded gen loop commanded.calls commanded.loop := by
  simp only [commandMotors]
  split
  · exact .of_silent gen rfl rfl (motorCalls_silent _)
  · split
    · exact .of_silent gen rfl rfl (motorCalls_silent _)
    · split
      · exact .of_silent gen rfl rfl (motorCalls_silent _)
      · -- the test getters have written nothing but `motors` and `raw_test`
        obtain ⟨hrate, hattitude⟩ := fly_commanded gen board input due required attitudeDt
          { loop with ctx :=
              { loop.ctx with
                motors := (motorTestGet input.motorTest).2
                rawTest := (motorTestGet input.motorRawTest).2 } }
        exact ⟨hrate, hattitude⟩

/-! ## The cycle -/

def resetRequired (loop : Loop F D R E) : Bool :=
  controllerResetRequired loop (beginCycle gen board loop input).loop

theorem cycle_armed_report (loop : Loop F D R E) :
    (cycle gen board loop input).2.armed = (cycle gen board loop input).1.ctx.status.armed ∧
      (cycle gen board loop input).2.flightMode = (cycle gen board loop input).1.ctx.flightMode :=
  ⟨rfl, rfl⟩

/-- Without a reset the cycle is armed, and was before in the same mode. -/
theorem flight_continues {loop : Loop F D R E}
    (h : resetRequired gen board input loop = false) :
    (cycle gen board loop input).2.armed = true ∧ loop.ctx.status.armed = true ∧
      (cycle gen board loop input).2.flightMode = loop.ctx.flightMode := by
  simp only [resetRequired, controllerResetRequired, Bool.or_eq_false_iff, Bool.not_eq_false',
    bne_eq_false_iff_eq] at h
  obtain ⟨⟨harmed, hwas⟩, hmode⟩ := h
  obtain ⟨hreport, hreportMode⟩ := cycle_armed_report gen board input loop
  have hkept := cycle_keeps_inputs gen board input loop
  refine ⟨?_, hwas, ?_⟩
  · rw [hreport, hkept.status, harmed]
  · rw [hreportMode, hkept.flightMode, hmode]

theorem resetControllers_controllers (required : Bool) (loop : Loop F D R E) :
    let reset := resetControllers required loop
    reset.loop.rateController
        = (rateMachine (F := F) gen).after loop.rateController (Machine.resets required) ∧
      reset.loop.attitudeController
        = (attitudeMachine (F := F) gen).after loop.attitudeController
          (Machine.resets required) := by
  cases required <;> exact ⟨rfl, rfl⟩

def commandCycle (loop : Loop F D R E) : Stage F D R E UInt64 :=
  let estimated := estimateCycle gen board input loop
  let required := resetRequired gen board input loop
  commandMotors gen board input (beginCycle gen board loop input).result required
    estimated.result (resetControllers required estimated.loop).loop

theorem cycle_commanded (loop : Loop F D R E) :
    Commanded gen (resetControllers (resetRequired gen board input loop)
        (estimateCycle gen board input loop).loop).loop
      (commandCycle gen board input loop).calls (commandCycle gen board input loop).loop :=
  commandMotors_commanded gen board input _ _ _ _

/-- The events of a cycle are its resets and those of its commands. -/
theorem cycle_events {A : Type} {event : Call F → Option (Event A)}
    (hsilent : ∀ calls : List (Call F), (∀ call ∈ calls, call.Silent) →
      calls.filterMap event = [])
    (hreset : ∀ required (loop : Loop F D R E),
      (resetControllers required loop).calls.filterMap event = Machine.resets required)
    (loop : Loop F D R E) :
    (cycle gen board loop input).2.calls.filterMap event
      = Machine.resets (resetRequired gen board input loop)
        ++ (commandCycle gen board input loop).calls.filterMap event := by
  have hcalls : (cycle gen board loop input).2.calls
      = (estimateCycle gen board input loop).calls
        ++ (resetControllers (resetRequired gen board input loop)
          (estimateCycle gen board input loop).loop).calls
        ++ (commandCycle gen board input loop).calls
        ++ (finalizeCycle board input (commandCycle gen board input loop).result
          (commandCycle gen board input loop).loop).calls := rfl
  have hestimated := hsilent _ (updateEstimator_control gen
    (beginCycle gen board loop input).result (beginCycle gen board loop input).loop).2
  have hfinished := hsilent _ (finalizeCycle_control board input
    (commandCycle gen board input loop).result (commandCycle gen board input loop).loop).2
  rw [hcalls, List.filterMap_append, List.filterMap_append, List.filterMap_append, hreset,
    hfinished, estimateCycle, hestimated, List.nil_append, List.append_nil]

theorem estimateCycle_controllers (loop : Loop F D R E) :
    (estimateCycle gen board input loop).loop.rateController = loop.rateController ∧
      (estimateCycle gen board input loop).loop.attitudeController = loop.attitudeController := by
  obtain ⟨hrate, hattitude⟩ := beginCycle_controllers gen board input loop
  obtain ⟨hkept, -⟩ := updateEstimator_control gen (beginCycle gen board loop input).result
    (beginCycle gen board loop input).loop
  exact ⟨hkept.rateController.trans hrate, hkept.attitudeController.trans hattitude⟩

theorem cycle_keeps_control (loop : Loop F D R E) :
    ControlKept (commandCycle gen board input loop).loop (cycle gen board loop input).1 :=
  (finalizeCycle_control board input _ _).1

theorem cycle_rate (loop : Loop F D R E) :
    (rateMachine gen).Round loop.rateController (resetRequired gen board input loop)
      (· = (cycle gen board loop input).1.ctx.rateCmd)
      ((cycle gen board loop input).2.calls.filterMap rateEvent)
      (cycle gen board loop input).1.rateController := by
  have hround := (cycle_commanded gen board input loop).rate
  have hkept := cycle_keeps_control gen board input loop
  rw [(resetControllers_controllers gen _ _).1, (estimateCycle_controllers gen board input loop).1]
    at hround
  rw [cycle_events gen board input (fun _ => rateEvents_silent)
    (fun required loop => (resetControllers_events required loop).1), hkept.rateController,
    hkept.rateCmd]
  exact hround.after_resets

theorem cycle_attitude (loop : Loop F D R E) :
    (attitudeMachine gen).Round loop.attitudeController (resetRequired gen board input loop)
      (fun answer => ∀ command ∈ answer,
        (cycle gen board loop input).1.ctx.rateDesired.roll = command.1 ∧
          (cycle gen board loop input).1.ctx.rateDesired.pitch = command.2)
      ((cycle gen board loop input).2.calls.filterMap attitudeEvent)
      (cycle gen board loop input).1.attitudeController := by
  have hround := (cycle_commanded gen board input loop).attitude
  have hkept := cycle_keeps_control gen board input loop
  rw [(resetControllers_controllers gen _ _).2, (estimateCycle_controllers gen board input loop).2]
    at hround
  rw [cycle_events gen board input (fun _ => attitudeEvents_silent)
    (fun required loop => (resetControllers_events required loop).2), hkept.attitudeController,
    hkept.rateDesired]
  exact hround.after_resets

/-! ## Runs -/

/-- A controller of the loop, the calls of which every cycle makes as a round
of a machine. -/
def Rounds {S A B : Type} (m : Machine S A B) (event : Call F → Option (Event A))
    (controller : Loop F D R E → S) : Prop :=
  ∀ (loop : Loop F D R E) (input : CycleInput F), ∃ T,
    m.Round (controller loop) (resetRequired gen board input loop) T
      ((cycle gen board loop input).2.calls.filterMap event)
      (controller (cycle gen board loop input).1)

theorem rate_rounds :
    Rounds gen board (rateMachine (F := F) gen) rateEvent Loop.rateController :=
  fun loop input => ⟨_, cycle_rate gen board input loop⟩

theorem attitude_rounds :
    Rounds gen board (attitudeMachine (F := F) gen) attitudeEvent Loop.attitudeController :=
  fun loop input => ⟨_, cycle_attitude gen board input loop⟩

variable {gen board}
variable {S A B : Type} {m : Machine S A B} {event : Call F → Option (Event A)}
  {controller : Loop F D R E → S}

theorem Rounds.after_run (h : Rounds gen board m event controller)
    (inputs : List (CycleInput F)) :
    controller (loopAfter gen board inputs)
      = m.after (controller (bootLoop gen)) (runEvents event (reports gen board inputs)) := by
  induction inputs using List.reverseRecOn with
  | nil => rfl
  | append_singleton inputs input ih =>
      obtain ⟨T, hround⟩ := h (loopAfter gen board inputs) input
      rw [loopAfter_concat, reports_concat, runEvents_concat, Machine.after_append, ← ih]
      exact hround.after_eq

/-! ## Flights -/

variable (gen board) in
/-- The report is that of a cycle without a reset, whatever cycle that is. -/
def Continuing (report : CycleReport F) : Prop :=
  ∀ (loop : Loop F D R E) (input : CycleInput F), report = (cycle gen board loop input).2 →
    resetRequired gen board input loop = false

/-- Cycles without a reset continue the flight of the one before them. -/
theorem flight_held {inputs : List (CycleInput F)} {early rest : List (CycleReport F)}
    {r : CycleReport F} (h : reports gen board inputs = early ++ r :: rest)
    (hrest : ∀ q ∈ rest, Continuing gen board q) :
    ∀ q ∈ rest, r.armed = true ∧ q.armed = true ∧ r.flightMode = q.flightMode := by
  induction rest generalizing early r with
  | nil => exact fun _ hq => nomatch hq
  | cons q rest ih =>
      rw [List.forall_mem_cons] at hrest ⊢
      obtain ⟨hquiet, hrest⟩ := hrest
      have hnext : r.armed = true ∧ q.armed = true ∧ r.flightMode = q.flightMode := by
        obtain ⟨loop, i, i', rfl, hq⟩ := Mealy.outputs_next (cycle gen board) h
        obtain ⟨harmed, hwas, hmode⟩ := flight_continues gen board i' (hquiet _ _ hq)
        rw [hq]
        exact ⟨hwas, harmed, hmode.symm⟩
      refine ⟨hnext, fun q' hq' => ?_⟩
      have hcons : reports gen board inputs = (early ++ [r]) ++ q :: rest := by
        rw [h, List.append_assoc]
        rfl
      obtain ⟨-, harmed, hmode⟩ := ih hcons hrest q' hq'
      exact ⟨hnext.1, harmed, hnext.2.2.trans hmode⟩

/-- A cycle that shows no reset, or none before a step, had none. -/
theorem Rounds.continuing (h : Rounds gen board m event controller)
    {report : CycleReport F} {calls : List (Call F)}
    (hcalls : calls = report.calls ∨ ∃ call a back, report.calls = calls ++ call :: back ∧
      event call = some (.step a))
    (hreset : ∀ c ∈ calls, event c ≠ some .reset) : Continuing gen board report := by
  intro loop input hreport
  obtain ⟨T, hround⟩ := h loop input
  by_contra hrequired
  rw [Bool.not_eq_false] at hrequired
  rw [hrequired, ← hreport] at hround
  have hmem : Event.reset ∈ calls.filterMap event := by
    rcases hcalls with rfl | ⟨call, a, back, hsplit, hstep⟩
    · exact hround.reset_mem
    · have hes : report.calls.filterMap event
          = calls.filterMap event ++ .step a :: back.filterMap event := by
        rw [hsplit, List.filterMap_append, List.filterMap_cons_some hstep]
      exact hround.reset_of_step hes
  obtain ⟨c, hc, hevent⟩ := List.mem_filterMap.mp hmem
  exact hreset c hc hevent

/-- Whatever is stepped in rounds is stepped in flights. -/
theorem Rounds.sameFlight (h : Rounds gen board m event controller)
    (pre : List (CycleInput F))
    (harmed : (cycle gen board (loopAfter gen board pre) input).2.armed = true) :
    SameFlight event (reports gen board pre)
      (cycle gen board (loopAfter gen board pre) input).2 := by
  have hrun := reports_concat gen board input pre
  generalize (cycle gen board (loopAfter gen board pre) input).2 = report at harmed hrun
  intro front call back a hcalls hstep early r late hsplit before earlier between b hr hearlier
    hreset r' hr'
  rcases List.eq_nil_or_concat' late with rfl | ⟨mid, last, rfl⟩
  · -- the earlier step is one of the cycle itself
    obtain ⟨-, hcut⟩ := List.append_inj' hsplit rfl
    obtain ⟨rfl, -⟩ := List.cons.inj hcut
    rw [List.mem_singleton.mp hr']
    exact ⟨harmed, rfl⟩
  · have hsplit' : reports gen board pre ++ [{ report with calls := front }]
        = (early ++ r :: mid) ++ [last] := by
      rw [hsplit, List.append_assoc, List.cons_append]
    obtain ⟨hdone, hcut⟩ := List.append_inj' hsplit' rfl
    obtain ⟨rfl, -⟩ := List.cons.inj hcut
    rw [List.forall_mem_append, List.flatMap_append, List.forall_mem_append] at hreset
    obtain ⟨-, hmid, hfront⟩ := hreset
    rw [hdone, List.append_assoc, List.cons_append] at hrun
    have hcontinuing : ∀ q ∈ mid ++ [report], Continuing gen board q := by
      rw [List.forall_mem_append, List.forall_mem_singleton]
      refine ⟨fun q hq => h.continuing (Or.inl rfl) fun c hc => ?_, ?_⟩
      · exact hmid c (List.mem_flatMap_of_mem hq hc)
      · refine h.continuing (Or.inr ⟨call, a, back, hcalls, hstep⟩) ?_
        simpa using hfront
    have hheld := flight_held hrun hcontinuing
    obtain ⟨hbefore, -, hmode⟩ := hheld report (by simp)
    rcases List.mem_cons.mp hr' with rfl | hr'
    · exact ⟨hbefore, hmode⟩
    · rcases List.mem_append.mp hr' with hr' | hr'
      · obtain ⟨-, harmed', hmode'⟩ := hheld r' (List.mem_append_left _ hr')
        exact ⟨harmed', hmode'.symm.trans hmode⟩
      · rw [List.mem_singleton.mp hr']
        exact ⟨harmed, rfl⟩

variable (gen board)

/-- In every cycle of every run. If the cycle is armed, what either controller
was stepped with since its last reset comes from cycles of this flight in this
mode. And if the generated code reads no more than it should, the command of a
step is that of a controller fresh from its initialisation to the steps since
the last reset; an attitude step that returns at once has none. -/
theorem no_history_crosses_boundary (pre : List (CycleInput F)) (input : CycleInput F) :
    let done := reports gen board pre
    let report := (cycle gen board (loopAfter gen board pre) input).2
    let ctx := (cycle gen board (loopAfter gen board pre) input).1.ctx
    (report.armed = true →
      SameFlight rateEvent done report ∧ SameFlight attitudeEvent done report) ∧
    ∀ (C : Type) (calibration : R → C), ReadsOnly gen calibration →
      ((∃ call ∈ report.calls, ∃ a, rateEvent call = some (.step a)) →
        (rateMachine gen).remembered (rateControllerInit F gen)
          (runEvents rateEvent (done ++ [report])) = some ctx.rateCmd) ∧
      ((∃ call ∈ report.calls, ∃ a, attitudeEvent call = some (.step a)) →
        ∃ answer, (attitudeMachine gen).remembered (attitudeControllerInit F gen)
          (runEvents attitudeEvent (done ++ [report])) = some answer ∧
          ∀ command ∈ answer, ctx.rateDesired.roll = command.1 ∧
            ctx.rateDesired.pitch = command.2) := by
  intro done report ctx
  refine ⟨fun harmed => ⟨(rate_rounds gen board).sameFlight input pre harmed,
    (attitude_rounds gen board).sameFlight input pre harmed⟩, ?_⟩
  intro C calibration hreads
  constructor
  · rintro ⟨call, hcall, a, hevent⟩
    have hround := cycle_rate gen board input (loopAfter gen board pre)
    rw [(rate_rounds gen board).after_run pre] at hround
    obtain ⟨command, hremembered, hcommand⟩ := hreads.rate_forgets.answer hround
      ⟨a, List.mem_filterMap.mpr ⟨call, hcall, hevent⟩⟩
    rw [runEvents_concat, hremembered, hcommand]
  · rintro ⟨call, hcall, a, hevent⟩
    have hround := cycle_attitude gen board input (loopAfter gen board pre)
    rw [(attitude_rounds gen board).after_run pre] at hround
    obtain ⟨answer, hremembered, hanswer⟩ := hreads.attitude_forgets.answer hround
      ⟨a, List.mem_filterMap.mpr ⟨call, hcall, hevent⟩⟩
    exact ⟨answer, by rw [runEvents_concat, hremembered], hanswer⟩

end History

/-! ## A bench run -/

/-- The bench controller with an integrator, the state of which its command
shows. -/
def integratingGenerated : Generated Rat Unit Unit :=
  { benchGenerated with
    startup := fun s => { s with kp := 1, ki := 1 }
    dostep := fun s =>
      { benchGenerated.dostep s with
        previousEInt := s.eInt
        eInt := s.eInt + s.ki * s.integrate * (s.setpoint - s.measurement) * s.samplePeriod
        pidOutput := s.kp * (s.setpoint - s.measurement) + s.eInt } }

theorem integratingGenerated_readsOnly : ReadsOnly integratingGenerated (id : Unit → Unit) where
  dostep_calibration _ := ⟨rfl, rfl, rfl, rfl, rfl, rfl⟩
  dostep_pid s t h hdt hcalibration := by
    refine ⟨h.setpoint, h.measurement, h.integrate, h.previousMeasFiltValid, h.previousMeasFilt,
      h.eInt, ?_, h.measFilt, h.derivative, h.pidError, ?_, h.measFiltValid⟩
    · simp only [integratingGenerated, h.eInt, h.integrate, h.setpoint, h.measurement, hdt,
        hcalibration.ki]
    · simp only [integratingGenerated, h.eInt, h.setpoint, h.measurement, hcalibration.kp]

/-- Armed in ACRO, then two cycles of AUTO_LEVEL. -/
theorem no_history_crosses_boundary_integrating :
    let done := reports integratingGenerated benchBoard
      [benchInput 1000 1000, benchInput 1500 2000]
    let last := cycle integratingGenerated benchBoard
      (loopAfter integratingGenerated benchBoard [benchInput 1000 1000, benchInput 1500 2000])
      (benchInput 1500 2000)
    SameFlight rateEvent done last.2 ∧
      (rateMachine integratingGenerated).remembered (rateControllerInit Rat integratingGenerated)
        (runEvents rateEvent (done ++ [last.2])) = some last.1.ctx.rateCmd := by
  intro done last
  have hsteps : last.2.calls.any (fun call => match rateEvent call with
      | some (.step _) => true
      | _ => false) = true := by
    decide +kernel
  obtain ⟨hflight, hcommand⟩ := no_history_crosses_boundary integratingGenerated benchBoard
    [benchInput 1000 1000, benchInput 1500 2000] (benchInput 1500 2000)
  refine ⟨(hflight (by decide +kernel)).1,
    (hcommand Unit id integratingGenerated_readsOnly).1 ?_⟩
  obtain ⟨call, hcall, hevent⟩ := List.any_eq_true.mp hsteps
  refine ⟨call, hcall, ?_⟩
  split at hevent
  · rename_i a ha
    exact ⟨a, ha⟩
  · cases hevent

end Rdd2
