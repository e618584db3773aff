import Rdd2.MainLoopArming

/-!
# AUTO_LEVEL and the attitude it flies on

The attitude is fresh when the estimator gave it out after a
re-initialisation from the accelerometer that no failed IMU has followed.
The loop re-initialises in disarmed cycles only, and only in those where the
background countdown runs out; arming waits for neither. A vehicle armed in
the first cycle after boot, or in the one the IMU comes back in, predicts on
an estimator that was never re-initialised, and AUTO_LEVEL steps its
controllers on what comes out (`first_cycle_arms_uninitialised`).

Freshness itself is stable: once re-initialised, the attitude stays fresh
in every cycle until the IMU fails (`fresh_of_initialised`). So the
controllers step on fresh attitudes in every run that enters armed
AUTO_LEVEL only with the estimator re-initialised
(`autoLevel_steps_on_fresh_attitude`).
-/

namespace Rdd2

variable {F D R E : Type}

/-! ## Fresh attitudes -/

/-- After the reported cycles, `attitude` is what the estimator last gave
out, and a re-initialisation came before it that no cycle with a failed IMU
has followed. -/
def FreshAttitude (reports : List (CycleReport F)) (attitude : AttitudeEuler F) : Prop :=
  ∃ early late before accel between rest,
    reports = early ++ late ∧ (∀ report ∈ late, report.imuOk = true) ∧
    late.flatMap CycleReport.calls =
      before ++ .attitudeEstimatorResetFromAccel accel ::
        (between ++ .attitudeEstimatorGetAttitude attitude :: rest) ∧
    ∀ a, Call.attitudeEstimatorGetAttitude a ∉ rest

/-- If the cycle is armed, each step of its attitude controllers is on an
attitude that is fresh at that point of the cycle. -/
def StepsOnFreshAttitude (done : List (CycleReport F)) (report : CycleReport F) : Prop :=
  report.armed = true → ∀ front attitude desired rc dt back,
    report.calls = front ++ .attitudeControllerStep attitude desired rc dt :: back →
    FreshAttitude (done ++ [{ report with calls := front }]) attitude

/-- A re-initialisation makes the attitude it gives out fresh. -/
theorem FreshAttitude.of_reset {done : List (CycleReport F)} {report : CycleReport F}
    {accel : Vec3f F} {attitude : AttitudeEuler F} {rest : List (Call F)}
    (himu : report.imuOk = true)
    (hcalls : report.calls =
      .attitudeEstimatorResetFromAccel accel :: .attitudeEstimatorGetAttitude attitude :: rest)
    (hrest : ∀ a, Call.attitudeEstimatorGetAttitude a ∉ rest) :
    FreshAttitude (done ++ [report]) attitude := by
  refine ⟨done, [report], [], accel, [], rest, rfl, ?_, ?_, hrest⟩
  · intro r hr
    rw [List.mem_singleton] at hr
    exact hr ▸ himu
  · simpa using hcalls

/-- A cycle with the IMU working keeps the attitude fresh, whether it asks
the estimator again or not. -/
theorem FreshAttitude.append {done : List (CycleReport F)} {report : CycleReport F}
    {attitude attitude' : AttitudeEuler F} {asked rest : List (Call F)}
    (h : FreshAttitude done attitude) (himu : report.imuOk = true)
    (hcalls : report.calls = asked ++ rest)
    (hasked : (asked = [] ∧ attitude' = attitude) ∨
      ∃ first, asked = [first, .attitudeEstimatorGetAttitude attitude'])
    (hrest : ∀ a, Call.attitudeEstimatorGetAttitude a ∉ rest) :
    FreshAttitude (done ++ [report]) attitude' := by
  obtain ⟨early, late, before, accel, between, rest₀, rfl, hlate, hflat, hrest₀⟩ := h
  have himus : ∀ r ∈ late ++ [report], r.imuOk = true := by
    intro r hr
    rcases List.mem_append.mp hr with hr | hr
    · exact hlate r hr
    · rw [List.mem_singleton] at hr
      exact hr ▸ himu
  rcases hasked with ⟨rfl, rfl⟩ | ⟨first, rfl⟩
  · refine ⟨early, late ++ [report], before, accel, between, rest₀ ++ rest, by simp, himus, ?_, ?_⟩
    · simp [hflat, hcalls]
    · intro a ha
      rcases List.mem_append.mp ha with ha | ha
      · exact hrest₀ a ha
      · exact hrest a ha
  · refine ⟨early, late ++ [report], before, accel,
      between ++ .attitudeEstimatorGetAttitude attitude :: (rest₀ ++ [first]), rest, by simp,
      himus, ?_, hrest⟩
    simp [hflat, hcalls]

/-! ## Calls behind the estimator -/

/-- What the stages after the estimator may call: not the estimator, and
the attitude controllers only in AUTO_LEVEL and on the attitude of `loop`. -/
def Call.Acts (loop : Loop F D R E) : Call F → Prop
  | .attitudeEstimatorResetFromAccel _ => False
  | .attitudeEstimatorPredict _ _ _ _ => False
  | .attitudeEstimatorGetAttitude _ => False
  | .attitudeControllerStep attitude _ _ _ =>
      attitude = loop.ctx.attitude ∧ loop.ctx.flightMode = .autoLevel
  | _ => True

theorem Call.Acts.of_kept {a b : Loop F D R E} (h : EstimateKept a b) {call : Call F}
    (hcall : call.Acts b) : call.Acts a := by
  cases call <;> simp only [Call.Acts] at hcall ⊢
  rw [h.attitude, h.flightMode] at hcall
  exact hcall

theorem Call.Acts.no_getAttitude {loop : Loop F D R E} {calls : List (Call F)}
    (h : ∀ call ∈ calls, call.Acts loop) (a : AttitudeEuler F) :
    Call.attitudeEstimatorGetAttitude a ∉ calls :=
  fun ha => h _ ha

theorem resetControllers_acts [CFloat D] (required : Bool) (loop : Loop F D R E) :
    ∀ call ∈ (resetControllers required loop).calls, call.Acts loop := by
  unfold resetControllers
  split <;> simp [Call.Acts]

theorem writeMotors_acts [CFloat F] (board : Board) (input : CycleInput F)
    (armed testMode : Bool) (loop loop' : Loop F D R E) :
    ∀ call ∈ (writeMotors board input armed testMode loop).calls, call.Acts loop' := by
  intro call hcall
  obtain ⟨motorCall, _, rfl⟩ := List.mem_map.mp hcall
  trivial

theorem finalizeCycle_acts (board : Board) (input : CycleInput F) (timestampNs : UInt64)
    (loop loop' : Loop F D R E) :
    ∀ call ∈ (finalizeCycle board input timestampNs loop).calls, call.Acts loop' := by
  intro call hcall
  simp only [finalizeCycle, publishFlightState, List.mem_cons] at hcall
  rcases hcall with rfl | hcall
  · trivial
  · split at hcall
    · cases hcall
    · dsimp only at hcall
      split at hcall
      · rw [List.mem_singleton] at hcall
        subst hcall
        trivial
      · cases hcall

/-! ## Calls of the estimator -/

theorem beginCycle_attitude [CFloat F] [CFloat D] (gen : Generated D R E) (board : Board)
    (input : CycleInput F) (loop : Loop F D R E) (himu : input.imuOk = true) :
    (beginCycle gen board loop input).loop.ctx.attitude = loop.ctx.attitude := by
  simp only [beginCycle, accumulateSample, takeInputs, readInputs, himu, if_true]

section Estimator

variable [CFloat F] [CDouble F D] (gen : Generated D R E)

/-- Whatever the estimator stage does, the attitude is the one it asked for
last. -/
theorem updateEstimator_calls (due : Bool) (loop : Loop F D R E) :
    ((updateEstimator gen due loop).calls = [] ∧
      (updateEstimator gen due loop).loop.ctx.attitude = loop.ctx.attitude) ∨
    ∃ first, (updateEstimator gen due loop).calls =
      [first, .attitudeEstimatorGetAttitude (updateEstimator gen due loop).loop.ctx.attitude] := by
  unfold updateEstimator
  split
  · split
    · exact Or.inr ⟨_, rfl⟩
    · exact Or.inl ⟨rfl, rfl⟩
  · split
    · exact Or.inr ⟨_, rfl⟩
    · exact Or.inl ⟨rfl, rfl⟩

theorem updateEstimator_reset {loop : Loop F D R E} (harmed : loop.ctx.status.armed = false)
    (himu : loop.ctx.status.imuOk = true) :
    (updateEstimator gen true loop).calls =
      [.attitudeEstimatorResetFromAccel loop.ctx.accel,
        .attitudeEstimatorGetAttitude (updateEstimator gen true loop).loop.ctx.attitude] := by
  unfold updateEstimator
  simp [harmed, himu]

theorem updateEstimator_no_step (due : Bool) (loop : Loop F D R E)
    (attitude desired : AttitudeEuler F) (rc : RcChannels) (dt : F) :
    Call.attitudeControllerStep attitude desired rc dt ∉ (updateEstimator gen due loop).calls := by
  unfold updateEstimator
  split
  · split <;> simp
  · split <;> simp

theorem mem_updateEstimator_reset {due : Bool} {loop : Loop F D R E} {accel : Vec3f F}
    (h : Call.attitudeEstimatorResetFromAccel accel ∈ (updateEstimator gen due loop).calls) :
    loop.ctx.status.armed = false ∧ loop.ctx.status.imuOk = true ∧ due = true := by
  unfold updateEstimator at h
  split at h
  · rename_i harmed
    split at h
    · rename_i hdue
      rw [Bool.and_eq_true] at hdue
      exact ⟨by simpa using harmed, hdue.1, hdue.2⟩
    · cases h
  · split at h <;> simp at h

end Estimator

section Attitude

variable [CFloat F] [CFloat D] [CDouble F D] (gen : Generated D R E) (board : Board)
  (input : CycleInput F)

/-! ## Calls of one cycle -/

theorem desireRates_acts (due required : Bool) (attitudeDt : F) (loop : Loop F D R E) :
    ∀ call ∈ (desireRates gen due required attitudeDt loop).calls, call.Acts loop := by
  intro call hcall
  unfold desireRates at hcall
  split at hcall
  · rename_i hmode
    simp only [stepAttitude] at hcall
    split at hcall
    · rw [List.mem_singleton] at hcall
      subst hcall
      exact ⟨rfl, hmode⟩
    · cases hcall
  · cases hcall

theorem commandMotors_acts (due required : Bool) (attitudeDt : F) (loop : Loop F D R E) :
    ∀ call ∈ (commandMotors gen board input due required attitudeDt loop).calls,
      call.Acts loop := by
  have htested (m : MotorValues F) (r : MotorRaw) :
      EstimateKept loop { loop with ctx := { loop.ctx with motors := m, rawTest := r } } :=
    ⟨⟨rfl, rfl, rfl, rfl, rfl, rfl, rfl, rfl, rfl⟩, rfl, rfl, rfl⟩
  intro call hcall
  unfold commandMotors at hcall
  dsimp only at hcall
  split at hcall
  · exact writeMotors_acts board input _ _ _ _ call hcall
  · split at hcall
    · obtain ⟨motorCall, _, rfl⟩ := List.mem_map.mp hcall
      trivial
    · split at hcall
      · exact writeMotors_acts board input _ _ _ _ call hcall
      · simp only [fly, List.mem_append] at hcall
        rcases hcall with (hcall | hcall) | hcall
        · exact Call.Acts.of_kept (htested _ _) (desireRates_acts gen due required _ _ call hcall)
        · rw [mixMotors, List.mem_singleton] at hcall
          subst hcall
          trivial
        · exact writeMotors_acts board input _ _ _ _ call hcall

/-- A cycle asks the estimator, and after that it acts on what came out. -/
theorem cycle_calls (loop : Loop F D R E) :
    ∃ rest, (cycle gen board loop input).2.calls =
        (estimateCycle gen board input loop).calls ++ rest ∧
      ∀ call ∈ rest, call.Acts (estimateCycle gen board input loop).loop := by
  refine ⟨_, by simp only [cycle, List.append_assoc]; rfl, ?_⟩
  intro call hcall
  rw [List.mem_append, List.mem_append] at hcall
  rcases hcall with hcall | hcall | hcall
  · exact resetControllers_acts _ _ call hcall
  · exact Call.Acts.of_kept (resetControllers_keeps _ _)
      (commandMotors_acts gen board input _ _ _ _ call hcall)
  · exact finalizeCycle_acts board input _ _ _ call hcall

theorem cycle_imuOk (loop : Loop F D R E) : (cycle gen board loop input).2.imuOk = input.imuOk :=
  congrArg ControlStatus.imuOk (cycle_status gen board input loop)

/-- An element that is not in the first part of a list splits the second. -/
theorem split_after {α : Type} {a b front back : List α} {x : α} (hx : x ∉ a)
    (h : a ++ b = front ++ x :: back) : ∃ rest, front = a ++ rest ∧ b = rest ++ x :: back := by
  rcases List.append_eq_append_iff.mp h with ⟨rest, hfront, hb⟩ | ⟨rest, ha, hrest⟩
  · exact ⟨rest, hfront, hb⟩
  · cases rest with
    | nil => exact ⟨[], by simpa using ha.symm, hrest.symm⟩
    | cons c rest =>
        rw [List.cons_append, List.cons.injEq] at hrest
        exact absurd (by simp [ha, hrest.1]) hx

/-- The step of the attitude controllers comes after the estimator, on the
attitude the cycle ends with. -/
theorem cycle_attitudeStep {loop : Loop F D R E} {front back : List (Call F)}
    {attitude desired : AttitudeEuler F} {rc : RcChannels} {dt : F}
    (h : (cycle gen board loop input).2.calls =
      front ++ .attitudeControllerStep attitude desired rc dt :: back) :
    attitude = (estimateCycle gen board input loop).loop.ctx.attitude ∧
      (cycle gen board loop input).1.ctx.flightMode = .autoLevel ∧
      ∃ rest, front = (estimateCycle gen board input loop).calls ++ rest ∧
        ∀ call ∈ rest, call.Acts (estimateCycle gen board input loop).loop := by
  obtain ⟨acts, hcalls, hacts⟩ := cycle_calls gen board input loop
  rw [hcalls] at h
  obtain ⟨rest, hfront, rfl⟩ := split_after (updateEstimator_no_step gen _ _ _ _ _ _) h
  obtain ⟨hattitude, hmode⟩ := hacts _ (List.mem_append_right rest (List.mem_cons_self ..))
  refine ⟨hattitude, ?_, rest, hfront, fun call hcall => hacts call (List.mem_append_left _ hcall)⟩
  rw [(cycle_keeps_estimate gen board input loop).flightMode]
  exact hmode

/-! ## Runs -/

/-- A disarmed cycle with the IMU working in which the background countdown
has run out. -/
def Reinitialises (loop : Loop F D R E) : Prop :=
  input.imuOk = true ∧ arms gen board input loop.ctx.status.armed = false ∧
    loop.backgroundAttitudeCountdown = 0

/-- A cycle that is armed in AUTO_LEVEL after one that was not. -/
def EntersAutoLevel (loop : Loop F D R E) : Prop :=
  arms gen board input loop.ctx.status.armed = true ∧
    flightModeFromRc input.rc = .autoLevel ∧
    ¬ (loop.ctx.status.armed = true ∧ loop.ctx.flightMode = .autoLevel)

/-- A cycle of the run re-initialised the estimator, and the IMU has worked
in every cycle since. -/
def Initialised (inputs : List (CycleInput F)) : Prop :=
  ∃ early first held, inputs = early ++ first :: held ∧
    Reinitialises gen board first (loopAfter gen board early) ∧
    ∀ c ∈ first :: held, c.imuOk = true

/-- A cycle with the IMU working, cut off anywhere after the estimator,
keeps the attitude fresh. -/
theorem FreshAttitude.cycle {done : List (CycleReport F)} {loop : Loop F D R E}
    {rest : List (Call F)} (h : FreshAttitude done loop.ctx.attitude)
    (himu : input.imuOk = true)
    (hrest : ∀ call ∈ rest, call.Acts (estimateCycle gen board input loop).loop) :
    FreshAttitude
      (done ++ [{ (cycle gen board loop input).2 with
        calls := (estimateCycle gen board input loop).calls ++ rest }])
      (estimateCycle gen board input loop).loop.ctx.attitude := by
  refine h.append ?_ rfl ?_ (Call.Acts.no_getAttitude hrest)
  · rw [← himu]
    exact cycle_imuOk gen board input loop
  · rw [← beginCycle_attitude gen board input loop himu]
    exact updateEstimator_calls gen _ _

theorem estimateCycle_reset {loop : Loop F D R E} (h : Reinitialises gen board input loop) :
    ∃ accel, (estimateCycle gen board input loop).calls =
      [.attitudeEstimatorResetFromAccel accel,
        .attitudeEstimatorGetAttitude (estimateCycle gen board input loop).loop.ctx.attitude] := by
  obtain ⟨himu, harmed, hcountdown⟩ := h
  have hdue : (beginCycle gen board loop input).result = true := by
    simp only [beginCycle, takeInputs_armed, harmed, attitudeUpdateDue, hcountdown,
      loopDividerExpired, Bool.false_and]
    rfl
  simp only [estimateCycle, hdue]
  refine ⟨_, updateEstimator_reset gen ?_ ?_⟩
  · rw [beginCycle_armed, harmed]
  · rw [beginCycle_status]
    exact himu

/-- Once re-initialised, the attitude stays fresh until the IMU fails. -/
theorem fresh_of_initialised {inputs : List (CycleInput F)}
    (h : Initialised gen board inputs) :
    FreshAttitude (reports gen board inputs) (loopAfter gen board inputs).ctx.attitude := by
  obtain ⟨early, first, held, rfl, hfirst, himus⟩ := h
  induction held using List.reverseRecOn with
  | nil =>
      rw [reports_concat, loopAfter_concat, (cycle_keeps_estimate gen board first _).attitude]
      obtain ⟨accel, hreset⟩ := estimateCycle_reset gen board first hfirst
      obtain ⟨rest, hcalls, hrest⟩ := cycle_calls gen board first (loopAfter gen board early)
      rw [hreset] at hcalls
      refine FreshAttitude.of_reset ?_ hcalls (Call.Acts.no_getAttitude hrest)
      rw [← hfirst.1]
      exact cycle_imuOk gen board first _
  | append_singleton held c ih =>
      have hfresh := ih (fun d hd => himus d (by simp at hd ⊢; tauto))
      have himu : c.imuOk = true := himus c (by simp)
      obtain ⟨rest, hcalls, hrest⟩ :=
        cycle_calls gen board c (loopAfter gen board (early ++ first :: held))
      have hnext := FreshAttitude.cycle gen board c hfresh himu hrest
      rw [← hcalls] at hnext
      rw [← List.cons_append, ← List.append_assoc, reports_concat, loopAfter_concat,
        (cycle_keeps_estimate gen board c _).attitude]
      exact hnext

theorem Initialised.append {inputs held : List (CycleInput F)} (h : Initialised gen board inputs)
    (himus : ∀ c ∈ held, c.imuOk = true) : Initialised gen board (inputs ++ held) := by
  obtain ⟨early, first, since, rfl, hfirst, hsince⟩ := h
  refine ⟨early, first, since ++ held, by simp, hfirst, ?_⟩
  intro c hc
  rw [← List.cons_append, List.mem_append] at hc
  rcases hc with hc | hc
  · exact hsince c hc
  · exact himus c hc

/-- Every cycle of the run that enters armed AUTO_LEVEL finds the estimator
re-initialised. -/
def EntersInitialised (inputs : List (CycleInput F)) : Prop :=
  ∀ early c late, inputs = early ++ c :: late →
    EntersAutoLevel gen board c (loopAfter gen board early) → Initialised gen board early

/-- In every cycle of the run, the attitude controllers step on fresh
attitudes while armed. -/
def FliesOnFreshAttitude (inputs : List (CycleInput F)) : Prop :=
  ∀ early c late, inputs = early ++ c :: late →
    StepsOnFreshAttitude (reports gen board early)
      (cycle gen board (loopAfter gen board early) c).2

/-- A cycle that ends armed in AUTO_LEVEL belongs to a stretch of such
cycles, and if the stretch was entered initialised the estimator was
re-initialised before this cycle. -/
theorem initialised_of_autoLevel {pre : List (CycleInput F)}
    (h : EntersInitialised gen board (pre ++ [input]))
    (harmed : (cycle gen board (loopAfter gen board pre) input).1.ctx.status.armed = true)
    (hmode : (cycle gen board (loopAfter gen board pre) input).1.ctx.flightMode = .autoLevel) :
    Initialised gen board pre ∧ input.imuOk = true := by
  have himu (loop : Loop F D R E) (c : CycleInput F)
      (hc : (cycle gen board loop c).1.ctx.status.armed = true) : c.imuOk = true := by
    rw [cycle_armed] at hc
    simp only [arms, Bool.and_eq_true] at hc
    exact hc.1.1.1
  have hnow : (loopAfter gen board (pre ++ [input])).ctx.status.armed = true ∧
      (loopAfter gen board (pre ++ [input])).ctx.flightMode = .autoLevel := by
    rw [loopAfter_concat]
    exact ⟨harmed, hmode⟩
  obtain ⟨early, c, held, hpre, hbefore, hrise, himus⟩ :=
    Mealy.since_rise (cycle gen board)
      (P := fun loop => loop.ctx.status.armed = true ∧ loop.ctx.flightMode = .autoLevel)
      (Q := fun c => c.imuOk = true) (fun hboot => Bool.false_ne_true hboot.1)
      (fun loop c hc => himu loop c hc.1) hnow
  have henters : EntersAutoLevel gen board c (loopAfter gen board early) := by
    rw [Mealy.after_concat, cycle_armed, cycle_flightMode] at hrise
    exact ⟨hrise.1, hrise.2, hbefore⟩
  have hearly := h early c held hpre henters
  -- the cycles of the stretch before this one
  have hsplit : pre = early ++ (c :: held).dropLast := by
    have hdrop := congrArg List.dropLast hpre
    rwa [List.dropLast_concat, List.dropLast_append_of_ne_nil (List.cons_ne_nil c held)] at hdrop
  refine ⟨?_, himu _ input harmed⟩
  rw [hsplit]
  exact hearly.append gen board (fun d hd => himus d (List.dropLast_subset _ hd))

/-! ## Entering without re-initialisation -/

theorem reinitialises_of_reset {loop : Loop F D R E} {accel : Vec3f F}
    (h : Call.attitudeEstimatorResetFromAccel accel ∈ (cycle gen board loop input).2.calls) :
    Reinitialises gen board input loop := by
  obtain ⟨rest, hcalls, hrest⟩ := cycle_calls gen board input loop
  rw [hcalls, List.mem_append] at h
  rcases h with h | h
  · obtain ⟨harmed, himu, hdue⟩ := mem_updateEstimator_reset gen h
    rw [beginCycle_armed] at harmed
    rw [beginCycle_status] at himu
    refine ⟨himu, harmed, ?_⟩
    simp only [beginCycle, takeInputs_armed, harmed, attitudeUpdateDue, Bool.false_and,
      Bool.false_eq_true, if_false, loopDividerExpired] at hdue
    split at hdue
    · cases hdue
    · omega
  · exact absurd (hrest _ h) id

def Call.isAttitudeStep : Call F → Bool
  | .attitudeControllerStep _ _ _ _ => true
  | _ => false

theorem commandMotors_steps (due : Bool) (attitudeDt : F) {loop : Loop F D R E}
    (htest : input.motorTest.active = false) (hraw : input.motorRawTest.active = false)
    (himu : loop.ctx.status.imuOk = true) (hstale : loop.ctx.rcStale = false)
    (hmode : loop.ctx.flightMode = .autoLevel) :
    (commandMotors gen board input due true attitudeDt loop).calls.any Call.isAttitudeStep := by
  simp [commandMotors, motorTestGet, htest, hraw, himu, hstale, fly, desireRates, hmode,
    stepAttitude, Call.isAttitudeStep]

/-- A cycle that enters armed AUTO_LEVEL steps the attitude controllers,
unless a motor test takes the motors. -/
theorem step_of_entersAutoLevel {loop : Loop F D R E} (h : EntersAutoLevel gen board input loop)
    (htest : input.motorTest.active = false) (hraw : input.motorRawTest.active = false) :
    (cycle gen board loop input).2.calls.any Call.isAttitudeStep := by
  obtain ⟨harms, hmode, hbefore⟩ := h
  have hrequired : controllerResetRequired loop (beginCycle gen board loop input).loop = true := by
    simp only [controllerResetRequired, beginCycle_flightMode, hmode]
    cases harmed : loop.ctx.status.armed
    · simp
    · cases hm : loop.ctx.flightMode
      · simp
      · exact absurd ⟨harmed, hm⟩ hbefore
  -- what the motor stage finds
  have hkept := (updateEstimator_keeps gen (beginCycle gen board loop input).result
    (beginCycle gen board loop input).loop).trans
      (resetControllers_keeps true (estimateCycle gen board input loop).loop).toInputsKept
  simp only [arms, Bool.and_eq_true, Bool.not_eq_true'] at harms
  have hsteps := commandMotors_steps gen board input (beginCycle gen board loop input).result
    (estimateCycle gen board input loop).result htest hraw
    (by rw [hkept.status, beginCycle_status]; exact harms.1.1.1)
    (by rw [hkept.rcStale]; exact ((accumulateSample_keeps _).rcStale).trans harms.1.1.2)
    (by rw [hkept.flightMode, beginCycle_flightMode, hmode])
  simp only [cycle, hrequired, List.any_append, Bool.or_eq_true]
  exact Or.inl (Or.inr hsteps)

/-- If an attitude is fresh within an armed cycle, the run before it was
initialised. -/
theorem initialised_of_fresh {pre : List (CycleInput F)} {front : List (Call F)}
    {attitude : AttitudeEuler F}
    (harmed : arms gen board input (loopAfter gen board pre).ctx.status.armed = true)
    (hfront : ∀ call ∈ front, call ∈ (cycle gen board (loopAfter gen board pre) input).2.calls)
    (h : FreshAttitude (reports gen board pre ++
      [{ (cycle gen board (loopAfter gen board pre) input).2 with calls := front }]) attitude) :
    Initialised gen board pre := by
  obtain ⟨early, late, before, accel, between, rest, hsplit, himus, hflat, -⟩ := h
  have hreset : Call.attitudeEstimatorResetFromAccel accel ∈ late.flatMap CycleReport.calls := by
    rw [hflat]
    simp
  obtain ⟨report, hreport, haccel⟩ := List.mem_flatMap.mp hreset
  obtain ⟨before', after', rfl⟩ := List.append_of_mem hreport
  cases after' using List.reverseRecOn with
  | nil =>
      -- the armed cycle itself does not re-initialise
      rw [← List.append_assoc] at hsplit
      obtain ⟨-, hlast⟩ := List.append_inj' hsplit rfl
      rw [List.cons.injEq] at hlast
      rw [← hlast.1] at haccel
      have hdisarmed := (reinitialises_of_reset gen board input (hfront _ haccel)).2.1
      rw [harmed] at hdisarmed
      cases hdisarmed
  | append_singleton after' last _ =>
      rw [← List.cons_append, ← List.append_assoc, ← List.append_assoc] at hsplit
      obtain ⟨hpre, -⟩ := List.append_inj' hsplit rfl
      obtain ⟨inputs, first, held, rfl, -, rfl, rfl⟩ := Mealy.outputs_split _ hpre
      have hfirst := reinitialises_of_reset gen board first haccel
      refine ⟨inputs, first, held, rfl, hfirst, ?_⟩
      rw [List.forall_mem_cons]
      refine ⟨hfirst.1, Mealy.inputs_of_outputs (cycle gen board)
        (s := loopAfter gen board (inputs ++ [first])) (T := fun report => report.imuOk = true)
        (fun loop c hc => (cycle_imuOk gen board c loop).symm.trans hc) ?_⟩
      intro r hr
      exact himus r (List.mem_append_right _ (List.mem_cons_of_mem _ (List.mem_append_left _ hr)))

/-- In a run without motor tests, steps on fresh attitudes mean that armed
AUTO_LEVEL was entered initialised. -/
theorem entersInitialised_of_fresh (inputs : List (CycleInput F))
    (htests : ∀ c ∈ inputs, c.motorTest.active = false ∧ c.motorRawTest.active = false)
    (h : FliesOnFreshAttitude gen board inputs) : EntersInitialised gen board inputs := by
  intro early c late hinputs henters
  obtain ⟨htest, hraw⟩ := htests c (by simp [hinputs])
  obtain ⟨call, hmem, hcall⟩ :=
    List.any_eq_true.mp (step_of_entersAutoLevel gen board c henters htest hraw)
  cases call <;> cases hcall
  obtain ⟨front, back, hcalls⟩ := List.append_of_mem hmem
  have harmed : (cycle gen board (loopAfter gen board early) c).2.armed = true :=
    (cycle_armed gen board c _).trans henters.1
  have hfresh := h early c late hinputs harmed front _ _ _ _ back hcalls
  refine initialised_of_fresh gen board c henters.1 ?_ hfresh
  intro d hd
  rw [hcalls]
  exact List.mem_append_left _ hd

theorem fresh_of_entersInitialised (inputs : List (CycleInput F))
    (h : EntersInitialised gen board inputs) : FliesOnFreshAttitude gen board inputs := by
  intro pre input post hinputs harmed front attitude desired rc dt back hcalls
  have hpre : EntersInitialised gen board (pre ++ [input]) := by
    intro early c late hsplit
    refine h early c (late ++ post) ?_
    rw [hinputs, ← List.singleton_append, ← List.append_assoc, hsplit]
    simp
  obtain ⟨rfl, hmode, rest, rfl, hrest⟩ := cycle_attitudeStep gen board input hcalls
  obtain ⟨hinit, himu⟩ := initialised_of_autoLevel gen board input hpre harmed hmode
  exact FreshAttitude.cycle gen board input (fresh_of_initialised gen board hinit) himu hrest

/-- In every run that enters armed AUTO_LEVEL only with the estimator
re-initialised since boot and since the last cycle with a failed IMU, every
armed step of the attitude controllers is on an attitude that the estimator
gave out after such a re-initialisation; and without motor tests in no
other run. -/
theorem autoLevel_steps_on_fresh_attitude (inputs : List (CycleInput F)) :
    (EntersInitialised gen board inputs → FliesOnFreshAttitude gen board inputs) ∧
      ((∀ c ∈ inputs, c.motorTest.active = false ∧ c.motorRawTest.active = false) →
        FliesOnFreshAttitude gen board inputs → EntersInitialised gen board inputs) :=
  ⟨fresh_of_entersInitialised gen board inputs, entersInitialised_of_fresh gen board inputs⟩

end Attitude

/-- The throttle is still open in the first cycle, so that it stays disarmed
and re-initialises; the second arms. -/
theorem autoLevel_steps_on_fresh_attitude_second_cycle :
    FliesOnFreshAttitude benchGenerated benchBoard
      [benchInput 1500 2000, benchInput 1000 2000] := by
  refine (autoLevel_steps_on_fresh_attitude benchGenerated benchBoard _).1 ?_
  intro early c late hsplit henters
  rcases early with _ | ⟨first, early⟩
  · rw [List.nil_append, List.cons.injEq] at hsplit
    rw [← hsplit.1] at henters
    exact absurd henters.1 (by decide +kernel)
  · rw [List.cons_append, List.cons.injEq] at hsplit
    rcases early with _ | ⟨second, early⟩
    · rw [← hsplit.1]
      refine ⟨[], _, [], rfl, ⟨rfl, by decide +kernel, rfl⟩, ?_⟩
      intro d hd
      rw [List.mem_singleton] at hd
      rw [hd]
      rfl
    · simp at hsplit

/-- Arming in the first cycle after boot with the mode switch at AUTO_LEVEL
steps the attitude controllers on an estimator nothing has initialised. -/
theorem first_cycle_arms_uninitialised :
    ¬ FliesOnFreshAttitude benchGenerated benchBoard [benchInput 1000 2000] := by
  intro h
  have hentered := entersInitialised_of_fresh benchGenerated benchBoard _ (by simp [benchInput]) h
  obtain ⟨early, first, held, hsplit, -⟩ :=
    hentered [] (benchInput 1000 2000) [] rfl
      ⟨by decide +kernel, rfl, fun hboot => Bool.false_ne_true hboot.1⟩
  simp at hsplit

end Rdd2
