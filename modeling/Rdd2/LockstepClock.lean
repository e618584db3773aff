import Rdd2.LockstepBarrier
import Rdd2.Strides

/-!
# The controller clock

Between two inputs the control thread goes a way in strides: from the time `C`
it has reached to the target `T` the input gives, a controller period at a time
and what is left of it at the end. Two words carry it,
`g_lockstep_current_boot_time_ns` and `g_lockstep_target_boot_time_ns`; the
first never passes the second (`Control.Flying`), and what is still to go of
the way, and of the publications of a tick, says how many steps the thread
takes before it waits again (`Control.toGo`). Until then nothing blocks it
(`Control.OnWay.possible`). None of that depends on the coordinator and the host,
who may take their steps in between or be blocked, nor on what the cycles read.
-/

namespace Rdd2.Lockstep

/-- What `rdd2_imu_stream_wait_next` hands to a cycle, as far as the time goes. -/
structure Return where
  imuOk : Bool
  stepNs : UInt64
  timeNs : UInt64
  /-- `rdd2_imu_stream_lockstep_at_target`, as the cycle then reads it. -/
  atTarget : Bool
  deriving DecidableEq, Repr

section Clock

variable {F D R E : Type}

/-! ## What is seen of a run -/

def Control.returned (c : Control F D R E) : Return :=
  ⟨true, c.advance.currentBootTimeNs - c.currentBootTimeNs, c.advance.currentBootTimeNs,
    c.advance.atTarget⟩

def System.returned (s : System F D R E) : Event F → List Return
  | .coordinator _ | .waitFailed | .terminate => []
  | .control _ =>
      match s.control.pc with
      | .tick true => [s.control.returned]
      | .tick false => [⟨false, 0, s.control.currentBootTimeNs, s.control.atTarget⟩]
      | _ => []

def System.Waiting (s : System F D R E) : Prop := s.control.pc = .waitNext

def Event.isControl : Event F → Bool
  | .control _ => true
  | .coordinator _ | .waitFailed | .terminate => false

def controlSteps (events : List (Event F)) : Nat := events.countP Event.isControl

def System.motorCount (s : System F D R E) : Nat := (s.topics .pwmSignalOutputs).count

/-! ## The clock -/

abbrev period : Nat := 625000

structure Control.Flying (c : Control F D R E) (target : Nat) : Prop where
  target_eq : c.targetBootTimeNs.toNat = target
  le : c.currentBootTimeNs.toNat ≤ target
  room : c.currentBootTimeNs.toNat < target → c.currentBootTimeNs.toNat + period < 2 ^ 64
  later : c.currentBootTimeNs.toNat + period < target → target + period < 2 ^ 64

theorem Control.Flying.atTarget_iff {c : Control F D R E} {target : Nat} (h : c.Flying target) :
    c.atTarget = true ↔ c.currentBootTimeNs.toNat = target := by
  have hle := h.le
  have htarget := h.target_eq
  rw [Control.atTarget, decide_eq_true_eq, ge_iff_le, UInt64.le_iff_toNat_le]
  omega

/-- One return goes one stride of the way. -/
theorem Control.Flying.advance_toNat {c : Control F D R E} {target : Nat} (h : c.Flying target)
    (hbefore : c.currentBootTimeNs.toNat < target) :
    c.advance.currentBootTimeNs.toNat =
      c.currentBootTimeNs.toNat + min period (target - c.currentBootTimeNs.toNat) := by
  have hnext : (c.currentBootTimeNs + controlPeriodNs).toNat
      = c.currentBootTimeNs.toNat + period := by
    rw [UInt64.toNat_add]
    exact Nat.mod_eq_of_lt (h.room hbefore)
  have htarget := h.target_eq
  unfold Control.advance
  dsimp only
  split
  · rename_i hpast
    rw [gt_iff_lt, UInt64.lt_iff_toNat_lt, hnext] at hpast
    omega
  · rename_i hpast
    rw [gt_iff_lt, UInt64.lt_iff_toNat_lt, hnext] at hpast
    omega

@[simp] theorem Control.advance_targetBootTimeNs (c : Control F D R E) :
    c.advance.targetBootTimeNs = c.targetBootTimeNs := by
  obtain ⟨time, h⟩ := c.advance_eq
  rw [h]

theorem Control.Flying.advance {c : Control F D R E} {target : Nat} (h : c.Flying target)
    (hbefore : c.currentBootTimeNs.toNat < target) : c.advance.Flying target := by
  have htime := h.advance_toNat hbefore
  have hlater := h.later
  refine ⟨?_, ?_, ?_, ?_⟩
  · rw [Control.advance_targetBootTimeNs, h.target_eq]
  all_goals
    rw [htime]
    omega

theorem Control.Flying.returned_step {c : Control F D R E} {target : Nat} (h : c.Flying target)
    (hbefore : c.currentBootTimeNs.toNat < target) :
    (c.returned.stepNs.toNat, c.returned.timeNs.toNat) =
      (min period (target - c.currentBootTimeNs.toNat),
        c.currentBootTimeNs.toNat + min period (target - c.currentBootTimeNs.toNat)) := by
  have htime := h.advance_toNat hbefore
  have hstep : (c.advance.currentBootTimeNs - c.currentBootTimeNs).toNat =
      min period (target - c.currentBootTimeNs.toNat) := by
    rw [UInt64.toNat_sub_of_le _ _ (by rw [UInt64.le_iff_toNat_le]; omega), htime]
    exact Nat.add_sub_cancel_left ..
  simp only [Control.returned, Prod.mk.injEq]
  exact ⟨hstep, htime⟩

/-! ## Steps of an exchange -/

/-- On the way, or with the publications of a cycle to make. -/
def Control.OnWay (c : Control F D R E) (target : Nat) : Prop :=
  c.Flying target ∧
    match c.pc with
    | .loopHead | .publish _ => True
    | .tick imuOk => imuOk = true ∧ c.currentBootTimeNs.toNat < target
    | _ => False

/-- What is still to go until the thread waits again: a return and what it
publishes, for each stride of the way, and the rest of the cycle it is in. -/
def Control.toGo (c : Control F D R E) (target : Nat) : Nat :=
  8 * ((target - c.currentBootTimeNs.toNat) ⌈/⌉ period) +
    match c.pc with
    | .loopHead => 1
    | .publish pending => pending.length + 2
    | _ => 0

def Control.owed (c : Control F D R E) (target : Nat) : Nat :=
  (if c.currentBootTimeNs.toNat < target then 1 else 0) +
    match c.pc with
    | .publish pending => pending.countP fun tp => tp.1 = .pwmSignalOutputs
    | _ => 0

/-- What the steps from `s` to `t` return and publish: the way to the target,
and what is owed for it. -/
structure Answered (target : Nat) (s t : System F D R E) (returns : List Return) : Prop where
  way : Strides.Way period target s.control.currentBootTimeNs.toNat
    (returns.map fun r => (r.stepNs.toNat, r.timeNs.toNat))
  flags : ∀ r ∈ returns, r.imuOk = true ∧ (r.atTarget = true ↔ r.timeNs.toNat = target)
  time : t.control.currentBootTimeNs.toNat = target
  motor : t.motorCount = s.motorCount + s.control.owed target

structure Nearer (target : Nat) (s t : System F D R E) (seen : List Return) : Prop where
  onWay : t.control.OnWay target
  toGo : t.control.toGo target < s.control.toGo target
  answered : ∀ m returns, Answered target t m returns → Answered target s m (seen ++ returns)

theorem coordinatorStep_keeps {s t : System F D R E} {request : Request F}
    (h : coordinatorStep s request = some t) :
    t.control = s.control ∧ t.topics = s.topics ∧ t.terminate = s.terminate := by
  cases coordinatorStep_cases h <;> exact ⟨rfl, rfl, rfl⟩

theorem NoMotor.countP_eq {pending : List (Topic × Publication F)} (h : NoMotor pending) :
    (pending.countP fun tp => tp.1 = .pwmSignalOutputs) = 0 := by
  rw [List.countP_eq_zero]
  intro tp htp hmotor
  exact h tp htp (of_decide_eq_true hmotor)

theorem flightPublications_length_le (n countdown : Nat) (flight : Call F) :
    (flightPublications n countdown flight).length ≤ 4 := by
  unfold flightPublications
  split
  · rw [List.length_map]
    exact Nat.le_refl 4
  · exact Nat.zero_le 4

theorem Control.OnWay.publish {s : System F D R E} {target : Nat} (h : s.control.OnWay target)
    {topic : Topic} {p : Publication F} {pending : List (Topic × Publication F)}
    (hpc : s.control.pc = .publish ((topic, p) :: pending)) :
    Nearer target s { s with
      topics := s.topics.publish topic p
      control := { s.control with pc := .publish pending } } [] := by
  have hflying := h.1
  refine ⟨⟨⟨hflying.target_eq, hflying.le, hflying.room, hflying.later⟩, trivial⟩, ?_, ?_⟩
  · simp only [Control.toGo, hpc, List.length_cons]
    omega
  · intro m returns hanswered
    refine ⟨hanswered.way, hanswered.flags, hanswered.time, ?_⟩
    have hmotor := hanswered.motor
    simp only [System.motorCount, Control.owed, hpc, List.countP_cons] at hmotor ⊢
    rw [hmotor]
    by_cases htopic : topic = .pwmSignalOutputs
    · subst htopic
      rw [s.topics.publish_same .pwmSignalOutputs p]
      simp only [decide_true, if_true]
      omega
    · rw [s.topics.publish_other (Ne.symm htopic) p]
      simp only [decide_eq_true_eq, if_neg htopic]
      omega

/-! ## The way from one input to the next -/

/-- The target an input for time `timestampUs` gives at time `now`: a target that is
no later than `now` gives way to the next controller period. -/
def targetOf (now timestampUs : Nat) : Nat :=
  if now < timestampUs * 1000 then timestampUs * 1000 else now + period

/-- `returns` go from `start` to `target` exactly. -/
structure ClockExact (start target : Nat) (returns : List Return) : Prop where
  count : returns.length = (target - start) ⌈/⌉ period
  steps : ∀ r ∈ returns, r.imuOk = true ∧ 0 < r.stepNs.toNat ∧ r.stepNs.toNat ≤ period
  sum : (returns.map fun r => r.stepNs.toNat).sum = target - start
  ends : ∃ front last, returns = front ++ [last] ∧
    last.timeNs.toNat = target ∧ last.atTarget = true ∧
      ∀ r ∈ front, r.timeNs.toNat < target ∧ r.atTarget = false

theorem Answered.clockExact {s t : System F D R E} {target : Nat} {returns : List Return}
    (h : Answered target s t returns) (hbefore : s.control.currentBootTimeNs.toNat < target) :
    ClockExact s.control.currentBootTimeNs.toNat target returns where
  count := by
    rw [← h.way.length_eq (by decide), List.length_map]
  steps := by
    intro r hr
    have hstride := h.way.stride_le (by decide) _ (List.mem_map_of_mem hr)
    exact ⟨(h.flags r hr).1, hstride⟩
  sum := by
    rw [← h.way.sum_eq, List.map_map]
    rfl
  ends := by
    obtain ⟨front, last, hways, hlast, hfront⟩ := h.way.ends hbefore
    obtain ⟨early, late, rfl, rfl, hlate⟩ := List.map_eq_append_iff.mp hways
    obtain ⟨r, rfl, rfl⟩ := List.map_eq_singleton_iff.mp hlate
    have hflags := h.flags
    simp only [List.forall_mem_append, List.forall_mem_singleton] at hflags
    refine ⟨early, r, rfl, hlast, hflags.2.2.mpr hlast, fun r hr => ?_⟩
    have hshort := hfront _ (List.mem_map_of_mem hr)
    refine ⟨hshort, Bool.eq_false_iff.mpr fun hat => ?_⟩
    exact Nat.ne_of_lt hshort ((hflags.1 r hr).2.mp hat)

theorem Control.takeSample_onWay {c : Control F D R E} {sample : InertialSample F} (count : Nat)
    (hinput : sample.timestampUs.toNat * 1000 + period < 2 ^ 64)
    (hclock : c.currentBootTimeNs.toNat + period < 2 ^ 64) :
    (c.takeSample count sample).OnWay
      (targetOf c.currentBootTimeNs.toNat sample.timestampUs.toNat) := by
  have htarget : (sample.timestampUs * 1000).toNat = sample.timestampUs.toNat * 1000 := by
    rw [UInt64.toNat_mul]
    exact Nat.mod_eq_of_lt (Nat.lt_of_le_of_lt (Nat.le_add_right _ _) hinput)
  have hnext : (c.currentBootTimeNs + controlPeriodNs).toNat
      = c.currentBootTimeNs.toNat + period := by
    rw [UInt64.toNat_add]
    exact Nat.mod_eq_of_lt hclock
  have htime : (c.takeSample count sample).currentBootTimeNs = c.currentBootTimeNs := rfl
  refine ⟨⟨?_, ?_, ?_, ?_⟩, trivial⟩
  · simp only [Control.takeSample, targetOf, UInt64.le_iff_toNat_le, htarget]
    split
    · rw [if_neg (by omega), hnext]
    · rw [if_pos (by omega), htarget]
  all_goals
    rw [htime]
    unfold targetOf
    split <;> omega

/-! ## Steps of the control thread -/

variable [CFloat F] [CFloat D] [CDouble F D] (gen : Generated D R E)

theorem Control.fly_currentBootTimeNs (c : Control F D R E) (input : CycleInput F) :
    (c.fly gen input).currentBootTimeNs = c.currentBootTimeNs := rfl

theorem Control.Flying.fly {c : Control F D R E} {target : Nat} (h : c.Flying target)
    (input : CycleInput F) : (c.fly gen input).Flying target :=
  ⟨h.target_eq, h.le, h.room, h.later⟩

/-- A cycle owes motor outputs if it has reached the target. -/
theorem Control.fly_toGo {c : Control F D R E} {target : Nat} (h : c.Flying target)
    {input : CycleInput F} (hinput : input.atTarget = c.atTarget) :
    (c.fly gen input).owed target = 1 ∧
      (c.fly gen input).toGo target ≤
        8 * ((target - c.currentBootTimeNs.toNat) ⌈/⌉ period) + 7 := by
  have htime := c.fly_currentBootTimeNs gen input
  obtain ⟨motor, flight, hpc⟩ := c.fly_pc gen hinput
  have hlength := flightPublications_length_le c.consumed c.loop.publishCountdown flight
  have hnone := (flightPublications_noMotor c.consumed c.loop.publishCountdown flight).countP_eq
  simp only [Control.owed, Control.toGo, hpc, htime, h.atTarget_iff]
  rcases Nat.lt_or_eq_of_le h.le with hbefore | hthere
  · rw [if_pos hbefore, if_neg (Nat.ne_of_lt hbefore)]
    exact ⟨rfl, Nat.add_le_add_left (show 0 + 2 ≤ 7 by decide) _⟩
  · rw [if_neg (by omega), if_pos hthere, List.countP_cons, hnone, List.length_cons]
    exact ⟨rfl, by omega⟩

/-- A return goes a stride, and its cycle publishes motor outputs if it ends at
the target. -/
theorem Control.OnWay.tick {s t : System F D R E} {env : CycleInput F} {target : Nat}
    (h : s.control.OnWay target) (hpc : s.control.pc = .tick true)
    (hstep : controlStep gen s env = some t) :
    Nearer target s t (s.returned (.control env)) := by
  obtain ⟨hflying, hway⟩ := h
  simp only [hpc, true_and] at hway
  have hstride := hflying.returned_step hway
  have hadvanced := hflying.advance hway
  have htime := hflying.advance_toNat hway
  have hinput : (s.control.cycleInput env).atTarget = s.control.advance.atTarget := rfl
  obtain ⟨howed, htoGo⟩ := Control.fly_toGo gen hadvanced hinput
  simp only [controlStep, hpc, Option.some.injEq] at hstep
  have hcontrol : t.control = s.control.advance.fly gen (s.control.cycleInput env) := by
    rw [← hstep]
  have hcount : t.motorCount = s.motorCount := by rw [← hstep, System.motorCount, System.motorCount]
  refine ⟨⟨?_, ?_⟩, ?_, ?_⟩
  · rw [hcontrol]
    exact hadvanced.fly gen _
  · obtain ⟨motor, flight, hfly⟩ := s.control.advance.fly_pc gen hinput
    simp only [hcontrol, hfly]
  · rw [hcontrol]
    refine Nat.lt_of_le_of_lt htoGo ?_
    have hfewer := Strides.ceilDiv_stride (p := period) (by decide) hway
    rw [← htime] at hfewer
    simp only [Control.toGo, hpc]
    omega
  · intro m returns hanswered
    have hlater := hanswered.way
    rw [hcontrol, Control.fly_currentBootTimeNs, htime] at hlater
    have hreturned : s.returned (.control env) = [s.control.returned] := by
      simp only [System.returned, hpc]
    rw [hreturned]
    refine ⟨?_, ?_, hanswered.time, ?_⟩
    · rw [List.singleton_append, List.map_cons, hstride]
      exact .stride hway hlater
    · rw [List.singleton_append, List.forall_mem_cons]
      refine ⟨⟨rfl, ?_⟩, hanswered.flags⟩
      simp only [Control.returned]
      exact hadvanced.atTarget_iff
    · rw [hanswered.motor, hcontrol, howed, hcount]
      simp only [Control.owed, hpc, if_pos hway]

theorem Control.OnWay.possible {s : System F D R E} {target : Nat} (h : s.control.OnWay target)
    (env : CycleInput F) : controlStep gen s env ≠ none := by
  intro hblocked
  obtain ⟨-, hway⟩ := h
  simp only [(controlStep_blocked gen hblocked).1] at hway

/-- On its way the control thread comes nearer to where it waits with every
step, and waits when there is nothing left to go. -/
theorem controlStep_onWay {s t : System F D R E} {env : CycleInput F} {target : Nat}
    (h : s.control.OnWay target) (hstep : controlStep gen s env = some t) :
    (t.Waiting ∧ Answered target s t [] ∧ s.returned (.control env) = []) ∨
      Nearer target s t (s.returned (.control env)) := by
  have hflying := h.1
  have hway := h.2
  cases controlStep_cases gen hstep with
  | arrived hpc hat =>
      have htime := hflying.atTarget_iff.mp hat
      refine Or.inl ⟨rfl, ⟨?_, by simp, htime, ?_⟩, by simp only [System.returned, hpc]⟩
      · rw [htime]
        exact .arrived
      · simp only [Control.owed, hpc, htime, Nat.lt_irrefl, if_false]
        rfl
  | behind hpc hat =>
      have hbefore : s.control.currentBootTimeNs.toNat < target := by
        refine Nat.lt_of_le_of_ne hflying.le fun htime => ?_
        cases hat.symm.trans (hflying.atTarget_iff.mpr htime)
      have hseen : s.returned (.control env) = [] := by simp only [System.returned, hpc]
      rw [hseen]
      refine Or.inr ⟨⟨?_, rfl, hbefore⟩, ?_, ?_⟩
      · exact ⟨hflying.target_eq, hflying.le, hflying.room, hflying.later⟩
      · simp only [Control.toGo, hpc]
        omega
      · intro m returns hanswered
        refine ⟨hanswered.way, hanswered.flags, hanswered.time, ?_⟩
        rw [hanswered.motor]
        simp only [System.motorCount, Control.owed, hpc]
  | fly hpc => exact Or.inr (h.tick gen hpc hstep)
  | flyFailed hpc =>
      simp only [hpc] at hway
      cases hway.1
  | published hpc =>
      have hseen : s.returned (.control env) = [] := by simp only [System.returned, hpc]
      rw [hseen]
      refine Or.inr ⟨⟨?_, trivial⟩, ?_, ?_⟩
      · exact ⟨hflying.target_eq, hflying.le, hflying.room, hflying.later⟩
      · simp only [Control.toGo, hpc, List.length_nil]
        omega
      · intro m returns hanswered
        refine ⟨hanswered.way, hanswered.flags, hanswered.time, ?_⟩
        rw [hanswered.motor]
        simp only [System.motorCount, Control.owed, hpc, List.countP_nil]
  | publish hpc =>
      have hseen : s.returned (.control env) = [] := by simp only [System.returned, hpc]
      rw [hseen]
      exact Or.inr (h.publish hpc)
  | input hpc hsome hnew => simp only [hpc] at hway
  | sleep hpc hold => simp only [hpc] at hway
  | woken hpc hsem => simp only [hpc] at hway
  | failed hpc hnone => simp only [hpc] at hway
  | taken hpc hsome hnewest => simp only [hpc] at hway

/-! ## Attempts -/

theorem attempt_keeps (s : System F D R E) {e : Event F} (he : e.isControl = false) :
    (Guarded.attempt (step gen) s e).control = s.control ∧
      (Guarded.attempt (step gen) s e).topics = s.topics := by
  rcases Guarded.attempt_cases (step gen) s e with hsame | hstep
  · rw [hsame]
    exact ⟨rfl, rfl⟩
  · generalize Guarded.attempt (step gen) s e = t at hstep
    cases e with
    | control env => cases he
    | coordinator request =>
        obtain ⟨hcontrol, htopics, -⟩ := coordinatorStep_keeps hstep
        exact ⟨hcontrol, htopics⟩
    | waitFailed =>
        simp only [step] at hstep
        split at hstep <;> cases hstep
        exact ⟨rfl, rfl⟩
    | terminate =>
        cases hstep
        exact ⟨rfl, rfl⟩

/-- No attempt of the control thread is in vain. -/
def Unblocked (s : System F D R E) (e : Event F) : Prop := e.isControl = true → step gen s e ≠ none

/-- With enough attempts the control thread comes to where it waits, having gone the rest of
the way. -/
theorem attempts_onWay {events : List (Event F)} {s : System F D R E} {target : Nat}
    (h : s.control.OnWay target) (hsteps : s.control.toGo target < controlSteps events) :
    ∃ now later m, events = now ++ later ∧
      Guarded.Until (Guarded.attempts (step gen)) System.Waiting s now m ∧
      Guarded.Ok (Guarded.attempts (step gen)) (Unblocked gen) s now ∧
      Answered target s m
        (Guarded.observed (Guarded.attempts (step gen)) System.returned s now) := by
  induction events generalizing s with
  | nil => exact absurd hsteps (Nat.not_lt_zero _)
  | cons e events ih =>
      have hbusy : ¬ s.Waiting := by
        intro hpc
        have hway := h.2
        simp only [System.Waiting] at hpc
        simp only [hpc] at hway
      have hattempt : Guarded.attempts (step gen) s e = some (Guarded.attempt (step gen) s e) := rfl
      have hunblocked : Unblocked gen s e := by
        intro he
        cases e with
        | control env => exact h.possible gen env
        | coordinator | waitFailed | terminate => cases he
      cases he : e.isControl with
      | false =>
          obtain ⟨hcontrol, htopics⟩ := attempt_keeps gen s he
          have hsteps' : (Guarded.attempt (step gen) s e).control.toGo target
              < controlSteps events := by
            simpa [hcontrol, controlSteps, he] using hsteps
          obtain ⟨now, later, n, rfl, huntil, hok, hanswered⟩ := ih (hcontrol ▸ h) hsteps'
          refine ⟨e :: now, later, n, rfl, ⟨hbusy, _, hattempt, huntil⟩, ⟨hunblocked, hok⟩, ?_⟩
          have hseen : s.returned e = [] := by
            cases e with
            | control env => cases he
            | coordinator | waitFailed | terminate => rfl
          rw [Guarded.observed_cons _ hattempt, hseen]
          obtain ⟨hway, hflags, htime, hmotor⟩ := hanswered
          rw [hcontrol] at hway hmotor
          rw [System.motorCount, System.motorCount, htopics] at hmotor
          exact ⟨hway, hflags, htime, hmotor⟩
      | true =>
          obtain ⟨m, hm⟩ := Option.ne_none_iff_exists'.mp (hunblocked he)
          rw [Guarded.attempt_of_some (step gen) hm] at hattempt
          obtain ⟨env, rfl⟩ : ∃ env, e = .control env := by
            cases e with
            | control env => exact ⟨env, rfl⟩
            | coordinator | waitFailed | terminate => cases he
          rcases controlStep_onWay gen h hm with ⟨hwaiting, hanswered, hseen⟩ | hnearer
          · refine ⟨[.control env], events, m, rfl, ⟨hbusy, m, hattempt, hwaiting, rfl⟩,
              ⟨hunblocked, ?_⟩, ?_⟩
            · rw [hattempt]
              trivial
            · rw [Guarded.observed_cons _ hattempt, hseen]
              exact hanswered
          · have hsteps' : m.control.toGo target < controlSteps events := by
              have hless := hnearer.toGo
              simp only [controlSteps, List.countP_cons, he, if_true] at hsteps ⊢
              omega
            obtain ⟨now, later, n, rfl, huntil, hok, hanswered⟩ := ih hnearer.onWay hsteps'
            refine ⟨.control env :: now, later, n, rfl, ⟨hbusy, m, hattempt, huntil⟩,
              ⟨hunblocked, ?_⟩, ?_⟩
            · rw [hattempt]
              exact hok
            · rw [Guarded.observed_cons _ hattempt]
              exact hnearer.answered n _ hanswered

/-- The clock between two inputs is exact: whatever the state in which an input
is taken, whatever the coordinator and the host do in between or try in vain,
and whatever the cycles read, with eight attempts for every controller period
the control thread comes to wait for the next input. Nothing blocks it before,
its returns go from the time `C` of the input to its target `T` in
`(T - C) ⌈/⌉ 625000` steps, the last of them at the target, and one publication of
motor outputs is made. -/
theorem controller_clock_exact {s : System F D R E} {sample : InertialSample F}
    (hget : s.control.pc = .latestGet) (hpublished : s.inputs.generation ≠ 0)
    (hsample : s.inputs.newest = some sample)
    (hinput : sample.timestampUs.toNat * 1000 + period < 2 ^ 64)
    (hclock : s.control.currentBootTimeNs.toNat + period < 2 ^ 64) (env : CycleInput F)
    {events : List (Event F)}
    (hsteps : 8 * ((targetOf s.control.currentBootTimeNs.toNat sample.timestampUs.toNat
      - s.control.currentBootTimeNs.toNat) ⌈/⌉ period) + 2 ≤ controlSteps events) :
    ∃ now later m, events = now ++ later ∧
      Guarded.Until (Guarded.attempts (step gen)) System.Waiting s (.control env :: now) m ∧
      Guarded.Ok (Guarded.attempts (step gen)) (Unblocked gen) s (.control env :: now) ∧
      ClockExact s.control.currentBootTimeNs.toNat
        (targetOf s.control.currentBootTimeNs.toNat sample.timestampUs.toNat)
        (Guarded.observed (Guarded.attempts (step gen)) System.returned s
          (.control env :: now)) ∧
      m.control.currentBootTimeNs.toNat
        = targetOf s.control.currentBootTimeNs.toNat sample.timestampUs.toNat ∧
      m.motorCount = s.motorCount + 1 := by
  generalize htarget : targetOf s.control.currentBootTimeNs.toNat sample.timestampUs.toNat = target
    at hsteps ⊢
  have hbefore : s.control.currentBootTimeNs.toNat < target := by
    have hperiod : 0 < period := by decide
    rw [← htarget, targetOf]
    split <;> omega
  let taken : System F D R E :=
    { s with control := s.control.takeSample s.inputs.count sample }
  have htaken : step gen s (.control env) = some taken := by
    simp only [step, controlStep, hget, if_neg hpublished, hsample, taken]
  have hattempt : Guarded.attempts (step gen) s (.control env) = some taken := by
    rw [Guarded.attempts, Guarded.attempt_of_some (step gen) htaken]
  have honWay : taken.control.OnWay target := by
    rw [← htarget]
    exact Control.takeSample_onWay s.inputs.count hinput hclock
  have hbusy : ¬ s.Waiting := by
    rw [System.Waiting, hget]
    simp
  obtain ⟨now, later, m, rfl, huntil, hok, hanswered⟩ := attempts_onWay gen honWay hsteps
  refine ⟨now, later, m, rfl, ⟨hbusy, taken, hattempt, huntil⟩, ⟨fun _ => ?_, ?_⟩, ?_,
    hanswered.time, ?_⟩
  · rw [htaken]
    exact Option.some_ne_none taken
  · rw [hattempt]
    exact hok
  · have hseen : s.returned (.control env) = [] := by simp only [System.returned, hget]
    rw [Guarded.observed_cons _ hattempt, hseen]
    exact hanswered.clockExact hbefore
  · rw [hanswered.motor]
    have howed : taken.control.owed target = 1 := if_pos hbefore
    rw [howed]
    rfl

end Clock

def benchSample : InertialSample Rat := ⟨1250, ⟨0, 0, 0⟩, ⟨0, 0, 10⟩, true⟩

def benchTaking : System Rat Rat Unit Unit :=
  { boot benchGenerated with
    inputs := ⟨1, some benchSample, true⟩
    control := { (boot benchGenerated).control with pc := .latestGet, imuGeneration := 1 } }

/-- Two ticks and a look at the input: the control thread waits again. -/
theorem controller_clock_exact_bench :
    ∃ now m, Guarded.Until (Guarded.attempts (step benchGenerated)) System.Waiting benchTaking now m ∧
      Guarded.Ok (Guarded.attempts (step benchGenerated)) (Unblocked benchGenerated) benchTaking
        now ∧
      ClockExact 0 1250000 (Guarded.observed (Guarded.attempts (step benchGenerated))
        System.returned benchTaking now) ∧
      m.control.currentBootTimeNs.toNat = 1250000 ∧ m.motorCount = benchTaking.motorCount + 1 := by
  have htime : benchTaking.control.currentBootTimeNs.toNat = 0 := rfl
  have htarget : targetOf 0 benchSample.timestampUs.toNat = 1250000 := by decide
  have hsteps : 8 * ((targetOf benchTaking.control.currentBootTimeNs.toNat
      benchSample.timestampUs.toNat - benchTaking.control.currentBootTimeNs.toNat) ⌈/⌉ period) + 2
        ≤ controlSteps (benchControl 18) := by
    rw [htime, htarget]
    decide
  obtain ⟨now, -, m, -, hrun⟩ := controller_clock_exact benchGenerated (s := benchTaking)
    rfl (by decide) rfl (by decide) (by decide) (benchInput 1000 1000) hsteps
  rw [htime, htarget] at hrun
  exact ⟨_, m, hrun⟩

end Rdd2.Lockstep
