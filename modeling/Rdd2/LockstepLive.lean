import Rdd2.Fairness
import Rdd2.LockstepClock
import Rdd2.LockstepManual

/-!
# Every exchange is answered

The two threads wait for one another: the control thread on a semaphore, the coordinator by
polling a generation. Under a scheduler that attempts the steps of both again and again, each
request that was taken is answered (`exchange_completes`): a give between the look at the
generation and the take is not lost (`System.Paced.wake`), the control thread comes nearer to
its motor outputs with every step (`System.toAnswer`), and a coordinator that polls sees them.

This goes as far as the host stays, which does not set `terminate`, and as far as the words
do: times stay below half of the range of the clock, and the motor generation has not come
round to zero.
-/

namespace Rdd2.Lockstep

open Guarded Fairness

section Live

variable {F D R E : Type}

/-! ## The pace of the control thread -/

def latestNs : Nat := 9223372036854775808

/-- The host stays, and asks for times that the clock can reach. -/
def Timely : Event F → Prop
  | .control _ | .waitFailed => True
  | .coordinator request => request.sample.timestampUs.toNat * 1000 ≤ latestNs
  | .terminate => False

/-- The input read last is served, or there is time left to fly for it. -/
def Control.Pace (c : Control F D R E) (served : Nat) : Prop :=
  match c.pc with
  | .loopHead => c.consumed = served ∨ c.atTarget = false
  | .waitNext | .semTake | .latestGet => c.consumed = served
  | .tick _ => c.atTarget = false
  | .publish pending => NoMotor pending → c.consumed = served ∨ c.atTarget = false

theorem Control.Pace.of_publish {c : Control F D R E} {served : Nat}
    {pending : List (Topic × Publication F)} (hpc : c.pc = .publish pending)
    (h : NoMotor pending → c.consumed = served ∨ c.atTarget = false) : c.Pace served := by
  rw [Control.Pace, hpc]
  exact h

structure System.Paced (s : System F D R E) : Prop where
  going : s.terminate = false
  time : s.control.currentBootTimeNs.toNat ≤ s.control.targetBootTimeNs.toNat
  bound : s.control.targetBootTimeNs.toNat ≤ latestNs + s.control.consumed * period
  sample : ∀ sample, s.inputs.newest = some sample → sample.timestampUs.toNat * 1000 ≤ latestNs
  pace : s.control.Pace s.topics.served
  wake : s.control.pc = .semTake →
    s.inputs.sem = true ∨ s.coordinator.pc = .semGive ∨ s.inputs.count = s.control.consumed

theorem Control.Inv.consumed_le {c : Control F D R E} {inputs served : Nat}
    (h : c.Inv inputs served) : c.consumed ≤ inputs := by
  cases hpc : c.pc <;> simp only [Control.Inv, hpc, Control.Settled] at h <;> omega

theorem lt_targetOf (now timestampUs : Nat) : now < targetOf now timestampUs := by
  have hperiod : 0 < period := by decide
  unfold targetOf
  split <;> omega

theorem targetOf_le {now timestampUs bound : Nat} (hnow : now + period ≤ bound)
    (hsample : timestampUs * 1000 ≤ bound) : targetOf now timestampUs ≤ bound := by
  unfold targetOf
  split
  · exact hsample
  · exact hnow

theorem System.Paced.room {s : System F D R E} (hinv : s.Inv) (h : s.Paced) :
    s.control.targetBootTimeNs.toNat + period < 2 ^ 64 := by
  have hconsumed := hinv.control.consumed_le
  have hinputs := hinv.coordinator.inputs_lt
  have hbound : _ ≤ 9223372036854775808 + s.control.consumed * 625000 := h.bound
  show _ + 625000 < 2 ^ 64
  omega

theorem System.Paced.flying {s : System F D R E} (hinv : s.Inv) (h : s.Paced) :
    s.control.Flying s.control.targetBootTimeNs.toNat := by
  have htime := h.time
  have hroom := h.room hinv
  exact ⟨rfl, htime, fun _ => by omega, fun _ => hroom⟩

theorem System.Paced.take {s : System F D R E} (hinv : s.Inv) (h : s.Paced)
    {sample : InertialSample F} (hnewest : s.inputs.newest = some sample) :
    (s.control.takeSample s.inputs.count sample).OnWay
      (targetOf s.control.currentBootTimeNs.toNat sample.timestampUs.toNat) := by
  have htime := h.time
  have hroom := h.room hinv
  have hsample : _ ≤ 9223372036854775808 := h.sample sample hnewest
  refine Control.takeSample_onWay _ ?_ (by omega)
  show _ + 625000 < 2 ^ 64
  omega

theorem System.Paced.behind {s : System F D R E} (hinv : s.Inv) (h : s.Paced)
    (hat : s.control.atTarget = false) :
    s.control.currentBootTimeNs.toNat < s.control.targetBootTimeNs.toNat := by
  have hflying := h.flying hinv
  refine Nat.lt_of_le_of_ne hflying.le fun hthere => ?_
  cases hat.symm.trans (hflying.atTarget_iff.mpr hthere)

theorem System.Paced.taken {s : System F D R E} (hinv : s.Inv) (h : s.Paced)
    (hpc : s.control.pc = .latestGet) {sample : InertialSample F}
    (hnewest : s.inputs.newest = some sample) :
    System.Paced { s with control := s.control.takeSample s.inputs.count sample } := by
  obtain ⟨hflying, -⟩ := h.take hinv hnewest
  have htarget := hflying.target_eq
  have hcontrol := hinv.control
  simp only [Control.Inv, hpc] at hcontrol
  have htime := h.time
  have hbound := h.bound
  have hsample := h.sample sample hnewest
  have hmore : s.control.consumed * period + period ≤ s.inputs.count * period := by
    rw [← Nat.succ_mul]
    exact Nat.mul_le_mul_right _ hcontrol.2.1
  have htaken : targetOf s.control.currentBootTimeNs.toNat sample.timestampUs.toNat
      ≤ latestNs + s.inputs.count * period :=
    targetOf_le (by omega) (Nat.le_trans hsample (Nat.le_add_right ..))
  refine ⟨h.going, hflying.le.trans htarget.ge, ?_, h.sample, Or.inr ?_, fun hat => by cases hat⟩
  · rw [htarget]
    exact htaken
  · refine Bool.eq_false_iff.mpr fun hat => ?_
    exact Nat.ne_of_lt (lt_targetOf _ _) (hflying.atTarget_iff.mp hat)

/-- A step that only moves the control thread on, and may take the semaphore. -/
theorem System.Paced.goes {s : System F D R E} (h : s.Paced) {pc : ControlPc F}
    {generation : UInt32} {sem : Bool}
    (hpace : Control.Pace { s.control with pc := pc, imuGeneration := generation } s.topics.served)
    (hwake : pc = .semTake → s.inputs.count = s.control.consumed) :
    System.Paced { s with
      inputs := { s.inputs with sem := sem }
      control := { s.control with pc := pc, imuGeneration := generation } } :=
  ⟨h.going, h.time, h.bound, h.sample, hpace, fun hpc => Or.inr (Or.inr (hwake hpc))⟩

theorem System.Paced.published {s : System F D R E} (hinv : s.Inv) (h : s.Paced) {topic : Topic}
    {p : Publication F} {pending : List (Topic × Publication F)}
    (hpc : s.control.pc = .publish ((topic, p) :: pending)) :
    System.Paced { s with
      topics := s.topics.publish topic p
      control := { s.control with pc := .publish pending } } := by
  have hpace := h.pace
  simp only [Control.Pace, hpc] at hpace
  have hcontrol := hinv.control
  simp only [Control.Inv, hpc] at hcontrol
  refine ⟨h.going, h.time, h.bound, h.sample, ?_, fun hat => by cases hat⟩
  intro hnone
  by_cases htopic : topic = .pwmSignalOutputs
  · subst htopic
    rcases hcontrol.2 with ⟨hnever, -⟩ | ⟨p', rest, -, -, -, howing, -⟩
    · exact absurd rfl (hnever _ (List.mem_cons_self ..))
    · exact Or.inl (howing.symm.trans (Topics.served_publish hinv.published p).symm)
  · show _ = (s.topics.publish topic p).served ∨ _
    rw [s.topics.served_publish_other htopic p]
    exact hpace (List.forall_mem_cons.mpr ⟨htopic, hnone⟩)

theorem coordinatorStep_paced {s t : System F D R E} {request : Request F} (h : s.Paced)
    (htimely : Timely (.coordinator request)) (hstep : coordinatorStep s request = some t) :
    t.Paced := by
  -- a step that leaves the inputs alone
  have hquiet {c : Coordinator F} (hpc : s.coordinator.pc ≠ .semGive) :
      System.Paced { s with coordinator := c } := by
    refine ⟨h.going, h.time, h.bound, h.sample, h.pace, fun hwait => ?_⟩
    rcases h.wake hwait with hgiven | hgiving | hread
    · exact Or.inl hgiven
    · exact absurd hgiving hpc
    · exact Or.inr (Or.inr hread)
  cases coordinatorStep_cases hstep with
  | take hpc hok =>
      refine ⟨h.going, h.time, h.bound, ?_, h.pace, fun _ => Or.inr (Or.inl rfl)⟩
      intro sample hsample
      cases hsample
      exact htimely
  | give hpc => exact ⟨h.going, h.time, h.bound, h.sample, h.pace, fun _ => Or.inl rfl⟩
  | reject hpc | pollOld hpc | pollNew hpc | copyNone hpc | copy hpc | exit hpc | again hpc
  | flightOld hpc | flightNew hpc | flightCopy hpc | write hpc | respond hpc =>
      exact hquiet (by simp [hpc])

/-! ## What is still to go -/

def System.lead (s : System F D R E) : Nat :=
  match s.inputs.newest with
  | none => 0
  | some sample =>
      targetOf s.control.currentBootTimeNs.toNat sample.timestampUs.toNat
        - s.control.currentBootTimeNs.toNat

/-- What the control thread has to go until the newest input has its motor outputs: the time
to its target, and the places on the way there. -/
def System.toAnswer (s : System F D R E) : Nat :=
  let ahead := s.control.targetBootTimeNs.toNat - s.control.currentBootTimeNs.toNat
  match s.control.pc with
  | .loopHead => if s.control.consumed = s.inputs.count then 20 * ahead + 9 else 20 * s.lead + 24
  | .waitNext => 20 * s.lead + 22
  | .semTake => 20 * s.lead + 23
  | .latestGet => 20 * s.lead + 21
  | .tick _ => 20 * ahead + 8
  | .publish pending =>
      if s.control.consumed = s.inputs.count then 20 * ahead + 10 + pending.length
      else 20 * s.lead + 25 + pending.length

theorem System.toAnswer_publish {s : System F D R E} {pending : List (Topic × Publication F)}
    (hpc : s.control.pc = .publish pending) (hread : s.control.consumed = s.inputs.count) :
    s.toAnswer = 20 * (s.control.targetBootTimeNs.toNat - s.control.currentBootTimeNs.toNat)
      + 10 + pending.length := by
  simp only [System.toAnswer, hpc, if_pos hread]

/-- The target that is given is as far ahead as was foreseen. -/
theorem System.Paced.taken_nearer {s : System F D R E} (hinv : s.Inv) (h : s.Paced)
    (hpc : s.control.pc = .latestGet) {sample : InertialSample F}
    (hnewest : s.inputs.newest = some sample) :
    System.toAnswer { s with control := s.control.takeSample s.inputs.count sample }
      < s.toAnswer := by
  have htarget := (h.take hinv hnewest).1.target_eq
  have hnow : (s.control.takeSample s.inputs.count sample).currentBootTimeNs
      = s.control.currentBootTimeNs := rfl
  have hhead : (s.control.takeSample s.inputs.count sample).pc = .loopHead := rfl
  have hread : (s.control.takeSample s.inputs.count sample).consumed = s.inputs.count := rfl
  simp only [System.toAnswer, System.lead, hpc, hnewest, hhead, if_pos hread, hnow, htarget]
  omega

/-! ## Phases of an exchange -/

/-- Input `n` is taken, and there are so many responses. -/
structure System.Exchange (s : System F D R E) (n answered : Nat) : Prop where
  inv : s.Inv
  paced : s.Paced
  inputs : s.inputs.count = n
  responses : s.coordinator.responses.length = answered

/-- The steps of the coordinator until it responds, once the outputs are there. -/
def CoordinatorPc.toRespond : CoordinatorPc → Nat
  | .sequenceTerminated => 7
  | .motorGeneration => 6
  | .motorCopy _ => 5
  | .flightGeneration => 4
  | .flightCopy _ => 3
  | .write => 2
  | .respond => 1
  | .sequenceWait | .semGive | .stopped => 0

def CoordinatorPc.InFlight (pc : CoordinatorPc) : Prop := pc = .semGive ∨ 0 < pc.toRespond

def CoordinatorPc.Polling (pc : CoordinatorPc) : Prop :=
  pc = .motorGeneration ∨ pc = .sequenceTerminated

def IsControl (e : Event F) : Prop := e.isControl = true

def IsCoordinator : Event F → Prop
  | .coordinator _ => True
  | .control _ | .waitFailed | .terminate => False

/-- What is asked of a schedule at every event. -/
def Allowed (s : System F D R E) (e : Event F) : Prop := PastInitial s e ∧ Timely e

/-- A step of the coordinator that neither takes an input nor responds. -/
theorem System.Exchange.coordinator {s t : System F D R E} {n answered : Nat}
    (h : s.Exchange n answered) {request : Request F} (hallowed : Allowed s (.coordinator request))
    (hpc : s.coordinator.pc ≠ .sequenceWait) (hstep : coordinatorStep s request = some t)
    (hresponses : t.coordinator.responses = s.coordinator.responses) : t.Exchange n answered := by
  obtain ⟨-, hcount, -, -⟩ := coordinatorStep_inputs hpc hstep
  refine ⟨coordinatorStep_inv h.inv hallowed.1 hstep,
    coordinatorStep_paced h.paced hallowed.2 hstep, ?_, ?_⟩
  · rw [hcount, h.inputs]
  · rw [hresponses, h.responses]

theorem coordinatorStep_possible {s : System F D R E} (hpc : s.coordinator.pc ≠ .stopped)
    (request : Request F) : coordinatorStep s request ≠ none := by
  unfold coordinatorStep
  dsimp only
  split
  case h_10 hat => exact absurd hat hpc
  all_goals first
    | exact Option.some_ne_none _
    | split <;> exact Option.some_ne_none _

/-- With the outputs there, each step of the coordinator is one less until it responds. -/
theorem coordinatorStep_answering {s t : System F D R E} {n answered : Nat}
    (h : s.Exchange n answered) (hlt : n + 1 < 2 ^ 32) (hserved : s.topics.served = n)
    (hpc : 0 < s.coordinator.pc.toRespond) {request : Request F}
    (hstep : coordinatorStep s request = some t) :
    t.coordinator.responses.length = answered + 1 ∨
      (t.coordinator.responses = s.coordinator.responses ∧
        0 < t.coordinator.pc.toRespond ∧
        t.coordinator.pc.toRespond < s.coordinator.pc.toRespond) := by
  have hpublished := h.inv.published
  have hcount : (s.topics .pwmSignalOutputs).count = n + 1 := by
    rw [Topics.served] at hserved
    omega
  have hsome : (s.topics .pwmSignalOutputs).generation ≠ 0 := by
    rw [TopicState.generation, hcount, ne_eq, generation_eq_zero hlt]
    omega
  have hcoordinator := h.inv.coordinator
  have hinputs := h.inputs
  cases coordinatorStep_cases hstep with
  | take hat | reject hat | give hat =>
      rw [hat] at hpc
      exact absurd hpc (Nat.lt_irrefl 0)
  | pollOld hat hold =>
      simp only [Coordinator.Inv, hat, Coordinator.Before] at hcoordinator
      obtain ⟨-, -, -, hseen⟩ := hcoordinator
      have hnew : (s.topics .pwmSignalOutputs).generation ≠ s.coordinator.motorGeneration := by
        rw [hseen]
        split
        · exact hsome
        · rw [TopicState.generation, hcount, hinputs, ne_eq, generation_inj hlt (by omega)]
          omega
      exact absurd hold (not_or.mpr ⟨hsome, hnew⟩)
  | copyNone hat hnone => exact absurd hnone hsome
  | exit hat hterminate => cases hterminate.symm.trans h.paced.going
  | respond hat =>
      left
      show (s.coordinator.responses ++ [s.coordinator.shared]).length = _
      rw [List.length_append, h.responses]
      rfl
  | pollNew hat | copy hat | again hat | flightOld hat | flightNew hat | flightCopy hat
  | write hat =>
      exact Or.inr ⟨rfl, by simp [CoordinatorPc.toRespond], by simp [CoordinatorPc.toRespond, hat]⟩

/-! ## Cycles -/

variable [CFloat F] [CFloat D] [CDouble F D] (gen : Generated D R E)

/-- A cycle goes on to the target, or leaves time to fly. -/
theorem System.Paced.flown {s : System F D R E} (hinv : s.Inv) (h : s.Paced)
    (hpc : s.control.pc = .tick true) (env : CycleInput F) :
    System.Paced { s with control := s.control.advance.fly gen (s.control.cycleInput env) } := by
  have hflying := h.flying hinv
  have hpace := h.pace
  simp only [Control.Pace, hpc] at hpace
  have hbefore := h.behind hinv hpace
  have hadvanced := hflying.advance hbefore
  have hinput : (s.control.cycleInput env).atTarget = s.control.advance.atTarget := rfl
  obtain ⟨motor, flight, hpublish⟩ := s.control.advance.fly_pc gen hinput
  have hflown := hadvanced.fly gen (s.control.cycleInput env)
  refine ⟨h.going, hflown.le.trans hflown.target_eq.ge, ?_, h.sample, ?_, fun hat => by cases hat⟩
  · rw [hflown.target_eq, Control.fly_consumed, Control.advance_consumed]
    exact h.bound
  · refine Control.Pace.of_publish hpublish fun hnone => Or.inr ?_
    rw [Control.fly_atTarget]
    cases hat : s.control.advance.atTarget with
    | false => rfl
    | true =>
        rw [hat, if_pos rfl] at hnone
        exact absurd rfl (hnone _ (List.mem_cons_self ..))

theorem controlStep_paced {s t : System F D R E} {env : CycleInput F} (hinv : s.Inv) (h : s.Paced)
    (hstep : controlStep gen s env = some t) : t.Paced := by
  have hpace := h.pace
  have hcontrol := hinv.control
  have hinputs := hinv.coordinator.inputs_lt
  cases controlStep_cases gen hstep with
  | arrived hpc hat =>
      simp only [Control.Pace, hpc] at hpace
      have hsame := hpace.resolve_right (by rw [hat]; exact Bool.noConfusion)
      exact h.goes hsame (fun hwait => by cases hwait)
  | behind hpc hat => exact h.goes hat (fun hwait => by cases hwait)
  | input hpc hsome hnew =>
      simp only [Control.Pace, hpc] at hpace
      exact h.goes hpace (fun hwait => by cases hwait)
  | sleep hpc hold =>
      simp only [Control.Pace, hpc] at hpace
      simp only [Control.Inv, hpc] at hcontrol
      obtain ⟨⟨hle, hgeneration⟩, -⟩ := hcontrol
      refine h.goes hpace fun _ => ?_
      rw [InputStore.generation, hgeneration] at hold
      rcases hold with hzero | hsame
      · have hnone := (generation_eq_zero hinputs).mp hzero
        omega
      · exact (generation_inj hinputs (by omega)).mp hsame
  | woken hpc hsem =>
      simp only [Control.Pace, hpc] at hpace
      exact h.goes hpace (fun hwait => by cases hwait)
  | failed hpc hnone => cases (controlStep_inv gen hinv hstep).control.1
  | taken hpc hsome hnewest => exact h.taken hinv hpc hnewest
  | fly hpc => exact h.flown gen hinv hpc env
  | flyFailed hpc =>
      simp only [Control.Inv, hpc] at hcontrol
      cases hcontrol.1
  | published hpc =>
      simp only [Control.Pace, hpc] at hpace
      exact h.goes (hpace fun tp htp => by cases htp) (fun hwait => by cases hwait)
  | publish hpc => exact h.published hinv hpc

theorem System.Paced.waitFailed {s t : System F D R E} (h : s.Paced)
    (hstep : step gen s .waitFailed = some t) : t.Paced := by
  simp only [step] at hstep
  split at hstep <;> cases hstep
  rename_i hpc
  refine ⟨h.going, h.time, h.bound, h.sample, h.pace, fun hwait => ?_⟩
  rcases h.wake hwait with hgiven | hgiving | hread
  · exact Or.inl hgiven
  · cases hpc.symm.trans hgiving
  · exact Or.inr (Or.inr hread)

/-- While motor outputs are owed and the semaphore is given, the control thread is not
blocked. -/
theorem controlStep_possible {s : System F D R E} (h : s.Paced)
    (hgiven : s.coordinator.pc ≠ .semGive) (howed : s.topics.served + 1 = s.inputs.count)
    (env : CycleInput F) : controlStep gen s env ≠ none := by
  intro hblocked
  obtain ⟨hpc, hsem⟩ := controlStep_blocked gen hblocked
  have hpace := h.pace
  simp only [Control.Pace, hpc] at hpace
  rcases h.wake hpc with hset | hgiving | hread
  · rw [hsem] at hset
    cases hset
  · exact absurd hgiving hgiven
  · omega

/-- A cycle flies a period, or all that is left, and has five topics to publish at most. -/
theorem System.Paced.flown_nearer {s : System F D R E} (hinv : s.Inv) (h : s.Paced)
    (hpc : s.control.pc = .tick true) (hread : s.control.consumed = s.inputs.count)
    (env : CycleInput F) :
    System.toAnswer { s with control := s.control.advance.fly gen (s.control.cycleInput env) }
      < s.toAnswer := by
  have hpace := h.pace
  simp only [Control.Pace, hpc] at hpace
  have hflying := h.flying hinv
  have hbefore := h.behind hinv hpace
  have htime := hflying.advance_toNat hbefore
  have hflown := (hflying.advance hbefore).fly gen (s.control.cycleInput env)
  have hinput : (s.control.cycleInput env).atTarget = s.control.advance.atTarget := rfl
  obtain ⟨motor, flight, hpublish⟩ := s.control.advance.fly_pc gen hinput
  have hlength : (if s.control.advance.atTarget then
      ((.pwmSignalOutputs, ⟨s.control.advance.consumed, true, motor⟩)
        :: flightPublications s.control.advance.consumed
          s.control.advance.loop.publishCountdown flight : List (Topic × Publication F))
      else []).length ≤ 5 := by
    have hflight := flightPublications_length_le s.control.advance.consumed
      s.control.advance.loop.publishCountdown flight
    split
    · rw [List.length_cons]
      omega
    · exact Nat.zero_le 5
  generalize ht : ({ s with
    control := s.control.advance.fly gen (s.control.cycleInput env) } : System F D R E) = t
  have hcontrol : t.control = s.control.advance.fly gen (s.control.cycleInput env) := by
    rw [← ht]
  have hconsumed : t.control.consumed = t.inputs.count := by
    rw [hcontrol, Control.fly_consumed, Control.advance_consumed, hread, ← ht]
  have hnow : t.control.currentBootTimeNs.toNat = s.control.currentBootTimeNs.toNat + min period
      (s.control.targetBootTimeNs.toNat - s.control.currentBootTimeNs.toNat) := by
    rw [hcontrol, Control.fly_currentBootTimeNs, htime]
  have htarget : t.control.targetBootTimeNs.toNat = s.control.targetBootTimeNs.toNat := by
    rw [hcontrol, hflown.target_eq]
  have hbefore' : s.toAnswer = 20 * (s.control.targetBootTimeNs.toNat
      - s.control.currentBootTimeNs.toNat) + 8 := by
    simp only [System.toAnswer, hpc]
  have hperiod : 0 < period := by decide
  rw [System.toAnswer_publish (by rw [hcontrol]; exact hpublish) hconsumed, hnow, htarget,
    hbefore']
  omega

/-- Then it publishes them, or comes nearer to it. -/
theorem controlStep_nearer {s t : System F D R E} (hinv : s.Inv) (h : s.Paced)
    (howed : s.topics.served + 1 = s.inputs.count) {env : CycleInput F}
    (hstep : controlStep gen s env = some t) :
    t.topics.served = s.inputs.count ∨
      (t.topics.served = s.topics.served ∧ t.toAnswer < s.toAnswer) := by
  have hpace := h.pace
  have hcontrol := hinv.control
  have hinputs := hinv.coordinator.inputs_lt
  cases controlStep_cases gen hstep with
  | arrived hpc hat =>
      simp only [Control.Pace, hpc] at hpace
      have hserved := hpace.resolve_right (by rw [hat]; exact Bool.noConfusion)
      have hunread : s.control.consumed ≠ s.inputs.count := by omega
      refine Or.inr ⟨rfl, ?_⟩
      simp only [System.toAnswer, System.lead, hpc, if_neg hunread]
      omega
  | behind hpc hat =>
      simp only [Control.Inv, hpc] at hcontrol
      have hread : s.control.consumed = s.inputs.count := (hcontrol.2.2 hat).symm.trans howed
      refine Or.inr ⟨rfl, ?_⟩
      simp only [System.toAnswer, hpc, if_pos hread]
      omega
  | input hpc hsome hnew =>
      refine Or.inr ⟨rfl, ?_⟩
      simp only [System.toAnswer, System.lead, hpc]
      omega
  | sleep hpc hold =>
      -- there is an input that is new
      simp only [Control.Pace, hpc] at hpace
      simp only [Control.Inv, hpc] at hcontrol
      obtain ⟨⟨hle, hgeneration⟩, -⟩ := hcontrol
      rw [InputStore.generation, hgeneration, generation_eq_zero hinputs,
        generation_inj hinputs (by omega)] at hold
      omega
  | woken hpc hsem =>
      refine Or.inr ⟨rfl, ?_⟩
      simp only [System.toAnswer, System.lead, hpc]
      omega
  | failed hpc hnone => cases (controlStep_inv gen hinv hstep).control.1
  | taken hpc hsome hnewest => exact Or.inr ⟨rfl, h.taken_nearer hinv hpc hnewest⟩
  | fly hpc =>
      simp only [Control.Inv, hpc] at hcontrol
      exact Or.inr ⟨rfl, h.flown_nearer gen hinv hpc (hcontrol.2.2.symm.trans howed) env⟩
  | flyFailed hpc =>
      simp only [Control.Inv, hpc] at hcontrol
      cases hcontrol.1
  | published hpc =>
      refine Or.inr ⟨rfl, ?_⟩
      simp only [System.toAnswer, System.lead, hpc, List.length_nil]
      split <;> omega
  | @publish topic p pending hpc =>
      by_cases htopic : topic = .pwmSignalOutputs
      · subst htopic
        exact Or.inl ((Topics.served_publish hinv.published p).trans howed)
      · refine Or.inr ⟨s.topics.served_publish_other htopic p, ?_⟩
        simp only [System.toAnswer, System.lead, hpc, List.length_cons]
        split <;> omega

/-! ## The phases of an exchange in turn -/

theorem System.Exchange.control {s : System F D R E} {n answered : Nat} (h : s.Exchange n answered)
    (env : CycleInput F) :
    (attempt (step gen) s (.control env)).Exchange n answered ∧
      (attempt (step gen) s (.control env)).coordinator = s.coordinator := by
  rcases attempt_cases (step gen) s (.control env) with hsame | hstep
  · rw [hsame]
    exact ⟨h, rfl⟩
  · obtain ⟨hcoordinator, hcount⟩ := controlStep_coordinator gen hstep
    refine ⟨⟨controlStep_inv gen h.inv hstep, controlStep_paced gen h.inv h.paced hstep, ?_, ?_⟩,
      hcoordinator⟩
    · rw [hcount, h.inputs]
    · rw [hcoordinator, h.responses]

theorem attempt_waitFailed {s : System F D R E} (hpc : s.coordinator.pc ≠ .sequenceWait) :
    attempt (step gen) s .waitFailed = s := by
  rw [attempt, step, if_neg hpc]
  rfl

theorem giving_approach (n answered : Nat) :
    Approach (step gen) Allowed IsCoordinator
      (fun s : System F D R E => s.Exchange n answered ∧ s.coordinator.pc = .semGive)
      (fun s => s.Exchange n answered ∧ s.coordinator.pc = .motorGeneration) (fun _ => 0) := by
  refine .of_threads (fun s e hallowed h hhelpful => ?_) fun s e hallowed h hother => ?_
  · cases e with
    | control | waitFailed | terminate => cases hhelpful
    | coordinator request =>
        obtain ⟨hexchange, hpc⟩ := h
        have hstep : step gen s (.coordinator request) = some { s with
            inputs := { s.inputs with sem := true }
            coordinator := { s.coordinator with pc := .motorGeneration } } := by
          simp only [step, coordinatorStep, hpc]
        rw [attempt_of_some (step gen) hstep]
        exact Or.inl ⟨hexchange.coordinator hallowed (by simp [hpc]) hstep rfl, rfl⟩
  · cases e with
    | control env =>
        obtain ⟨hexchange, hcoordinator⟩ := h.1.control gen env
        refine ⟨⟨hexchange, ?_⟩, Nat.le_refl 0⟩
        rw [hcoordinator]
        exact h.2
    | coordinator request => exact absurd trivial hother
    | waitFailed =>
        rw [attempt_waitFailed gen (by simp [h.2])]
        exact ⟨h, Nat.le_refl 0⟩
    | terminate => exact absurd hallowed.2 id

theorem flying_approach (n answered : Nat) :
    Approach (step gen) Allowed IsControl
      (fun s : System F D R E => s.Exchange n answered ∧ s.coordinator.pc.Polling ∧
        s.topics.served + 1 = n)
      (fun s => s.Exchange n answered ∧ s.coordinator.pc.Polling ∧ s.topics.served = n)
      System.toAnswer := by
  refine .of_threads (fun s e _ h hhelpful => ?_) fun s e hallowed h hother => ?_
  · cases e with
    | control env =>
        obtain ⟨hexchange, hpc, howed⟩ := h
        have hcount : s.topics.served + 1 = s.inputs.count := howed.trans hexchange.inputs.symm
        have hgiven : s.coordinator.pc ≠ .semGive := by
          rcases hpc with hpc | hpc <;> simp [hpc]
        have hpossible := controlStep_possible gen hexchange.paced hgiven hcount env
        obtain ⟨t, hstep⟩ := Option.ne_none_iff_exists'.mp hpossible
        have hattempt : attempt (step gen) s (.control env) = t := attempt_of_some (step gen) hstep
        obtain ⟨hkept, hcoordinator⟩ := hexchange.control gen env
        rw [hattempt] at hkept hcoordinator ⊢
        rw [hcoordinator]
        rcases controlStep_nearer gen hexchange.inv hexchange.paced hcount hstep with
          hserved | ⟨hsame, hless⟩
        · exact Or.inl ⟨hkept, hpc, hserved.trans hexchange.inputs⟩
        · exact Or.inr ⟨⟨hkept, hpc, hsame ▸ howed⟩, hless⟩
    | coordinator | waitFailed | terminate => cases hhelpful
  · obtain ⟨hexchange, hpc, howed⟩ := h
    cases e with
    | control env => exact absurd rfl hother
    | coordinator request =>
        have hwait : s.coordinator.pc ≠ .sequenceWait := by
          rcases hpc with hpc | hpc <;> simp [hpc]
        rcases hpc with hpc | hpc
        · -- the poll finds no outputs that are new
          have hold : (s.topics .pwmSignalOutputs).generation = 0 ∨
              (s.topics .pwmSignalOutputs).generation = s.coordinator.motorGeneration := by
            by_contra hnew
            obtain ⟨hsome, hnew⟩ := not_or.mp hnew
            obtain ⟨hserved, -, -⟩ := hexchange.inv.polled hpc (hallowed.1 hpc) hsome hnew
            have hinputs := hexchange.inputs
            omega
          have hstep : step gen s (.coordinator request) = some { s with
              coordinator := { s.coordinator with pc := .sequenceTerminated } } := by
            simp only [step, coordinatorStep, hpc, if_pos hold]
          rw [attempt_of_some (step gen) hstep]
          exact ⟨⟨hexchange.coordinator hallowed hwait hstep rfl, Or.inr rfl, howed⟩, Nat.le_refl _⟩
        · have hstep : step gen s (.coordinator request) = some { s with
              coordinator := { s.coordinator with pc := .motorGeneration } } := by
            simp only [step, coordinatorStep, hpc, hexchange.paced.going, Bool.false_eq_true,
              if_false]
          rw [attempt_of_some (step gen) hstep]
          exact ⟨⟨hexchange.coordinator hallowed hwait hstep rfl, Or.inl rfl, howed⟩, Nat.le_refl _⟩
    | waitFailed =>
        rw [attempt_waitFailed gen (by rcases hpc with hpc | hpc <;> simp [hpc])]
        exact ⟨⟨hexchange, hpc, howed⟩, Nat.le_refl _⟩
    | terminate => exact absurd hallowed.2 id

theorem answering_approach (n answered : Nat) (hlt : n + 1 < 2 ^ 32) :
    Approach (step gen) Allowed IsCoordinator
      (fun s : System F D R E => s.Exchange n answered ∧ s.topics.served = n ∧
        0 < s.coordinator.pc.toRespond)
      (fun s => s.coordinator.responses.length = answered + 1)
      (fun s => s.coordinator.pc.toRespond) := by
  refine .of_threads (fun s e hallowed h hhelpful => ?_) fun s e hallowed h hother => ?_
  · cases e with
    | control | waitFailed | terminate => cases hhelpful
    | coordinator request =>
        obtain ⟨hexchange, hserved, hpc⟩ := h
        have hout {pc : CoordinatorPc} (hidle : pc.toRespond = 0) : s.coordinator.pc ≠ pc := by
          rintro rfl
          exact absurd hpc (Nat.not_lt.mpr (Nat.le_of_eq hidle))
        obtain ⟨t, hstep⟩ := Option.ne_none_iff_exists'.mp
          (coordinatorStep_possible (hout rfl : s.coordinator.pc ≠ .stopped) request)
        have hattempt : attempt (step gen) s (.coordinator request) = t :=
          attempt_of_some (step gen) hstep
        obtain ⟨-, htopics, -⟩ := coordinatorStep_keeps hstep
        rw [hattempt]
        rcases coordinatorStep_answering hexchange hlt hserved hpc hstep with
          hanswered | ⟨hresponses, hgoing, hless⟩
        · exact Or.inl hanswered
        · refine Or.inr ⟨⟨hexchange.coordinator hallowed (hout rfl) hstep hresponses, ?_, hgoing⟩,
            hless⟩
          rw [htopics]
          exact hserved
  · cases e with
    | control env =>
        obtain ⟨hexchange, hserved, hpc⟩ := h
        obtain ⟨hkept, hcoordinator⟩ := hexchange.control gen env
        rw [hcoordinator]
        refine ⟨⟨hkept, ?_, hpc⟩, Nat.le_refl _⟩
        rcases attempt_cases (step gen) s (.control env) with hsame | hstep
        · rw [hsame]
          exact hserved
        · -- all inputs are served, and nothing is published beyond them
          have hmore := controlStep_served_le gen hstep
          have hmost := hkept.inv.control.served_le
          rw [hkept.inputs] at hmost
          omega
    | coordinator request => exact absurd trivial hother
    | waitFailed =>
        have hwait : s.coordinator.pc ≠ .sequenceWait := by
          intro hat
          have hpc := h.2.2
          rw [hat] at hpc
          exact absurd hpc (Nat.lt_irrefl 0)
        rw [attempt_waitFailed gen hwait]
        exact ⟨h, Nat.le_refl _⟩
    | terminate => exact absurd hallowed.2 id

/-! ## Schedules -/

section Schedule

variable {schedule : Nat → Event F}

theorem stateAt_paced
    (hallowed : ∀ k, Allowed (stateAt (step gen) (boot gen : System F D R E) schedule k)
      (schedule k))
    (k : Nat) : (stateAt (step gen) (boot gen) schedule k).Inv ∧
      (stateAt (step gen) (boot gen) schedule k).Paced := by
  refine stateAt_inv (step gen) (P := fun s => s.Inv ∧ s.Paced) ?_ hallowed ⟨boot_inv gen, ?_⟩ k
  · rintro s e t hallowed ⟨hinv, hpaced⟩ hstep
    refine ⟨step_inv gen hallowed.1 hinv hstep, ?_⟩
    cases e with
    | control env => exact controlStep_paced gen hinv hpaced hstep
    | coordinator request => exact coordinatorStep_paced hpaced hallowed.2 hstep
    | waitFailed => exact hpaced.waitFailed gen hstep
    | terminate => exact absurd hallowed.2 id
  · refine ⟨rfl, Nat.le_refl _, Nat.zero_le _, fun sample hsample => ?_, Or.inl rfl, fun hwait => ?_⟩
    · cases hsample
    · cases hwait

theorem polling_completes
    (hallowed : ∀ k, Allowed (stateAt (step gen) (boot gen : System F D R E) schedule k)
      (schedule k))
    (hcontrol : Recurs schedule IsControl) (hcoordinator : Recurs schedule IsCoordinator)
    {n answered : Nat} (hlt : n + 1 < 2 ^ 32) {k : Nat}
    (hexchange : (stateAt (step gen) (boot gen) schedule k).Exchange n answered)
    (hpc : (stateAt (step gen) (boot gen) schedule k).coordinator.pc.Polling) :
    ∃ later, k < later ∧ (stateAt (step gen) (boot gen) schedule
      later).coordinator.responses.length = answered + 1 := by
  have hanswers {j : Nat}
      (hexchange : (stateAt (step gen) (boot gen) schedule j).Exchange n answered)
      (hpc : (stateAt (step gen) (boot gen) schedule j).coordinator.pc.Polling)
      (hserved : (stateAt (step gen) (boot gen) schedule j).topics.served = n) :=
    (answering_approach gen n answered hlt).arrives hallowed hcoordinator
      ⟨hexchange, hserved, by rcases hpc with hpc | hpc <;> rw [hpc] <;> exact Nat.succ_pos _⟩
  have hmost := hexchange.inv.control.served_le
  have hwaits := hexchange.inv.coordinator.inputs_le
  rw [hexchange.inputs] at hmost hwaits
  rcases Nat.lt_or_eq_of_le hmost with hbehind | hserved
  · obtain ⟨served, hserved, hexchange', hpc', hall⟩ :=
      (flying_approach gen n answered).arrives hallowed hcontrol
        ⟨hexchange, hpc, Nat.le_antisymm hbehind hwaits⟩
    obtain ⟨later, hlater, hresponse⟩ := hanswers hexchange' hpc' hall
    exact ⟨later, Nat.lt_trans hserved hlater, hresponse⟩
  · exact hanswers hexchange hpc hserved

/-- No exchange hangs. If the schedule attempts the steps of both threads again and again, the
host stays and asks for times in the range of the clock, and the coordinator does not look for
motor outputs while there are only those of the initialisation, then every request that was
taken is answered, as long as the motor generation does not come round to zero. -/
theorem exchange_completes
    (hallowed : ∀ k, Allowed (stateAt (step gen) (boot gen : System F D R E) schedule k)
      (schedule k))
    (hcontrol : Recurs schedule IsControl) (hcoordinator : Recurs schedule IsCoordinator) (k : Nat)
    (hlt : (stateAt (step gen) (boot gen) schedule k).inputs.count + 1 < 2 ^ 32)
    (hflight : (stateAt (step gen) (boot gen) schedule k).coordinator.pc.InFlight) :
    ∃ later, k < later ∧
      (stateAt (step gen) (boot gen) schedule later).coordinator.responses.length
        = (stateAt (step gen) (boot gen) schedule k).coordinator.responses.length + 1 := by
  obtain ⟨hinv, hpaced⟩ := stateAt_paced gen hallowed k
  have hexchange : (stateAt (step gen) (boot gen) schedule k).Exchange _ _ :=
    ⟨hinv, hpaced, rfl, rfl⟩
  rcases hflight with hpc | hgoing
  · obtain ⟨polling, hpolling, hexchange', hpc'⟩ :=
      (giving_approach gen _ _).arrives hallowed hcoordinator ⟨hexchange, hpc⟩
    obtain ⟨later, hlater, hresponse⟩ :=
      polling_completes gen hallowed hcontrol hcoordinator hlt hexchange' (Or.inl hpc')
    exact ⟨later, Nat.lt_trans hpolling hlater, hresponse⟩
  · cases hpc : (stateAt (step gen) (boot gen) schedule k).coordinator.pc with
    | motorGeneration =>
        exact polling_completes gen hallowed hcontrol hcoordinator hlt hexchange (Or.inl hpc)
    | sequenceTerminated =>
        exact polling_completes gen hallowed hcontrol hcoordinator hlt hexchange (Or.inr hpc)
    | motorCopy generation | flightGeneration | flightCopy generation | write | respond =>
        have hserved := hinv.coordinator
        simp only [Coordinator.Inv, hpc] at hserved
        exact (answering_approach gen _ _ hlt).arrives hallowed hcoordinator
          ⟨hexchange, hserved.2.1, hgoing⟩
    | sequenceWait | semGive | stopped =>
        rw [hpc] at hgoing
        exact absurd hgoing (Nat.lt_irrefl 0)

end Schedule

end Live

/-! ## A fair schedule -/

/-- The request is taken and given, the control thread flies, and then the threads take turns. -/
def benchSchedule (k : Nat) : Event Rat :=
  if k < 2 ∨ 17 ≤ k ∧ k % 2 = 1 then .coordinator ⟨true, ⟨625, ⟨0, 0, 0⟩, ⟨0, 0, 10⟩, true⟩⟩
  else .control (benchInput 1000 1000)

theorem benchSchedule_served (k : Nat) :
    1 ≤ (stateAt (step benchGenerated) (boot benchGenerated) benchSchedule
      (17 + k)).topics.served := by
  induction k with
  | zero => decide +kernel
  | succ k ih =>
      show 1 ≤ (attempt (step benchGenerated) (stateAt (step benchGenerated)
        (boot benchGenerated) benchSchedule (17 + k)) (benchSchedule (17 + k))).topics.served
      rcases attempt_cases (step benchGenerated) (stateAt (step benchGenerated)
        (boot benchGenerated) benchSchedule (17 + k)) (benchSchedule (17 + k)) with hsame | hstep
      · rw [hsame]
        exact ih
      · cases he : benchSchedule (17 + k) with
        | control env =>
            rw [he] at hstep
            exact Nat.le_trans ih (controlStep_served_le benchGenerated hstep)
        | coordinator request =>
            rw [he] at hstep
            rw [(coordinatorStep_keeps hstep).2.1]
            exact ih
        | waitFailed =>
            rw [he] at hstep
            simp only [step] at hstep
            split at hstep
            · rw [← Option.some.inj hstep]
              exact ih
            · cases hstep
        | terminate =>
            rw [he] at hstep
            rw [← Option.some.inj hstep]
            exact ih

theorem benchSchedule_allowed (k : Nat) :
    Allowed (stateAt (step benchGenerated) (boot benchGenerated) benchSchedule k)
      (benchSchedule k) := by
  by_cases hturn : k < 2 ∨ 17 ≤ k ∧ k % 2 = 1
  · rw [benchSchedule, if_pos hturn]
    refine ⟨fun hpc => ?_, (by decide : (625 : UInt64).toNat * 1000 ≤ latestNs)⟩
    rcases hturn with hfirst | ⟨hlater, -⟩
    · have hearly : ∀ i < 2, (stateAt (step benchGenerated) (boot benchGenerated) benchSchedule
          i).coordinator.pc ≠ .motorGeneration := by
        decide +kernel
      exact absurd hpc (hearly k hfirst)
    · obtain ⟨i, rfl⟩ := Nat.exists_eq_add_of_le hlater
      have hserved := benchSchedule_served i
      rw [Topics.served] at hserved
      omega
  · rw [benchSchedule, if_neg hturn]
    exact ⟨trivial, trivial⟩

theorem exchange_completes_bench :
    ∃ later, 2 < later ∧
      (stateAt (step benchGenerated) (boot benchGenerated) benchSchedule
        later).coordinator.responses.length
      = (stateAt (step benchGenerated) (boot benchGenerated) benchSchedule
        2).coordinator.responses.length + 1 := by
  have hcontrol : Recurs benchSchedule IsControl := by
    intro k
    refine ⟨2 * k + 18, by omega, ?_⟩
    rw [benchSchedule, if_neg (by omega)]
    trivial
  have hcoordinator : Recurs benchSchedule IsCoordinator := by
    intro k
    refine ⟨2 * k + 17, by omega, ?_⟩
    rw [benchSchedule, if_pos (by omega)]
    trivial
  have hgoing : (stateAt (step benchGenerated) (boot benchGenerated) benchSchedule
      2).coordinator.pc = .motorGeneration := by
    decide +kernel
  have hcount : (stateAt (step benchGenerated) (boot benchGenerated) benchSchedule
      2).inputs.count = 1 := by
    decide +kernel
  refine exchange_completes benchGenerated benchSchedule_allowed hcontrol hcoordinator 2 ?_ ?_
  · rw [hcount]
    decide
  · rw [hgoing]
    exact Or.inr (Nat.succ_pos 5)

end Rdd2.Lockstep
