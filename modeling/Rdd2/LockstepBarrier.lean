import Rdd2.LockstepTick
import Rdd2.MainLoopArming

/-!
# The completion barrier

The coordinator takes the next motor generation for the completion of the
input it has just published. Nothing ties a generation to an input but the
counts: one publication by `rdd2_motor_output_init`, and one for each input
that is flown to its target. A coordinator that has seen the publication of
input `n` waits for the one after it, so the barrier holds from any exchange to
the next (`Inv`, by position of the two threads). It does not hold for the
first one: `motor_generation` starts at zero, the topic at the initialisation's
publication, and a coordinator that looks before the control thread has flown
takes that one for the answer (`initial_output_taken`).
-/

namespace Rdd2.Lockstep

/-! ## Generations -/

theorem generation_eq_zero_iff (n : Nat) : UInt32.ofNat n = 0 ↔ n % 2 ^ 32 = 0 := by
  rw [UInt32.ofNat_eq_iff_mod_eq_toNat]
  rfl

theorem generation_inj_iff (m n : Nat) :
    UInt32.ofNat m = UInt32.ofNat n ↔ m % 2 ^ 32 = n % 2 ^ 32 := by
  rw [UInt32.ofNat_eq_iff_mod_eq_toNat, UInt32.toNat_ofNat']

theorem generation_eq_zero {n : Nat} (h : n < 2 ^ 32) : UInt32.ofNat n = 0 ↔ n = 0 := by
  rw [generation_eq_zero_iff, Nat.mod_eq_of_lt h]

theorem generation_inj {m n : Nat} (hm : m < 2 ^ 32) (hn : n < 2 ^ 32) :
    UInt32.ofNat m = UInt32.ofNat n ↔ m = n := by
  rw [generation_inj_iff, Nat.mod_eq_of_lt hm, Nat.mod_eq_of_lt hn]

/-- A count that has reached `2^32` reads as no publication at all. -/
theorem generation_lt {n : Nat} (hle : n ≤ 2 ^ 32) (h : UInt32.ofNat n ≠ 0) : n < 2 ^ 32 := by
  rcases Nat.lt_or_eq_of_le hle with hlt | rfl
  · exact hlt
  · exact absurd (by decide) h

section Barrier

variable {F D R E : Type}

/-! ## The invariant -/

/-- The motor outputs published since initialisation. -/
def Topics.served (topics : Topics F) : Nat := (topics .pwmSignalOutputs).count - 1

/-- The publication is there, and input `n` was flown for it. -/
def MadeFor (n : Nat) (o : Option (Publication F)) : Prop := ∃ p, o = some p ∧ p.input = n

/-- The input read last is one of those published, and the generation that of
its publication. -/
def Control.Settled (c : Control F D R E) (inputs : Nat) : Prop :=
  c.consumed ≤ inputs ∧ c.imuGeneration = UInt32.ofNat c.consumed

/-- Until its target is reached, the input read last is not served. -/
def Control.Flown (c : Control F D R E) (served : Nat) : Prop :=
  served ≤ c.consumed ∧ (c.atTarget = false → served + 1 = c.consumed)

def NoMotor (pending : List (Topic × Publication F)) : Prop :=
  ∀ tp ∈ pending, tp.1 ≠ .pwmSignalOutputs

def Control.Owing (c : Control F D R E) (served : Nat) (pending : List (Topic × Publication F)) :
    Prop :=
  ∃ p rest, pending = (.pwmSignalOutputs, p) :: rest ∧ NoMotor rest ∧ p.input = c.consumed ∧
    served + 1 = c.consumed ∧ c.atTarget = true

/-- Where the control thread is, and how many of `inputs` it has served. -/
def Control.Inv (c : Control F D R E) (inputs served : Nat) : Prop :=
  match c.pc with
  | .loopHead => c.Settled inputs ∧ c.Flown served
  | .waitNext | .semTake => c.Settled inputs ∧ served ≤ c.consumed
  | .latestGet =>
      served ≤ c.consumed ∧ c.consumed < inputs ∧ c.imuGeneration = UInt32.ofNat inputs
  | .tick imuOk => imuOk = true ∧ c.Settled inputs ∧ served + 1 = c.consumed
  | .publish pending =>
      c.Settled inputs ∧ ((NoMotor pending ∧ c.Flown served) ∨ c.Owing served pending)

/-- What the coordinator has seen before it waits for the outputs of input
`n`: those of the input before it, or nothing. -/
def Coordinator.Before (c : Coordinator F) (n : Nat) : Prop :=
  n < 2 ^ 32 ∧ c.motorGeneration = if n = 1 then 0 else UInt32.ofNat n

/-- Where the coordinator is, and how many of its `inputs` are served. -/
def Coordinator.Inv (c : Coordinator F) (inputs served : Nat) : Prop :=
  match c.pc with
  | .sequenceWait => inputs = c.responses.length ∧ served = inputs ∧ c.Before (inputs + 1)
  | .semGive | .motorGeneration | .sequenceTerminated =>
      inputs = c.responses.length + 1 ∧ inputs ≤ served + 1 ∧ c.Before inputs
  | .motorCopy generation =>
      inputs = c.responses.length + 1 ∧ served = inputs ∧ inputs + 1 < 2 ^ 32 ∧
        generation = UInt32.ofNat (inputs + 1)
  | .flightGeneration | .flightCopy _ | .write =>
      inputs = c.responses.length + 1 ∧ served = inputs ∧ c.Before (inputs + 1) ∧
        MadeFor inputs c.motor
  | .respond =>
      inputs = c.responses.length + 1 ∧ served = inputs ∧ c.Before (inputs + 1) ∧
        MadeFor inputs (c.shared .pwmSignalOutputs)
  | .stopped => inputs ≤ served + 1 ∧ inputs < 2 ^ 32

/-- Every response has the motor outputs of its own input. -/
structure System.Inv (s : System F D R E) : Prop where
  published : 1 ≤ (s.topics .pwmSignalOutputs).count
  newest : 1 ≤ s.topics.served → MadeFor s.topics.served (s.topics .pwmSignalOutputs).newest
  sample : 1 ≤ s.inputs.count → s.inputs.newest ≠ none
  control : s.control.Inv s.inputs.count s.topics.served
  coordinator : s.coordinator.Inv s.inputs.count s.topics.served
  responses : ∀ i outputs, s.coordinator.responses[i]? = some outputs →
    MadeFor (i + 1) (outputs .pwmSignalOutputs)

theorem Coordinator.Inv.inputs_lt {c : Coordinator F} {inputs served : Nat}
    (h : c.Inv inputs served) : inputs < 2 ^ 32 := by
  cases hpc : c.pc <;> simp only [Coordinator.Inv, hpc, Coordinator.Before] at h <;> omega

theorem Coordinator.Inv.inputs_le {c : Coordinator F} {inputs served : Nat}
    (h : c.Inv inputs served) : inputs ≤ served + 1 := by
  cases hpc : c.pc <;> simp only [Coordinator.Inv, hpc] at h <;> omega

/-- Motor outputs are published only while the coordinator waits for them. -/
theorem Coordinator.Inv.serve {c : Coordinator F} {inputs served : Nat}
    (h : c.Inv inputs served) (hle : served + 1 ≤ inputs) : c.Inv inputs (served + 1) := by
  cases hpc : c.pc <;> simp only [Coordinator.Inv, hpc] at h ⊢
  case semGive | motorGeneration | sequenceTerminated => exact ⟨h.1, by omega, h.2.2⟩
  all_goals omega

/-- Inputs are published only while the control thread has served them all. -/
theorem Control.Inv.input {c : Control F D R E} {inputs : Nat} (h : c.Inv inputs inputs) :
    c.Inv (inputs + 1) inputs := by
  cases hpc : c.pc with
  | loopHead | waitNext | semTake | publish =>
      simp only [Control.Inv, hpc, Control.Settled] at h ⊢
      obtain ⟨⟨hconsumed, hgeneration⟩, hflown⟩ := h
      exact ⟨⟨Nat.le_succ_of_le hconsumed, hgeneration⟩, hflown⟩
  | latestGet | tick =>
      simp only [Control.Inv, hpc, Control.Settled] at h
      omega

/-! ## Steps of the control thread -/

/-- A step that changes the control thread only. -/
theorem System.Inv.control_step {s : System F D R E} (h : s.Inv) {c : Control F D R E}
    (hc : c.Inv s.inputs.count s.topics.served) : System.Inv { s with control := c } :=
  ⟨h.published, h.newest, h.sample, hc, h.coordinator, h.responses⟩

theorem System.Inv.sem_step {s : System F D R E} (h : s.Inv) (sem : Bool) :
    System.Inv { s with inputs := { s.inputs with sem := sem } } :=
  ⟨h.published, h.newest, h.sample, h.control, h.coordinator, h.responses⟩

theorem Topics.publish_same (topics : Topics F) (topic : Topic) (p : Publication F) :
    topics.publish topic p topic = ⟨(topics topic).count + 1, some p⟩ := by
  simp [Topics.publish]

theorem Topics.publish_other (topics : Topics F) {topic topic' : Topic} (h : topic' ≠ topic)
    (p : Publication F) : topics.publish topic p topic' = topics topic' := by
  simp [Topics.publish, h]

theorem Topics.served_publish {topics : Topics F} (h : 1 ≤ (topics .pwmSignalOutputs).count)
    (p : Publication F) : (topics.publish .pwmSignalOutputs p).served = topics.served + 1 := by
  rw [Topics.served, topics.publish_same, Topics.served]
  simp only
  omega

theorem Topics.served_publish_other (topics : Topics F) {topic : Topic}
    (h : topic ≠ .pwmSignalOutputs) (p : Publication F) :
    (topics.publish topic p).served = topics.served := by
  rw [Topics.served, topics.publish_other h.symm, Topics.served]

theorem Topics.served_publish_le (topics : Topics F) (topic : Topic) (p : Publication F) :
    topics.served ≤ (topics.publish topic p).served := by
  by_cases htopic : topic = .pwmSignalOutputs
  · subst htopic
    rw [Topics.served, Topics.served, topics.publish_same .pwmSignalOutputs p]
    exact Nat.sub_le_sub_right (Nat.le_succ _) 1
  · rw [topics.served_publish_other htopic]

theorem flightPublications_noMotor (n countdown : Nat) (flight : Call F) :
    NoMotor (flightPublications n countdown flight) := by
  unfold flightPublications
  split
  · refine List.forall_mem_map.mpr fun topic htopic hmotor => ?_
    exact flightTopics_ne htopic hmotor
  · intro tp htp
    cases htp

theorem System.Inv.publish {s : System F D R E} (h : s.Inv) {topic : Topic} {p : Publication F}
    {pending : List (Topic × Publication F)} (hpc : s.control.pc = .publish ((topic, p) :: pending)) :
    System.Inv { s with
      topics := s.topics.publish topic p
      control := { s.control with pc := .publish pending } } := by
  have hcontrol := h.control
  simp only [Control.Inv, hpc] at hcontrol
  obtain ⟨hsettled, hpending⟩ := hcontrol
  rcases hpending with ⟨hnone, hflown⟩ | ⟨p', rest, heq, hrest, hmade, howing, hat⟩
  · -- a flight topic
    obtain ⟨htopic, hlater⟩ := List.forall_mem_cons.mp hnone
    have hmotor := s.topics.publish_other (Ne.symm htopic) p
    have hserved := s.topics.served_publish_other htopic p
    refine ⟨?_, ?_, h.sample, ?_, ?_, h.responses⟩
    · simp only [hmotor]
      exact h.published
    · simp only [hmotor, hserved]
      exact h.newest
    · rw [hserved]
      exact ⟨hsettled, Or.inl ⟨hlater, hflown⟩⟩
    · rw [hserved]
      exact h.coordinator
  · -- the motor topic
    obtain ⟨hhead, rfl⟩ := List.cons.inj heq
    obtain ⟨rfl, rfl⟩ := Prod.mk.inj hhead
    have hmotor := s.topics.publish_same .pwmSignalOutputs p
    have hserved := Topics.served_publish h.published p
    refine ⟨?_, ?_, h.sample, ?_, ?_, h.responses⟩
    · simp only [hmotor]
      omega
    · intro _
      simp only [hmotor, hserved]
      exact ⟨p, rfl, by omega⟩
    · rw [hserved]
      refine ⟨hsettled, Or.inl ⟨hrest, Nat.le_of_eq howing, fun hbefore => ?_⟩⟩
      cases hat.symm.trans hbefore
    · rw [hserved]
      refine h.coordinator.serve ?_
      have := hsettled.1
      omega

/-! ## Steps of the coordinator -/

theorem Control.Inv.served_le {c : Control F D R E} {inputs served : Nat}
    (h : c.Inv inputs served) : served ≤ inputs := by
  cases hpc : c.pc <;> simp only [Control.Inv, hpc, Control.Settled, Control.Flown] at h
  case publish pending =>
    obtain ⟨hsettled, hflown | ⟨p, rest, -, -, -, howing, -⟩⟩ := h <;> omega
  all_goals omega

/-- The coordinator does not look for motor outputs while there are only those
of the initialisation. -/
def PastInitial (s : System F D R E) (e : Event F) : Prop :=
  match e with
  | .control _ | .waitFailed | .terminate => True
  | .coordinator _ =>
      s.coordinator.pc = .motorGeneration → (s.topics .pwmSignalOutputs).count ≠ 1

/-- A step that changes the coordinator only, and answers nothing. -/
theorem System.Inv.coordinator_step {s : System F D R E} (h : s.Inv) {c : Coordinator F}
    (hc : c.Inv s.inputs.count s.topics.served) (hresponses : c.responses = s.coordinator.responses) :
    System.Inv { s with coordinator := c } :=
  ⟨h.published, h.newest, h.sample, h.control, hc, by simpa only [hresponses] using h.responses⟩

theorem System.Inv.polled {s : System F D R E} (h : s.Inv)
    (hpc : s.coordinator.pc = .motorGeneration) (hpast : (s.topics .pwmSignalOutputs).count ≠ 1)
    (hsome : (s.topics .pwmSignalOutputs).generation ≠ 0)
    (hnew : (s.topics .pwmSignalOutputs).generation ≠ s.coordinator.motorGeneration) :
    s.topics.served = s.inputs.count ∧ s.inputs.count + 1 < 2 ^ 32 ∧
      (s.topics .pwmSignalOutputs).generation = UInt32.ofNat (s.inputs.count + 1) := by
  have hcoordinator := h.coordinator
  simp only [Coordinator.Inv, hpc] at hcoordinator
  obtain ⟨hresponses, hle, hlt, hseen⟩ := hcoordinator
  have hserved := h.control.served_le
  have hpublished := h.published
  have hcount : (s.topics .pwmSignalOutputs).count = s.topics.served + 1 := by
    rw [Topics.served]
    omega
  rw [TopicState.generation, hcount] at hsome hnew
  rw [hcount] at hpast
  have hall : s.topics.served = s.inputs.count := by
    by_contra hne
    have hbehind : s.topics.served + 1 = s.inputs.count := by omega
    rw [hseen, hbehind, if_neg (by omega)] at hnew
    exact hnew rfl
  rw [hall] at hsome hcount
  exact ⟨hall, generation_lt (by omega) hsome, by rw [TopicState.generation, hcount]⟩

/-- Once all inputs are served there is a motor generation. -/
theorem System.Inv.published_ne {s : System F D R E} (h : s.Inv)
    (hserved : s.topics.served = s.inputs.count) (hlt : s.inputs.count + 1 < 2 ^ 32) :
    (s.topics .pwmSignalOutputs).generation ≠ 0 := by
  have hpublished := h.published
  have hcount : (s.topics .pwmSignalOutputs).count = s.inputs.count + 1 := by
    rw [← hserved, Topics.served]
    omega
  rw [TopicState.generation, hcount, ne_eq, generation_eq_zero hlt]
  omega

theorem coordinatorStep_inv {s t : System F D R E} {request : Request F} (h : s.Inv)
    (hpast : PastInitial s (.coordinator request)) (hstep : coordinatorStep s request = some t) :
    t.Inv := by
  have hcoordinator := h.coordinator
  cases coordinatorStep_cases hstep with
  | take hpc hok =>
      simp only [Coordinator.Inv, hpc] at hcoordinator
      obtain ⟨hresponses, hserved, hbefore⟩ := hcoordinator
      refine ⟨h.published, h.newest, nofun, ?_, ⟨?_, ?_, hbefore⟩, h.responses⟩
      · have hcontrol := h.control
        rw [hserved] at hcontrol
        simp only [hserved]
        exact hcontrol.input
      · exact congrArg (· + 1) hresponses
      · exact Nat.succ_le_succ (Nat.le_of_eq hserved.symm)
  | give hpc =>
      simp only [Coordinator.Inv, hpc] at hcoordinator
      exact (h.sem_step true).coordinator_step hcoordinator rfl
  | pollNew hpc hsome hnew =>
      obtain ⟨hserved, hlt, hgeneration⟩ := h.polled hpc (hpast hpc) hsome hnew
      simp only [Coordinator.Inv, hpc] at hcoordinator
      exact h.coordinator_step ⟨hcoordinator.1, hserved, hlt, hgeneration⟩ rfl
  | copyNone hpc hnone =>
      simp only [Coordinator.Inv, hpc] at hcoordinator
      obtain ⟨-, hserved, hlt, -⟩ := hcoordinator
      exact absurd hnone (h.published_ne hserved hlt)
  | copy hpc hsome =>
      simp only [Coordinator.Inv, hpc] at hcoordinator
      obtain ⟨hresponses, hserved, hlt, rfl⟩ := hcoordinator
      have hmade := h.newest (by omega)
      rw [hserved] at hmade
      refine h.coordinator_step ⟨hresponses, hserved, ⟨hlt, ?_⟩, hmade⟩ rfl
      rw [if_neg (by omega)]
  | reject hpc hbad =>
      simp only [Coordinator.Inv, hpc] at hcoordinator
      obtain ⟨-, hserved, hlt, -⟩ := hcoordinator
      exact h.coordinator_step ⟨by omega, by omega⟩ rfl
  | exit hpc hterminate =>
      simp only [Coordinator.Inv, hpc] at hcoordinator
      exact h.coordinator_step ⟨hcoordinator.2.1, hcoordinator.2.2.1⟩ rfl
  | pollOld hpc hold | again hpc hgoing | flightOld hpc hold | flightNew hpc hsome hnew
  | flightCopy hpc | write hpc =>
      simp only [Coordinator.Inv, hpc] at hcoordinator
      exact h.coordinator_step hcoordinator rfl
  | respond hpc =>
      simp only [Coordinator.Inv, hpc] at hcoordinator
      obtain ⟨hresponses, hserved, hbefore, hmade⟩ := hcoordinator
      refine ⟨h.published, h.newest, h.sample, h.control, ⟨?_, hserved, hbefore⟩, ?_⟩
      · simp only [List.length_append, List.length_singleton]
        exact hresponses
      · refine Guarded.history_concat
          (Q := fun i (outputs : Outputs F) => MadeFor (i + 1) (outputs .pwmSignalOutputs))
          h.responses ?_
        rw [← hresponses]
        exact hmade

theorem System.Inv.terminated {s : System F D R E} (h : s.Inv) :
    System.Inv { s with terminate := true } :=
  ⟨h.published, h.newest, h.sample, h.control, h.coordinator, h.responses⟩

theorem System.Inv.waitFailed {s : System F D R E} (h : s.Inv)
    (hpc : s.coordinator.pc = .sequenceWait) :
    System.Inv { s with coordinator := { s.coordinator with pc := .stopped } } := by
  have hcoordinator := h.coordinator
  simp only [Coordinator.Inv, hpc] at hcoordinator
  obtain ⟨-, hserved, hlt, -⟩ := hcoordinator
  exact h.coordinator_step ⟨by omega, by omega⟩ rfl

/-! ## Cycles -/

variable [CFloat F] [CFloat D] [CDouble F D] (gen : Generated D R E)

/-- A cycle owes its input's motor outputs if it reaches the target, and
publishes nothing if it does not. -/
theorem Control.Settled.fly_inv {c : Control F D R E} {inputs served : Nat}
    (hsettled : c.Settled inputs) (howing : served + 1 = c.consumed) {input : CycleInput F}
    (hinput : input.atTarget = c.atTarget) : (c.fly gen input).Inv inputs served := by
  obtain ⟨motor, flight, hpc⟩ := c.fly_pc gen hinput
  simp only [Control.Inv, hpc]
  refine ⟨hsettled, ?_⟩
  cases hat : c.atTarget with
  | false =>
      refine Or.inl ⟨?_, Nat.le_of_succ_le (Nat.le_of_eq howing), fun _ => howing⟩
      intro tp htp
      cases htp
  | true =>
      exact Or.inr ⟨⟨c.consumed, true, motor⟩, _, rfl, flightPublications_noMotor _ _ _, rfl,
        howing, hat⟩

theorem controlStep_served_le {s t : System F D R E} {env : CycleInput F}
    (hstep : controlStep gen s env = some t) : s.topics.served ≤ t.topics.served := by
  cases controlStep_cases gen hstep with
  | publish hpc => exact s.topics.served_publish_le _ _
  | _ => exact Nat.le_refl _

theorem controlStep_inv {s t : System F D R E} {env : CycleInput F} (h : s.Inv)
    (hstep : controlStep gen s env = some t) : t.Inv := by
  have hcontrol := h.control
  have hinputs := h.coordinator.inputs_lt
  cases controlStep_cases gen hstep with
  | arrived hpc hat =>
      simp only [Control.Inv, hpc] at hcontrol
      exact h.control_step ⟨hcontrol.1, hcontrol.2.1⟩
  | behind hpc hat =>
      simp only [Control.Inv, hpc] at hcontrol
      exact h.control_step ⟨rfl, hcontrol.1, hcontrol.2.2 hat⟩
  | input hpc hsome hnew =>
      simp only [Control.Inv, hpc] at hcontrol
      obtain ⟨hsettled, hserved⟩ := hcontrol
      refine h.control_step ⟨hserved, ?_, rfl⟩
      refine Nat.lt_of_le_of_ne hsettled.1 fun heq => hnew ?_
      rw [hsettled.2, heq]
      rfl
  | sleep hpc hold =>
      simp only [Control.Inv, hpc] at hcontrol
      exact h.control_step hcontrol
  | woken hpc hsem =>
      simp only [Control.Inv, hpc] at hcontrol
      exact (h.sem_step false).control_step hcontrol
  | failed hpc hnone =>
      simp only [Control.Inv, hpc] at hcontrol
      obtain ⟨hserved, hnew, -⟩ := hcontrol
      rcases hnone with hnone | hnone
      · rw [InputStore.generation, generation_eq_zero hinputs] at hnone
        omega
      · exact absurd hnone (h.sample (by omega))
  | taken hpc hsome hnewest =>
      simp only [Control.Inv, hpc] at hcontrol
      obtain ⟨hserved, hnew, hgeneration⟩ := hcontrol
      have hle := h.coordinator.inputs_le
      refine h.control_step ⟨⟨Nat.le_refl _, hgeneration⟩, ?_, fun _ => ?_⟩
      · show s.topics.served ≤ s.inputs.count
        omega
      · show s.topics.served + 1 = s.inputs.count
        omega
  | fly hpc =>
      simp only [Control.Inv, hpc] at hcontrol
      obtain ⟨-, hsettled, howing⟩ := hcontrol
      have hadvance : s.control.advance.Settled s.inputs.count := by
        rw [Control.Settled, Control.advance_consumed, Control.advance_imuGeneration]
        exact hsettled
      rw [← Control.advance_consumed] at howing
      have hinput : (s.control.cycleInput env).atTarget = s.control.advance.atTarget := rfl
      exact h.control_step (hadvance.fly_inv gen howing hinput)
  | flyFailed hpc =>
      simp only [Control.Inv, hpc] at hcontrol
      cases hcontrol.1
  | published hpc =>
      simp only [Control.Inv, hpc] at hcontrol
      obtain ⟨hsettled, hflown | ⟨p, rest, hnil, -⟩⟩ := hcontrol
      · exact h.control_step ⟨hsettled, hflown.2⟩
      · cases hnil
  | publish hpc => exact h.publish hpc

theorem step_inv {s t : System F D R E} {e : Event F} (hpast : PastInitial s e) (h : s.Inv)
    (hstep : step gen s e = some t) : t.Inv := by
  cases e with
  | control env => exact controlStep_inv gen h hstep
  | coordinator request => exact coordinatorStep_inv h hpast hstep
  | waitFailed =>
      simp only [step] at hstep
      split at hstep <;> cases hstep
      exact h.waitFailed (by assumption)
  | terminate =>
      cases hstep
      exact h.terminated

/-! ## Runs -/

theorem boot_inv : (boot gen : System F D R E).Inv where
  published := Nat.le_refl 1
  newest := fun h => absurd h (Nat.not_succ_le_zero 0)
  sample := fun h => absurd h (Nat.not_succ_le_zero 0)
  control := by
    have hat : (boot gen : System F D R E).control.atTarget = true := rfl
    exact ⟨⟨Nat.le_refl 0, rfl⟩, Nat.le_refl 0, fun h => absurd (hat.symm.trans h) (by decide)⟩
  coordinator := ⟨rfl, rfl, show 0 + 1 < 2 ^ 32 by decide, rfl⟩
  responses := by
    intro i outputs h
    cases h

theorem run_inv {events : List (Event F)} {s : System F D R E}
    (hpast : Guarded.Ok (step gen) PastInitial (boot gen) events)
    (hrun : Guarded.run (step gen) (boot gen) events = some s) : s.Inv := by
  exact Guarded.ok_keeps (step gen) (fun _ _ _ => step_inv gen) (boot_inv gen) hpast hrun

/-- Unless the coordinator looks for motor outputs while there are only those
of the initialisation, every response has the outputs published after its own
input was read, whatever the order of the steps. -/
theorem response_has_own_output {events : List (Event F)} {s : System F D R E}
    (hpast : Guarded.Ok (step gen) PastInitial (boot gen) events)
    (hrun : Guarded.run (step gen) (boot gen) events = some s) {i : Nat} {outputs : Outputs F}
    (hresponse : s.coordinator.responses[i]? = some outputs) :
    ∃ p, outputs .pwmSignalOutputs = some p ∧ p.input = i + 1 :=
  (run_inv gen hpast hrun).responses i outputs hresponse

end Barrier

/-! ## Bench runs -/

instance {F D R E : Type} (s : System F D R E) (e : Event F) : Decidable (PastInitial s e) :=
  match e with
  | .control _ | .waitFailed | .terminate => isTrue trivial
  | .coordinator _ => inferInstanceAs (Decidable (_ → _))

def benchControl (steps : Nat) : List (Event Rat) :=
  List.replicate steps (.control (benchInput 1000 1000))

def benchCoordinator (timestampUs : UInt64) (steps : Nat) : List (Event Rat) :=
  List.replicate steps (.coordinator ⟨true, ⟨timestampUs, ⟨0, 0, 0⟩, ⟨0, 0, 10⟩, true⟩⟩)

/-- The first exchange, one tick long, each thread in its turn. -/
def benchExchange : List (Event Rat) :=
  benchControl 2 ++ benchCoordinator 625 2 ++ benchControl 13 ++ benchCoordinator 625 6

theorem response_has_own_output_bench :
    ∃ s, Guarded.run (step benchGenerated) (boot benchGenerated) benchExchange = some s ∧
      ∃ outputs, s.coordinator.responses[0]? = some outputs ∧
        ∃ p, outputs .pwmSignalOutputs = some p ∧ p.input = 0 + 1 := by
  obtain ⟨s, hrun, hanswered⟩ : ∃ s, Guarded.run (step benchGenerated) (boot benchGenerated)
      benchExchange = some s ∧ s.coordinator.responses.length = 1 :=
    Guarded.run_any (step benchGenerated) (by decide +kernel)
  have hlt : 0 < s.coordinator.responses.length := by omega
  have hresponse := List.getElem?_eq_getElem hlt
  have hpast : Guarded.Ok (step benchGenerated) PastInitial (boot benchGenerated) benchExchange := by
    decide +kernel
  exact ⟨s, hrun, _, hresponse, response_has_own_output benchGenerated hpast hrun hresponse⟩

/-- The coordinator answers its first input before the control thread has taken
a step. -/
theorem initial_output_taken :
    ¬ ∀ (events : List (Event Rat)) (s : System Rat Rat Unit Unit) (i : Nat) (outputs : Outputs Rat),
      Guarded.run (step benchGenerated) (boot benchGenerated) events = some s →
      s.coordinator.responses[i]? = some outputs →
      ∃ p, outputs .pwmSignalOutputs = some p ∧ p.input = i + 1 := by
  intro h
  obtain ⟨s, hrun, hanswered⟩ : ∃ s, Guarded.run (step benchGenerated) (boot benchGenerated)
      (benchCoordinator 625 7) = some s ∧
      (s.coordinator.responses[0]?.bind fun outputs =>
        (outputs .pwmSignalOutputs).map (·.input)) = some 0 :=
    Guarded.run_any (step benchGenerated) (by decide +kernel)
  cases hresponse : s.coordinator.responses[0]? with
  | none => simp [hresponse] at hanswered
  | some outputs =>
      obtain ⟨p, hp, hinput⟩ := h _ s 0 outputs hrun hresponse
      simp [hresponse, hp, hinput] at hanswered

end Rdd2.Lockstep
