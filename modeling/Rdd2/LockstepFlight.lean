import Rdd2.LockstepBarrier

/-!
# The flight state of an exchange

With the control thread running until it blocks whenever it can, an exchange
is a function call: input in, motor outputs and flight state out. The flight
state is that of the exchange only where it was published in it.
`publish_flight_state` first asks whether the target is reached and then counts
down, so the countdown, meant for controller ticks, counts exchanges: of eight
exchanges the first publishes, and the coordinator answers the other seven with
what it copied then (`response_has_own_flight_state_iff`).
-/

namespace Rdd2.Lockstep

section Flight

variable {F D R E : Type}

/-! ## What a number of exchanges leaves -/

/-- The exchange that published last when `n` inputs are served. -/
def lastPublished (n : Nat) : Nat :=
  (n - 1) / flightStatePublishDiv * flightStatePublishDiv + 1

/-- The publications of the flight state when `n` inputs are served. -/
def flightCount (n : Nat) : Nat := (n + (flightStatePublishDiv - 1)) / flightStatePublishDiv

theorem div_eq : flightStatePublishDiv = 8 := rfl

/-- The publication is there, and it is from the tick that reached the target of
the exchange that published last. -/
def FlightFrom (n : Nat) (o : Option (Publication F)) : Prop :=
  ∃ p, o = some p ∧ p.input = lastPublished n ∧ p.atTarget = true

/-- Outputs with the flight state of the exchange that published last. -/
def FlightAt (n : Nat) (outputs : Outputs F) : Prop :=
  1 ≤ n → ∀ topic ∈ flightTopics, FlightFrom n (outputs topic)

def Topics.FlownTo (topics : Topics F) (n : Nat) : Prop :=
  (∀ topic ∈ flightTopics, (topics topic).count = flightCount n) ∧
    FlightAt n fun topic => (topics topic).newest

/-- Where nothing was published in between, the flight state stays. -/
theorem FlightAt.succ {n : Nat} {outputs : Outputs F} (h : FlightAt n outputs)
    (hn : n % flightStatePublishDiv ≠ 0) : FlightAt (n + 1) outputs := by
  intro _ topic htopic
  rw [div_eq] at hn
  have hlast : lastPublished (n + 1) = lastPublished n := by
    simp only [lastPublished, div_eq]
    omega
  obtain ⟨p, hp, hinput, hat⟩ := h (by omega) topic htopic
  exact ⟨p, hp, hlast ▸ hinput, hat⟩

theorem lastPublished_eq_iff (i : Nat) :
    lastPublished (i + 1) = i + 1 ↔ i % flightStatePublishDiv = 0 := by
  simp only [lastPublished, div_eq]
  omega

theorem flightCount_succ (n : Nat) :
    flightCount (n + 1) = flightCount n + if n % flightStatePublishDiv = 0 then 1 else 0 := by
  by_cases hn : n % flightStatePublishDiv = 0
  · rw [if_pos hn]
    rw [div_eq] at hn
    simp only [flightCount, div_eq]
    omega
  · rw [if_neg hn]
    rw [div_eq] at hn
    simp only [flightCount, div_eq]
    omega

/-! ## The topics once a tick has published everything -/

def Topics.publishAll (topics : Topics F) (pending : List (Topic × Publication F)) : Topics F :=
  pending.foldl (fun topics tp => topics.publish tp.1 tp.2) topics

/-- The topics with the pending publications made. -/
def System.flushed (s : System F D R E) : Topics F :=
  match s.control.pc with
  | .publish pending => s.topics.publishAll pending
  | _ => s.topics

theorem publishAll_flight (topics : Topics F) (p : Publication F) (topic : Topic) :
    topics.publishAll (flightTopics.map fun topic => (topic, p)) topic =
      if topic ∈ flightTopics then ⟨(topics topic).count + 1, some p⟩ else topics topic := by
  cases topic <;> simp [Topics.publishAll, Topics.publish, flightTopics]

/-- The tick that reaches the target of input `n + 1` takes the topics one
exchange further. -/
theorem Topics.FlownTo.tick {topics : Topics F} {n : Nat} (h : topics.FlownTo n)
    (motor flight : Call F) {countdown : Nat}
    (hcountdown : countdown = 0 ↔ n % flightStatePublishDiv = 0) :
    (topics.publishAll ((.pwmSignalOutputs, ⟨n + 1, true, motor⟩)
      :: flightPublications (n + 1) countdown flight)).FlownTo (n + 1) := by
  have hflight : ∀ topic ∈ flightTopics,
      topics.publish .pwmSignalOutputs ⟨n + 1, true, motor⟩ topic = topics topic := by
    intro topic htopic
    exact topics.publish_other (flightTopics_ne htopic) _
  have hcons : topics.publishAll ((.pwmSignalOutputs, ⟨n + 1, true, motor⟩)
      :: flightPublications (n + 1) countdown flight)
      = (topics.publish .pwmSignalOutputs ⟨n + 1, true, motor⟩).publishAll
        (flightPublications (n + 1) countdown flight) := rfl
  rw [hcons, flightPublications]
  by_cases hdue : n % flightStatePublishDiv = 0
  · rw [if_pos (hcountdown.mpr hdue)]
    have hlast : lastPublished (n + 1) = n + 1 := by
      rw [div_eq] at hdue
      simp only [lastPublished, div_eq]
      omega
    constructor
    · intro topic htopic
      rw [publishAll_flight, if_pos htopic, hflight topic htopic, flightCount_succ, if_pos hdue,
        h.1 topic htopic]
    · intro _ topic htopic
      simp only [publishAll_flight, if_pos htopic]
      exact ⟨_, rfl, hlast.symm, rfl⟩
  · rw [if_neg (fun hzero => hdue (hcountdown.mp hzero))]
    constructor
    · intro topic htopic
      rw [flightCount_succ, if_neg hdue]
      simp only [Topics.publishAll, List.foldl_nil, hflight topic htopic]
      exact h.1 topic htopic
    · intro hle topic htopic
      have hkept := h.2.succ hdue hle topic htopic
      simpa only [Topics.publishAll, List.foldl_nil, hflight topic htopic] using hkept

/-! ## The invariant -/

def Control.waiting (c : Control F D R E) : Bool :=
  match c.pc with
  | .semTake => true
  | _ => false

/-- The control thread has the higher priority: the coordinator takes a step
only while it is blocked. -/
def ControlFirst (s : System F D R E) : Event F → Prop
  | .control _ | .waitFailed | .terminate => True
  | .coordinator _ => s.control.waiting = true ∧ s.inputs.sem = false

def Control.quiet (c : Control F D R E) : Bool :=
  match c.pc with
  | .publish (_ :: _) => false
  | _ => true

def CoordinatorPc.readsFlight : CoordinatorPc → Bool
  | .flightGeneration | .flightCopy _ => true
  | _ => false

/-- The coordinator does not read the flight state in the middle of a publication. -/
def FlightQuiet (s : System F D R E) : Event F → Prop
  | .control _ | .waitFailed | .terminate => True
  | .coordinator _ => s.coordinator.pc.readsFlight = true → s.control.quiet = true

/-- Until motor outputs were published, a control thread that waits has not
read an input. -/
def Control.Starting (c : Control F D R E) : Prop :=
  match c.pc with
  | .loopHead => c.consumed = 0 ∧ c.currentBootTimeNs = 0 ∨ c.atTarget = false
  | .waitNext | .semTake | .latestGet => c.consumed = 0 ∧ c.currentBootTimeNs = 0
  | .tick _ => True
  | .publish pending => NoMotor pending → c.atTarget = false

def Coordinator.Flight (c : Coordinator F) (inputs : Nat) : Prop :=
  match c.pc with
  | .sequenceWait | .respond =>
      c.flightGeneration = UInt32.ofNat (flightCount inputs) ∧ FlightAt inputs c.shared
  | .semGive | .motorGeneration | .sequenceTerminated | .motorCopy _ | .flightGeneration =>
      c.flightGeneration = UInt32.ofNat (flightCount (inputs - 1)) ∧
        FlightAt (inputs - 1) c.shared
  | .flightCopy generation => generation = UInt32.ofNat (flightCount inputs)
  | .write =>
      c.flightGeneration = UInt32.ofNat (flightCount inputs) ∧
        match c.flight with
        | none => FlightAt inputs c.shared
        | some flight => FlightAt inputs flight
  | .stopped => True

def countdownAfter (n : Nat) : Nat :=
  (flightStatePublishDiv - n % flightStatePublishDiv) % flightStatePublishDiv

structure System.FlightInv (s : System F D R E) : Prop where
  countdown : s.control.loop.publishCountdown = countdownAfter s.flushed.served
  flown : s.flushed.FlownTo s.flushed.served
  coordinator : s.coordinator.Flight s.inputs.count
  responses : ∀ i outputs, s.coordinator.responses[i]? = some outputs → FlightAt (i + 1) outputs
  wake : s.control.waiting = true → s.inputs.sem = true ∨ s.coordinator.pc = .semGive ∨
    s.control.imuGeneration = s.inputs.generation
  start : s.topics.served = 0 → s.control.Starting

/-! ## Steps of the control thread -/

theorem countdownAfter_eq_zero (n : Nat) :
    countdownAfter n = 0 ↔ n % flightStatePublishDiv = 0 := by
  simp only [countdownAfter, div_eq]
  omega

theorem countdownAfter_succ (n : Nat) :
    countdownAfter (n + 1) = (loopDividerExpired (countdownAfter n) flightStatePublishDiv).2 := by
  unfold loopDividerExpired
  by_cases hpos : countdownAfter n > 0
  · rw [if_pos hpos]
    simp only [countdownAfter, div_eq] at hpos ⊢
    omega
  · rw [if_neg hpos]
    simp only [countdownAfter, div_eq] at hpos ⊢
    omega

theorem Topics.served_tick (topics : Topics F) (h : 1 ≤ (topics .pwmSignalOutputs).count)
    (p : Publication F) (n countdown : Nat) (flight : Call F) :
    (topics.publishAll ((.pwmSignalOutputs, p) :: flightPublications n countdown flight)).served
      = topics.served + 1 := by
  have hcons : topics.publishAll ((.pwmSignalOutputs, p) :: flightPublications n countdown flight)
      = (topics.publish .pwmSignalOutputs p).publishAll
        (flightPublications n countdown flight) := rfl
  have hmotor : (topics.publishAll ((.pwmSignalOutputs, p)
      :: flightPublications n countdown flight)) .pwmSignalOutputs
      = ⟨(topics .pwmSignalOutputs).count + 1, some p⟩ := by
    rw [hcons, flightPublications]
    split
    · rw [publishAll_flight, if_neg pwmSignalOutputs_notMem, Topics.publish_same]
    · exact topics.publish_same .pwmSignalOutputs p
  rw [Topics.served, hmotor, Topics.served]
  simp only
  omega

/-- The first target is ahead of the boot time. -/
theorem takeSample_busy (c : Control F D R E) (h : c.currentBootTimeNs = 0) (count : Nat)
    (sample : InertialSample F) : (c.takeSample count sample).atTarget = false := by
  have hahead : ¬ c.currentBootTimeNs ≥
      if sample.timestampUs * 1000 ≤ c.currentBootTimeNs then c.currentBootTimeNs + controlPeriodNs
      else sample.timestampUs * 1000 := by
    rw [h]
    split
    · decide
    · assumption
  simp only [Control.atTarget, Control.takeSample, hahead, decide_false]

/-- A step that changes the control thread and the semaphore only, and
publishes nothing. -/
theorem System.FlightInv.control_step {s : System F D R E} (h : s.FlightInv)
    {c : Control F D R E} {sem : Bool}
    (hflushed : System.flushed { s with control := c, inputs := { s.inputs with sem := sem } }
      = s.flushed)
    (hloop : c.loop = s.control.loop)
    (hwake : c.waiting = true → sem = true ∨ s.coordinator.pc = .semGive ∨
      c.imuGeneration = s.inputs.generation)
    (hstart : s.topics.served = 0 → c.Starting) :
    System.FlightInv { s with control := c, inputs := { s.inputs with sem := sem } } where
  countdown := by rw [hflushed, hloop]; exact h.countdown
  flown := by rw [hflushed]; exact h.flown
  coordinator := h.coordinator
  responses := h.responses
  wake := hwake
  start := hstart

theorem System.FlightInv.publish {s : System F D R E} (h : s.FlightInv)
    (hpublished : 1 ≤ (s.topics .pwmSignalOutputs).count) {topic : Topic} {p : Publication F}
    {pending : List (Topic × Publication F)} (hpc : s.control.pc = .publish ((topic, p) :: pending)) :
    System.FlightInv { s with
      topics := s.topics.publish topic p
      control := { s.control with pc := .publish pending } } := by
  have hflushed : System.flushed { s with
      topics := s.topics.publish topic p
      control := { s.control with pc := .publish pending } } = s.flushed := by
    simp only [System.flushed, hpc]
    rfl
  refine ⟨?_, ?_, h.coordinator, h.responses, nofun, ?_⟩
  · rw [hflushed]
    exact h.countdown
  · rw [hflushed]
    exact h.flown
  · intro hserved hnone
    change (s.topics.publish topic p).served = 0 at hserved
    by_cases htopic : topic = .pwmSignalOutputs
    · subst htopic
      rw [Topics.served, Topics.publish_same] at hserved
      simp only at hserved
      omega
    · rw [s.topics.served_publish_other htopic] at hserved
      have hstart := h.start hserved
      simp only [Control.Starting, hpc] at hstart
      exact hstart (List.forall_mem_cons.mpr ⟨htopic, hnone⟩)

/-! ## Steps of the coordinator -/

/-- A step that changes the coordinator and publishes no input. -/
theorem System.FlightInv.coordinator_step {s : System F D R E} (h : s.FlightInv)
    {c : Coordinator F} {sem : Bool} (hc : c.Flight s.inputs.count)
    (hresponses : ∀ i outputs, c.responses[i]? = some outputs → FlightAt (i + 1) outputs)
    (hwake : s.control.waiting = true → sem = true ∨ c.pc = .semGive ∨
      s.control.imuGeneration = s.inputs.generation) :
    System.FlightInv { s with coordinator := c, inputs := { s.inputs with sem := sem } } :=
  ⟨h.countdown, h.flown, hc, hresponses, hwake, h.start⟩

/-- While the control thread is blocked, and not about to be woken, it has read
every input. -/
theorem System.FlightInv.read {s : System F D R E} (hinv : s.Inv) (h : s.FlightInv)
    (hwaiting : s.control.waiting = true) (hsem : s.inputs.sem = false)
    (hpc : s.coordinator.pc ≠ .semGive) : s.control.consumed = s.inputs.count := by
  have hinputs := hinv.coordinator.inputs_lt
  have hcontrol := hinv.control
  cases hat : s.control.pc with
  | semTake =>
      simp only [Control.Inv, hat] at hcontrol
      obtain ⟨⟨hle, hgeneration⟩, -⟩ := hcontrol
      rcases h.wake hwaiting with hgiven | hgiving | hseen
      · cases hgiven.symm.trans hsem
      · exact absurd hgiving hpc
      · rw [hgeneration, InputStore.generation, generation_inj (by omega) hinputs] at hseen
        exact hseen
  | loopHead | waitNext | latestGet | tick | publish => simp [Control.waiting, hat] at hwaiting

/-- The coordinator does not see the initialisation's outputs: the control
thread has flown the first input when it looks. -/
theorem ControlFirst.pastInitial {s : System F D R E} (hinv : s.Inv) (h : s.FlightInv)
    {e : Event F} (hfirst : ControlFirst s e) : PastInitial s e := by
  cases e with
  | control env => trivial
  | waitFailed => trivial
  | terminate => trivial
  | coordinator request =>
      obtain ⟨hwaiting, hsem⟩ := hfirst
      intro hpc hone
      have hread := h.read hinv hwaiting hsem (by rw [hpc]; nofun)
      have hcoordinator := hinv.coordinator
      simp only [Coordinator.Inv, hpc] at hcoordinator
      have hstart := h.start (by rw [Topics.served, hone])
      cases hat : s.control.pc with
      | semTake =>
          simp only [Control.Starting, hat] at hstart
          omega
      | loopHead | waitNext | latestGet | tick | publish => simp [Control.waiting, hat] at hwaiting

/-- A control thread that is blocked has nothing left to publish. -/
theorem ControlFirst.quiet {s : System F D R E} {e : Event F} (hfirst : ControlFirst s e) :
    FlightQuiet s e := by
  cases e with
  | control env => trivial
  | waitFailed => trivial
  | terminate => trivial
  | coordinator request =>
      intro _
      have hwaiting := hfirst.1
      cases hat : s.control.pc <;> simp [Control.waiting, hat] at hwaiting
      simp only [Control.quiet, hat]

/-- With nothing pending the topics are those of the inputs served. -/
theorem System.FlightInv.flown_quiet {s : System F D R E} (h : s.FlightInv)
    (hquiet : s.control.quiet = true) : s.topics.FlownTo s.topics.served := by
  have hflown := h.flown
  have hflushed : s.flushed = s.topics := by
    cases hat : s.control.pc with
    | publish pending =>
        cases pending with
        | nil => simp only [System.flushed, hat, Topics.publishAll, List.foldl_nil]
        | cons tp pending => simp [Control.quiet, hat] at hquiet
    | loopHead | waitNext | semTake | latestGet | tick => simp only [System.flushed, hat]
  rwa [hflushed] at hflown

/-- The flight generation is new exactly where an exchange has published. -/
theorem flight_kept {n : Nat} (hpos : 1 ≤ n) (hlt : n < 2 ^ 32) {outputs : Outputs F}
    (hold : UInt32.ofNat (flightCount n) = 0 ∨
      UInt32.ofNat (flightCount n) = UInt32.ofNat (flightCount (n - 1)))
    (h : FlightAt (n - 1) outputs) :
    flightCount (n - 1) = flightCount n ∧ FlightAt n outputs := by
  obtain ⟨m, rfl⟩ : ∃ m, n = m + 1 := ⟨n - 1, by omega⟩
  rw [Nat.add_sub_cancel] at hold h ⊢
  have hcount := flightCount_succ m
  have hbound : flightCount (m + 1) < 2 ^ 32 := by
    simp only [flightCount, div_eq]
    omega
  have hsome : flightCount (m + 1) ≠ 0 := by
    simp only [flightCount, div_eq]
    omega
  rw [generation_eq_zero hbound, generation_inj hbound (by omega)] at hold
  have hsame : flightCount (m + 1) = flightCount m := hold.resolve_left hsome
  by_cases hdue : m % flightStatePublishDiv = 0
  · rw [if_pos hdue] at hcount
    omega
  · exact ⟨hsame.symm, h.succ hdue⟩

theorem coordinatorStep_flight {s t : System F D R E} {request : Request F} (hinv : s.Inv)
    (h : s.FlightInv) (hquiet : FlightQuiet s (.coordinator request))
    (hstep : coordinatorStep s request = some t) : t.FlightInv := by
  have hflight := h.coordinator
  have hposition := hinv.coordinator
  have hlt := hposition.inputs_lt
  -- a step with no bearing on the semaphore
  have hseen (hpc : s.coordinator.pc ≠ .semGive) (pc : CoordinatorPc) :
      s.control.waiting = true → s.inputs.sem = true ∨ pc = .semGive ∨
        s.control.imuGeneration = s.inputs.generation := by
    intro hwaiting
    rcases h.wake hwaiting with hgiven | hgiving | hread
    · exact Or.inl hgiven
    · exact absurd hgiving hpc
    · exact Or.inr (Or.inr hread)
  -- the topics, for a read of the flight state
  have htopics (hreads : s.coordinator.pc.readsFlight = true)
      (hserved : s.topics.served = s.inputs.count) : s.topics.FlownTo s.inputs.count :=
    hserved ▸ h.flown_quiet (hquiet hreads)
  have hgeneration (hreads : s.coordinator.pc.readsFlight = true)
      (hserved : s.topics.served = s.inputs.count) :
      (s.topics .vehicleHealth).generation = UInt32.ofNat (flightCount s.inputs.count) := by
    rw [TopicState.generation, (htopics hreads hserved).1 _ vehicleHealth_mem]
  cases coordinatorStep_cases hstep with
  | take hpc hok =>
      simp only [Coordinator.Flight, hpc] at hflight
      exact ⟨h.countdown, h.flown, hflight, h.responses, fun _ => Or.inr (Or.inl rfl), h.start⟩
  | give hpc =>
      simp only [Coordinator.Flight, hpc] at hflight
      exact h.coordinator_step hflight h.responses fun _ => Or.inl rfl
  | reject hpc hbad | exit hpc hterminate =>
      exact h.coordinator_step trivial h.responses (hseen (by simp [hpc]) _)
  | pollOld hpc hold | pollNew hpc hsome hnew | copyNone hpc hnone | copy hpc hsome
  | again hpc hgoing =>
      simp only [Coordinator.Flight, hpc] at hflight
      exact h.coordinator_step hflight h.responses (hseen (by simp [hpc]) _)
  | flightOld hpc hold =>
      simp only [Coordinator.Flight, hpc] at hflight
      simp only [Coordinator.Inv, hpc] at hposition
      rw [hgeneration (by rw [hpc]; rfl) hposition.2.1, hflight.1] at hold
      obtain ⟨hcount, hkept⟩ := flight_kept (by omega) hlt hold hflight.2
      rw [hcount] at hflight
      exact h.coordinator_step ⟨hflight.1, hkept⟩ h.responses (hseen (by simp [hpc]) _)
  | flightNew hpc hsome hnew =>
      simp only [Coordinator.Inv, hpc] at hposition
      exact h.coordinator_step (hgeneration (by rw [hpc]; rfl) hposition.2.1) h.responses
        (hseen (by simp [hpc]) _)
  | flightCopy hpc =>
      simp only [Coordinator.Flight, hpc] at hflight
      simp only [Coordinator.Inv, hpc] at hposition
      have hflown := htopics (by rw [hpc]; rfl) hposition.2.1
      exact h.coordinator_step ⟨hflight, hflown.2⟩ h.responses (hseen (by simp [hpc]) _)
  | write hpc =>
      simp only [Coordinator.Flight, hpc] at hflight
      obtain ⟨hgeneration, hwritten⟩ := hflight
      refine h.coordinator_step ⟨hgeneration, ?_⟩ h.responses (hseen (by simp [hpc]) _)
      intro hpos topic htopic
      have hmotor := flightTopics_ne htopic
      cases hlocal : s.coordinator.flight with
      | none =>
          rw [hlocal] at hwritten
          simpa only [Coordinator.written, if_neg hmotor, hlocal] using hwritten hpos topic htopic
      | some flight =>
          rw [hlocal] at hwritten
          simpa only [Coordinator.written, if_neg hmotor, hlocal] using hwritten hpos topic htopic
  | respond hpc =>
      simp only [Coordinator.Flight, hpc] at hflight
      simp only [Coordinator.Inv, hpc] at hposition
      refine h.coordinator_step hflight ?_ (hseen (by simp [hpc]) _)
      refine Guarded.history_concat (Q := fun i outputs => FlightAt (i + 1) outputs)
        h.responses ?_
      rw [← hposition.1]
      exact hflight.2

/-! ## Cycles -/

variable [CFloat F] [CFloat D] [CDouble F D] (gen : Generated D R E)

theorem System.FlightInv.fly {s : System F D R E} (h : s.FlightInv)
    (hpublished : 1 ≤ (s.topics .pwmSignalOutputs).count) (hflushed : s.flushed = s.topics)
    {c : Control F D R E} (hloop : c.loop = s.control.loop)
    (howing : s.topics.served + 1 = c.consumed) {input : CycleInput F}
    (hinput : input.atTarget = c.atTarget) :
    System.FlightInv { s with control := c.fly gen input } := by
  obtain ⟨motor, flight, hpc⟩ := c.fly_pc gen hinput
  have hcountdown := cycle_publishCountdown gen c.loop input
  rw [hinput] at hcountdown
  have hnext : System.flushed { s with control := c.fly gen input }
      = s.topics.publishAll (if c.atTarget then
        (.pwmSignalOutputs, ⟨c.consumed, true, motor⟩)
          :: flightPublications c.consumed c.loop.publishCountdown flight else []) := by
    simp only [System.flushed, hpc]
  have hold := h.countdown
  have hflown := h.flown
  rw [hflushed] at hold hflown
  have hwaiting : (c.fly gen input).waiting = false := by simp only [Control.waiting, hpc]
  have hleft : (c.fly gen input).loop.publishCountdown
      = if c.atTarget then (loopDividerExpired c.loop.publishCountdown flightStatePublishDiv).2
        else c.loop.publishCountdown := hcountdown
  cases hat : c.atTarget with
  | false =>
      have hsame : System.flushed { s with control := c.fly gen input } = s.topics := by
        rw [hnext, hat]
        rfl
      refine ⟨?_, ?_, h.coordinator, h.responses, fun hw => absurd hw (by simp [hwaiting]), ?_⟩
      · rw [hsame, hleft, hat, hloop]
        exact hold
      · rw [hsame]
        exact hflown
      · intro _
        simp only [Control.Starting, hpc]
        exact fun _ => hat
  | true =>
      rw [hat, if_pos rfl, ← howing] at hnext
      have hserved := s.topics.served_tick hpublished ⟨s.topics.served + 1, true, motor⟩
        (s.topics.served + 1) c.loop.publishCountdown flight
      refine ⟨?_, ?_, h.coordinator, h.responses, fun hw => absurd hw (by simp [hwaiting]), ?_⟩
      · rw [hnext, hserved, countdownAfter_succ, hleft, hat, if_pos rfl, hloop, hold]
      · rw [hnext, hserved]
        refine hflown.tick motor flight ?_
        rw [hloop, hold]
        exact countdownAfter_eq_zero _
      · intro _
        simp only [Control.Starting, hpc, hat]
        exact fun hnone => absurd rfl (hnone _ (List.mem_cons_self ..))

theorem controlStep_flight {s t : System F D R E} {env : CycleInput F} (hinv : s.Inv)
    (h : s.FlightInv) (hstep : controlStep gen s env = some t) : t.FlightInv := by
  have hcontrol := hinv.control
  have hstart := h.start
  have hinputs := hinv.coordinator.inputs_lt
  cases controlStep_cases gen hstep with
  | arrived hpc hat =>
      simp only [Control.Starting, hpc] at hstart
      refine h.control_step (by simp only [System.flushed, hpc]) rfl (fun h => by cases h)
        fun hzero => ?_
      rcases hstart hzero with hidle | hbusy
      · exact hidle
      · cases hat.symm.trans hbusy
  | behind hpc hat =>
      exact h.control_step (by simp only [System.flushed, hpc]) rfl (fun h => by cases h)
        fun _ => trivial
  | input hpc hsome hnew =>
      simp only [Control.Starting, hpc] at hstart
      exact h.control_step (by simp only [System.flushed, hpc]) rfl (fun h => by cases h) hstart
  | sleep hpc hold =>
      simp only [Control.Inv, hpc] at hcontrol
      simp only [Control.Starting, hpc] at hstart
      obtain ⟨hsettled, hserved⟩ := hcontrol
      refine h.control_step (by simp only [System.flushed, hpc]) rfl (fun _ => ?_) hstart
      refine Or.inr (Or.inr ?_)
      -- no input yet, or none since the one read last
      rcases hold with hnone | hseen
      · have hzero := (generation_eq_zero hinputs).mp hnone
        have hconsumed : s.control.consumed = 0 := by
          have := hsettled.1
          omega
        rw [hnone, hsettled.2, hconsumed]
        rfl
      · exact hseen.symm
  | woken hpc hsem =>
      simp only [Control.Starting, hpc] at hstart
      exact h.control_step (by simp only [System.flushed, hpc]) rfl (fun h => by cases h) hstart
  | failed hpc hnone =>
      cases (controlStep_inv gen hinv hstep).control.1
  | taken hpc hsome hnewest =>
      simp only [Control.Starting, hpc] at hstart
      refine h.control_step (by simp only [System.flushed, hpc]; rfl) rfl (fun h => by cases h)
        fun hzero => ?_
      exact Or.inr (takeSample_busy _ (hstart hzero).2 _ _)
  | fly hpc =>
      simp only [Control.Inv, hpc] at hcontrol
      obtain ⟨-, hsettled, howing⟩ := hcontrol
      rw [← Control.advance_consumed] at howing
      have hinput : (s.control.cycleInput env).atTarget = s.control.advance.atTarget := rfl
      exact h.fly gen hinv.published (by simp only [System.flushed, hpc])
        (Control.advance_loop _) howing hinput
  | flyFailed hpc =>
      simp only [Control.Inv, hpc] at hcontrol
      cases hcontrol.1
  | published hpc =>
      simp only [Control.Starting, hpc] at hstart
      refine h.control_step (by simp only [System.flushed, hpc]; rfl) rfl (fun h => by cases h)
        fun hzero => ?_
      exact Or.inr (hstart hzero fun tp htp => absurd htp (List.not_mem_nil))
  | publish hpc => exact h.publish hinv.published hpc

/-- Every step that does not look for motor outputs too early, and reads the flight state
when it is all there. -/
theorem step_flight {s t : System F D R E} {e : Event F} (hpast : PastInitial s e)
    (hquiet : FlightQuiet s e) (h : s.Inv ∧ s.FlightInv) (hstep : step gen s e = some t) :
    t.Inv ∧ t.FlightInv := by
  refine ⟨step_inv gen hpast h.1 hstep, ?_⟩
  cases e with
  | control env => exact controlStep_flight gen h.1 h.2 hstep
  | coordinator request => exact coordinatorStep_flight h.1 h.2 hquiet hstep
  | waitFailed =>
      simp only [step] at hstep
      split at hstep <;> cases hstep
      rename_i hpc
      refine h.2.coordinator_step trivial h.2.responses fun hwaiting => ?_
      rcases h.2.wake hwaiting with hgiven | hgiving | hread
      · exact Or.inl hgiven
      · cases hpc.symm.trans hgiving
      · exact Or.inr (Or.inr hread)
  | terminate =>
      cases hstep
      exact ⟨h.2.countdown, h.2.flown, h.2.coordinator, h.2.responses, h.2.wake, h.2.start⟩

/-! ## Runs -/

theorem boot_flight : (boot gen : System F D R E).FlightInv where
  countdown := by
    have hcountdown : countdownAfter 0 = 0 := by decide
    exact hcountdown.symm
  flown := by
    have hserved : (boot gen : System F D R E).flushed.served = 0 := rfl
    have hcount : flightCount 0 = 0 := by decide
    rw [hserved]
    refine ⟨?_, fun h => absurd h (Nat.not_succ_le_zero 0)⟩
    intro topic htopic
    rw [hcount]
    cases topic with
    | pwmSignalOutputs => exact absurd htopic pwmSignalOutputs_notMem
    | vehicleHealth | attitudeEstimate | attitudeCommand | controlLoopMetrics => rfl
  coordinator := by
    have hgeneration : UInt32.ofNat (flightCount 0) = 0 := by decide
    exact ⟨hgeneration.symm, fun h => absurd h (Nat.not_succ_le_zero 0)⟩
  responses := by
    intro i outputs h
    cases h
  wake := nofun
  start := fun _ => Or.inl ⟨rfl, rfl⟩

theorem run_flight {events : List (Event F)} {s : System F D R E}
    (hfirst : Guarded.Ok (step gen) ControlFirst (boot gen) events)
    (hrun : Guarded.run (step gen) (boot gen) events = some s) : s.Inv ∧ s.FlightInv := by
  refine Guarded.ok_keeps (step gen) (P := fun s => s.Inv ∧ s.FlightInv) ?_
    ⟨boot_inv gen, boot_flight gen⟩ hfirst hrun
  intro s e t hfirst h hstep
  exact step_flight gen (hfirst.pastInitial h.1 h.2) hfirst.quiet h hstep

/-- The shared flight state is from the tick that reached the target of the
exchange. -/
def OwnFlightState (outputs : Outputs F) (exchange : Nat) : Prop :=
  ∀ topic ∈ flightTopics,
    ∃ p, outputs topic = some p ∧ p.input = exchange ∧ p.atTarget = true

/-- The first of every eight responses has the flight state of its own exchange,
and no other has. -/
theorem response_has_own_flight_state_iff {events : List (Event F)} {s : System F D R E}
    (hfirst : Guarded.Ok (step gen) ControlFirst (boot gen) events)
    (hrun : Guarded.run (step gen) (boot gen) events = some s) {i : Nat} {outputs : Outputs F}
    (hresponse : s.coordinator.responses[i]? = some outputs) :
    OwnFlightState outputs (i + 1) ↔ i % flightStatePublishDiv = 0 := by
  have hflight := (run_flight gen hfirst hrun).2.responses i outputs hresponse (Nat.le_add_left 1 i)
  rw [← lastPublished_eq_iff]
  constructor
  · intro hown
    obtain ⟨p, hp, hinput, -⟩ := hflight .vehicleHealth vehicleHealth_mem
    obtain ⟨q, hq, hexchange, -⟩ := hown .vehicleHealth vehicleHealth_mem
    obtain rfl := Option.some.inj (hp.symm.trans hq)
    exact hinput.symm.trans hexchange
  · intro heq topic htopic
    obtain ⟨p, hp, hinput, hat⟩ := hflight topic htopic
    exact ⟨p, hp, hinput.trans heq, hat⟩

end Flight

/-! ## Bench runs -/

instance {F D R E : Type} (s : System F D R E) : (e : Event F) → Decidable (ControlFirst s e)
  | .control _ | .waitFailed | .terminate => isTrue trivial
  | .coordinator _ => inferInstanceAs (Decidable (_ ∧ _))

instance {F D R E : Type} (s : System F D R E) : (e : Event F) → Decidable (FlightQuiet s e)
  | .control _ | .waitFailed | .terminate => isTrue trivial
  | .coordinator _ => inferInstanceAs (Decidable (_ → _))

/-- A second exchange, of one tick again. -/
def benchTwoExchanges : List (Event Rat) :=
  benchExchange ++ (benchCoordinator 1250 2 ++ benchControl 9 ++ benchCoordinator 1250 5)

theorem response_has_own_flight_state_iff_bench :
    ∃ s, Guarded.run (step benchGenerated) (boot benchGenerated) benchExchange = some s ∧
      ∃ outputs, s.coordinator.responses[0]? = some outputs ∧
        (OwnFlightState outputs (0 + 1) ↔ 0 % flightStatePublishDiv = 0) := by
  obtain ⟨s, hrun, hanswered⟩ : ∃ s, Guarded.run (step benchGenerated) (boot benchGenerated)
      benchExchange = some s ∧ s.coordinator.responses.length = 1 :=
    Guarded.run_any (step benchGenerated) (by decide +kernel)
  have hlt : 0 < s.coordinator.responses.length := by omega
  have hresponse := List.getElem?_eq_getElem hlt
  have hfirst : Guarded.Ok (step benchGenerated) ControlFirst (boot benchGenerated)
      benchExchange := by
    decide +kernel
  exact ⟨s, hrun, _, hresponse,
    response_has_own_flight_state_iff benchGenerated hfirst hrun hresponse⟩

/-- The second exchange is answered with the flight state of the first. -/
theorem second_response_stale :
    ¬ ∀ (events : List (Event Rat)) (s : System Rat Rat Unit Unit) (i : Nat) (outputs : Outputs Rat),
      Guarded.Ok (step benchGenerated) ControlFirst (boot benchGenerated) events →
      Guarded.run (step benchGenerated) (boot benchGenerated) events = some s →
      s.coordinator.responses[i]? = some outputs → OwnFlightState outputs (i + 1) := by
  intro h
  have hfirst : Guarded.Ok (step benchGenerated) ControlFirst (boot benchGenerated)
      benchTwoExchanges := by
    decide +kernel
  obtain ⟨s, hrun, hanswered⟩ : ∃ s, Guarded.run (step benchGenerated) (boot benchGenerated)
      benchTwoExchanges = some s ∧
      (s.coordinator.responses[1]?.bind fun outputs =>
        (outputs .vehicleHealth).map (·.input)) = some 1 :=
    Guarded.run_any (step benchGenerated) (by decide +kernel)
  cases hresponse : s.coordinator.responses[1]? with
  | none => simp [hresponse] at hanswered
  | some outputs =>
      obtain ⟨p, hp, hinput, -⟩ := h _ s 1 outputs hfirst hrun hresponse .vehicleHealth
        vehicleHealth_mem
      simp [hresponse, hp, hinput] at hanswered

end Rdd2.Lockstep
