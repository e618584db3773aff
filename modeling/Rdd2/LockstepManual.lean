import Rdd2.LockstepBarrier
import Rdd2.LockstepRc

/-!
# Both halves of a lockstep request

A request of the lockstep host has a manual control and an inertial sample. The coordinator
reports the one as input events, each of which runs `rc_input_cb` to its end, before it
publishes the other; the control thread wakes for the sample and takes a snapshot of the
RC channels before every cycle. Here are the two threads with all of these steps.

Nothing but the order of the exchange keeps the callback and the snapshot apart, and
`rdd2_rc_input_latest_get` by itself can return a torn snapshot. In lockstep it cannot:
where the motor outputs are a barrier, nobody writes while a cycle is owed, and every cycle
flies the message and the sample of one request (`lockstep_flies_own_request`).
-/

namespace Rdd2.Lockstep

open Delimited

/-! ## The threads -/

/-- What the host asks for; `manual` is `none` if it does not decode. -/
structure Ask (F : Type) where
  manual : Option ManualControl
  sample : InertialSample F

/-- The threads with the RC input between them. `report` are the events of the request in
hand that are not reported yet, and its sample; `linkQuality` is the local of the control
thread. No step reads the requests taken and the cycles flown, by their input. -/
structure Joint (F D R E : Type) where
  sys : System F D R E
  rc : RcInput
  report : Option (List InputEvent × InertialSample F)
  linkQuality : UInt8
  requests : List (ManualControl × InertialSample F)
  flown : List (Nat × CycleInput F)

inductive JointEvent (F : Type) where
  /-- With what a cycle reads from elsewhere, and the variables of the snapshot. -/
  | control (env : CycleInput F)
  /-- With what the host asks for next, and `k_uptime_get`. -/
  | coordinator (ask : Ask F) (uptime : Int)
  | waitFailed
  | terminate

section Steps

variable {F D R E : Type}

/-- `rdd2_lockstep_handle_manual_control` with its events, and
`rdd2_lockstep_handle_input_blob` behind it. -/
def Joint.reportStep (j : Joint F D R E) (events : List InputEvent) (sample : InertialSample F)
    (uptime : Int) : Option (Joint F D R E) :=
  if j.rc.writer = .idle then
    match events with
    | evt :: later =>
        (rcStep j.rc (.event evt)).map fun rc => { j with rc := rc, report := some (later, sample) }
    | [] =>
        (coordinatorStep j.sys ⟨true, sample⟩).map fun sys => { j with sys := sys, report := none }
  else (rcStep j.rc (.write uptime)).map fun rc => { j with rc := rc }

/-- A step of the coordinator; `ready` is that of the RC device. -/
def Joint.coordinate (ready : Bool) (j : Joint F D R E) (ask : Ask F) (uptime : Int) :
    Option (Joint F D R E) :=
  if j.sys.coordinator.pc = .sequenceWait then
    match j.report, ask.manual with
    | some (events, sample), _ => j.reportStep events sample uptime
    | none, some manual => some { j with
        report := some ((handleManualControl ready (some manual)).2, ask.sample)
        requests := j.requests ++ [(manual, ask.sample)] }
    | none, none =>
        (coordinatorStep j.sys ⟨false, ask.sample⟩).map fun sys => { j with sys := sys }
  else (coordinatorStep j.sys ⟨false, ask.sample⟩).map fun sys => { j with sys := sys }

def Joint.snapshotInput (j : Joint F D R E) (env : CycleInput F) : CycleInput F :=
  { env with
    rcLinkQuality := j.linkQuality
    rc := fun k => j.rc.reader.dest (.channel k)
    rcValid := j.rc.reader.dest .valid
    rcStampMs := j.rc.reader.dest .stampMs }

/-- The coordinator does not look for motor outputs while there are only those of the
initialisation. -/
def JointPast (j : Joint F D R E) : JointEvent F → Prop
  | .control _ | .waitFailed | .terminate => True
  | .coordinator _ _ =>
      j.sys.coordinator.pc = .motorGeneration → (j.sys.topics .pwmSignalOutputs).count ≠ 1

instance (j : Joint F D R E) : (e : JointEvent F) → Decidable (JointPast j e)
  | .control _ | .waitFailed | .terminate => isTrue trivial
  | .coordinator _ _ => inferInstanceAs (Decidable (_ → _))

variable [CFloat F] [CFloat D] [CDouble F D] (gen : Generated D R E)

/-- `rdd2_control_input_wait` behind the IMU, and the cycle. -/
def Joint.flyStep (j : Joint F D R E) (imuOk : Bool) (env : CycleInput F) :
    Option (Joint F D R E) :=
  match j.rc.reader.pc with
  | .idle =>
      (rcStep j.rc (.call (rcSample env.rc env.rcValid env.rcStampMs))).map fun rc =>
        { j with rc := rc, linkQuality := UInt8.ofInt j.rc.linkQuality }
  | .returned =>
      let input := j.snapshotInput env
      let flown :=
        if imuOk then j.sys.control.cycleInput input else j.sys.control.failedInput input
      (controlStep gen j.sys input).map fun sys =>
        { j with
          sys := sys
          rc := { j.rc with reader := { j.rc.reader with pc := .idle } }
          flown := j.flown ++ [(j.sys.control.consumed, flown)] }
  | _ => (rcStep j.rc .read).map fun rc => { j with rc := rc }

def Joint.control (j : Joint F D R E) (env : CycleInput F) : Option (Joint F D R E) :=
  match j.sys.control.pc with
  | .tick imuOk => j.flyStep gen imuOk env
  | _ => (controlStep gen j.sys env).map fun sys => { j with sys := sys }

def jointStep (ready : Bool) (j : Joint F D R E) : JointEvent F → Option (Joint F D R E)
  | .control env => j.control gen env
  | .coordinator ask uptime => j.coordinate ready ask uptime
  | .waitFailed =>
      if j.report.isNone then (step gen j.sys .waitFailed).map fun sys => { j with sys := sys }
      else none
  | .terminate => (step gen j.sys .terminate).map fun sys => { j with sys := sys }

/-- `main` before its loop, and the coordinator about to wait. -/
def jointBoot (rcPubReady : Bool) : Joint F D R E where
  sys := boot gen
  rc := rcInputInit rcPubReady
  report := none
  linkQuality := 0
  requests := []
  flown := []

end Steps

/-! ## What is commanded -/

def heard (rc : RcInput) : (RcChannels × Bool) × Int :=
  ((rc.staging, rc.stagingValid), rc.linkQuality)

def hear (p : (RcChannels × Bool) × Int) (evt : InputEvent) : (RcChannels × Bool) × Int :=
  (stageEvent p.1 evt,
    if evt.type = inputEvMsc ∧ evt.code = rcInputEventLinkQuality then evt.value else p.2)

theorem heard_stage (rc : RcInput) (evt : InputEvent) :
    heard (rcInputStage rc evt) = hear (heard rc) evt := by
  refine Prod.ext (rcInputStage_staged rc evt) ?_
  unfold heard hear rcInputStage
  by_cases habs : evt.type = inputEvAbs ∧ 1 ≤ evt.code ∧ evt.code ≤ 16
  · rw [dif_pos habs, if_neg (by rw [habs.1]; simp [inputEvAbs, inputEvMsc])]
  · rw [dif_neg habs]
    split
    · rfl
    · split <;> rfl

/-- What the last request commands. A device that is not ready hears of none. -/
def commanded {F : Type} (ready : Bool) (requests : List (ManualControl × InertialSample F)) :
    (RcChannels × Bool) × Int :=
  match requests.getLast? with
  | none => ((rcChannelsSetDefaults, false), 0)
  | some (manual, _) =>
      if ready then ((manualChannels manual, manual.valid), if manual.valid then 100 else 0)
      else ((rcChannelsSetDefaults, false), 0)

theorem foldl_hear (events : List InputEvent) (p : (RcChannels × Bool) × Int) :
    (events.foldl hear p).1 = events.foldl stageEvent p.1 := by
  induction events generalizing p with
  | nil => rfl
  | cons evt events ih => exact ih _

theorem foldl_hear_manual {F : Type} (requests : List (ManualControl × InertialSample F))
    (manual : ManualControl) (sample : InertialSample F) (p : (RcChannels × Bool) × Int) :
    (handleManualControl true (some manual)).2.foldl hear p
      = commanded true (requests ++ [(manual, sample)]) := by
  rw [commanded, List.getLast?_concat]
  refine Prod.ext ?_ ?_
  · rw [foldl_hear]
    exact foldl_report ..
  · show ((lockstepReportRcInput true _ _ _).foldl hear p).2 = _
    rw [lockstepReportRcInput, if_pos rfl, List.foldl_append]
    rfl

/-! ## The RC input at rest -/

/-- What is staged is in `g_rc_latest`. -/
def Shown (rc : RcInput) : Prop :=
  ∃ stampMs, rc.latest.mem = rcSample rc.staging rc.stagingValid stampMs

/-- A request that is being reported: the events left make up what it commands, the last
of them and no other is a sync event, and when it has been handled all is published. -/
structure Reporting {F : Type} (ready : Bool) (rc : RcInput)
    (requests : List (ManualControl × InertialSample F)) (events : List InputEvent) : Prop where
  left : events.foldl hear (heard rc) = commanded ready requests
  block : events ≠ [] → IsBlock (fun evt : InputEvent => evt.sync = true) events
  busy : rc.writer ≠ .idle → events = []
  shown : events = [] → rc.writer = .idle ∨ rc.writer = .publish → Shown rc

theorem rcInputWrite_shown {rc rc' : RcInput} {uptime : Int} (h : RcWriterInv rc)
    (hshown : rc.writer = .publish → Shown rc) (hstep : rcInputWrite rc uptime = some rc') :
    heard rc' = heard rc ∧ (rc'.writer = .idle ∨ rc'.writer = .publish → Shown rc') := by
  have hfacts := h.facts
  unfold RcWriterFacts at hfacts
  cases rcInputWrite_cases hstep with
  | enter hw =>
      exact ⟨rfl, fun h => by simp at h⟩
  | copyChannel hw =>
      refine ⟨rfl, fun h => ?_⟩
      dsimp only at h
      split at h <;> simp at h
  | setValid hw =>
      exact ⟨rfl, fun h => by simp at h⟩
  | setStamp hw =>
      exact ⟨rfl, fun h => by simp at h⟩
  | @leave stampMs hw =>
      simp only [hw] at hfacts
      exact ⟨rfl, fun _ => ⟨stampMs, hfacts.2⟩⟩
  | publish hw | unready hw => exact ⟨rfl, fun _ => hshown hw⟩

theorem IsBlock_cons {A : Type} {ends : A → Prop} {a : A} {later : List A}
    (h : IsBlock ends (a :: later)) :
    (ends a → later = []) ∧ (later = [] → ends a) ∧ (later ≠ [] → IsBlock ends later) := by
  obtain ⟨body, last, heq, hlast, hbody⟩ := h
  cases body with
  | nil =>
      cases heq
      exact ⟨fun _ => rfl, fun _ => hlast, fun hne => absurd rfl hne⟩
  | cons b body =>
      obtain ⟨rfl, rfl⟩ := List.cons.inj heq
      refine ⟨fun ha => absurd ha (hbody a List.mem_cons_self), fun hnil => ?_, fun _ => ?_⟩
      · exact absurd hnil (List.concat_ne_nil last body)
      · exact ⟨body, last, rfl, hlast, fun c hc => hbody c (List.mem_cons_of_mem _ hc)⟩

theorem Reporting.event {F : Type} {ready : Bool} {rc rc' : RcInput}
    {requests : List (ManualControl × InertialSample F)} {evt : InputEvent}
    {later : List InputEvent} (h : Reporting ready rc requests (evt :: later))
    (hstep : rcStep rc (.event evt) = some rc') : Reporting ready rc' requests later := by
  obtain ⟨hends, hlast, hblock⟩ := IsBlock_cons (h.block (List.cons_ne_nil _ _))
  simp only [rcStep] at hstep
  split at hstep
  · cases hstep
    refine ⟨?_, hblock, fun hbusy => ?_, fun hnil => ?_⟩
    · rw [← h.left, List.foldl_cons, ← heard_stage]
      rfl
    · by_contra hne
      cases hsync : evt.sync with
      | true => exact hne (hends hsync)
      | false => exact hbusy (by simp [hsync])
    · intro hdone
      rw [show evt.sync = true from hlast hnil] at hdone
      simp at hdone
  · cases hstep

theorem Reporting.write {F : Type} {ready : Bool} {rc rc' : RcInput}
    {requests : List (ManualControl × InertialSample F)} {events : List InputEvent}
    (h : Reporting ready rc requests events) (hwriter : RcWriterInv rc) {uptime : Int}
    (hbusy : rc.writer ≠ .idle) (hstep : rcStep rc (.write uptime) = some rc') :
    Reporting ready rc' requests events := by
  have hnil := h.busy hbusy
  obtain ⟨hheard, hshown⟩ :=
    rcInputWrite_shown hwriter (fun hpublish => h.shown hnil (Or.inr hpublish)) hstep
  refine ⟨?_, h.block, fun _ => hnil, fun _ => hshown⟩
  rw [hheard]
  exact h.left

/-! ## The snapshot -/

def Snapshot (rc : RcInput) : Prop :=
  match rc.reader.pc with
  | .idle | .head => True
  | .copyChannel _ | .copyStamp | .copyValid | .tail =>
      rc.reader.seqStart = rc.seq ∧
        ∀ c, rcCopied rc.reader.pc c → rc.reader.dest c = rc.latest.mem c
  | .test => rc.reader.seqStart = rc.reader.seqEnd ∧ rc.reader.dest = rc.latest.mem
  | .returned => rc.reader.dest = rc.latest.mem

theorem update_copied {mem dest : RcSample} {pc pc' : RcReaderPc} {c : RcCell}
    (h : ∀ c', rcCopied pc c' → dest c' = mem c')
    (hnext : ∀ c', rcCopied pc' c' → c' = c ∨ rcCopied pc c') :
    ∀ c', rcCopied pc' c' → (Function.update dest c (mem c) : RcSample) c' = mem c' := by
  intro c' hc'
  by_cases heq : c' = c
  · subst heq
    exact Function.update_self ..
  · rw [Function.update_of_ne heq]
    exact h c' ((hnext c' hc').resolve_left heq)

theorem writer_seq_even {rc : RcInput} (h : RcWriterInv rc) (hidle : rc.writer = .idle) :
    rc.seq &&& 1 = 0 := by
  have hfacts := h.facts
  rw [RcWriterFacts, hidle] at hfacts
  rw [h.seq_eq, ← UInt32.toNat_inj]
  have hand : (UInt32.ofNat rc.latest.incs &&& 1).toNat = (UInt32.ofNat rc.latest.incs).toNat % 2 := by
    rw [UInt32.toNat_and]
    exact Nat.and_one_is_mod _
  rw [hand, UInt32.toNat_ofNat']
  show rc.latest.incs % 2 ^ 32 % 2 = 0
  dsimp only at hfacts
  omega

theorem Snapshot.read {rc rc' : RcInput} (h : Snapshot rc) (hwriter : RcWriterInv rc)
    (hidle : rc.writer = .idle) (hstep : rcInputLatestGet rc = some rc') : Snapshot rc' := by
  unfold Snapshot at h
  cases rcInputLatestGet_cases hstep with
  | odd hpc hodd => exact absurd (writer_seq_even hwriter hidle) hodd
  | even hpc heven =>
      refine ⟨rfl, fun c hc => ?_⟩
      cases c with
      | channel j => exact absurd hc (Fin.not_lt_zero j)
      | valid | stampMs => exact absurd hc id
  | @copyChannel k hpc =>
      simp only [hpc] at h
      by_cases hk : k.val + 1 < 16
      · simp only [Snapshot, dif_pos hk]
        refine ⟨h.1, update_copied h.2 fun c hc => ?_⟩
        cases c with
        | channel j => exact rcCopied_channel (Nat.le_of_lt_succ hc)
        | valid | stampMs => exact absurd hc id
      · simp only [Snapshot, dif_neg hk]
        refine ⟨h.1, update_copied h.2 fun c hc => ?_⟩
        cases c with
        | channel j =>
            have hj : j ≤ k := by
              rw [Fin.le_def]
              omega
            exact rcCopied_channel hj
        | valid | stampMs => exact absurd hc id
  | copyStamp hpc =>
      simp only [hpc] at h
      refine ⟨h.1, update_copied h.2 fun c hc => ?_⟩
      cases c with
      | channel j => exact Or.inr trivial
      | valid => exact absurd hc id
      | stampMs => exact Or.inl rfl
  | copyValid hpc =>
      simp only [hpc] at h
      refine ⟨h.1, update_copied h.2 fun c _ => ?_⟩
      cases c with
      | channel j => exact Or.inr trivial
      | valid => exact Or.inl rfl
      | stampMs => exact Or.inr trivial
  | tail hpc =>
      simp only [hpc] at h
      exact ⟨h.1, funext fun c => h.2 c trivial⟩
  | again hpc hne =>
      simp only [hpc] at h
      exact absurd h.1 hne
  | done hpc heq =>
      simp only [hpc] at h
      exact h.2

/-! ## Steps of the threads of the exchange -/

section Runs

variable {F D R E : Type}

theorem coordinatorStep_inputs {s t : System F D R E} {request : Request F}
    (hpc : s.coordinator.pc ≠ .sequenceWait) (h : coordinatorStep s request = some t) :
    t.control = s.control ∧ t.inputs.count = s.inputs.count ∧
      t.inputs.newest = s.inputs.newest ∧ s.coordinator.pc ≠ .stopped := by
  cases coordinatorStep_cases h with
  | take hwait hok => exact absurd hwait hpc
  | reject hwait hbad => exact absurd hwait hpc
  | _ =>
      refine ⟨rfl, rfl, rfl, fun hstopped => ?_⟩
      simp only [coordinatorStep, hstopped] at h
      cases h

theorem coordinatorStep_take {s t : System F D R E} {request : Request F}
    (hpc : s.coordinator.pc = .sequenceWait) (h : coordinatorStep s request = some t) :
    t.control = s.control ∧
      ((t.inputs.count = s.inputs.count + 1 ∧ t.inputs.newest = some request.sample ∧
          request.manualOk = true) ∨
        (t.inputs = s.inputs ∧ t.topics = s.topics ∧ t.coordinator.pc = .stopped)) := by
  simp only [coordinatorStep, hpc] at h
  split at h
  · rename_i hok
    cases h
    rw [Bool.and_eq_true] at hok
    exact ⟨rfl, Or.inl ⟨rfl, rfl, hok.1⟩⟩
  · cases h
    exact ⟨rfl, Or.inr ⟨rfl, rfl, rfl⟩⟩

/-! ## The invariant -/

def Joint.Requested (j : Joint F D R E) (n : Nat) (request : ManualControl × InertialSample F) :
    Prop :=
  1 ≤ n ∧ j.requests[n - 1]? = some request

/-- The cycle has all of the request, and nothing of another. -/
structure Flies (ready : Bool) (request : ManualControl × InertialSample F)
    (input : CycleInput F) : Prop where
  channels : input.rc = if ready then manualChannels request.1 else rcChannelsSetDefaults
  valid : input.rcValid = (ready && request.1.valid)
  quality : input.rcLinkQuality = if ready && request.1.valid then 100 else 0
  imuOk : input.imuOk = true
  gyro : input.gyro = request.2.gyro
  accel : input.accel = request.2.accel

def Joint.AtWork (ready : Bool) (j : Joint F D R E) : Prop :=
  match j.report with
  | some (events, sample) =>
      j.sys.coordinator.pc = .sequenceWait ∧ Reporting ready j.rc j.requests events ∧
        ∃ manual, j.requests.getLast? = some (manual, sample)
  | none =>
      j.rc.writer = .idle ∧ heard j.rc = commanded ready j.requests ∧ Shown j.rc

/-- The snapshot is taken only for a cycle that is owed. -/
def Joint.Reading (j : Joint F D R E) : Prop :=
  match j.sys.control.pc with
  | .tick _ =>
      Snapshot j.rc ∧ (j.rc.reader.pc ≠ .idle → j.linkQuality = UInt8.ofInt j.rc.linkQuality)
  | _ => j.rc.reader.pc = .idle

/-- The coordinator has not stopped, or only once it had taken an input that was valid. -/
def System.Counting (s : System F D R E) : Prop :=
  s.coordinator.pc ≠ .stopped ∨ s.topics.served < s.inputs.count

structure Joint.Inv (ready : Bool) (j : Joint F D R E) : Prop where
  sys : j.sys.Inv
  writer : RcWriterInv j.rc
  atWork : j.AtWork ready
  reading : j.Reading
  count : j.sys.Counting → j.requests.length = j.sys.inputs.count + j.report.toList.length
  newest : ∀ sample, j.sys.inputs.newest = some sample →
    ∃ manual, j.Requested j.sys.inputs.count (manual, sample)
  held : 1 ≤ j.sys.control.consumed → ∃ request, j.Requested j.sys.control.consumed request ∧
    j.sys.control.gyro = request.2.gyro ∧ j.sys.control.accel = request.2.accel
  flown : ∀ c ∈ j.flown, ∃ request, j.Requested c.1 request ∧ Flies ready request c.2

theorem Joint.Reading.of_idle {j : Joint F D R E} (h : j.rc.reader.pc = .idle) : j.Reading := by
  unfold Joint.Reading
  split
  · refine ⟨?_, fun hbusy => absurd h hbusy⟩
    rw [Snapshot, h]
    trivial
  · exact h

theorem System.counting_of_wait {s : System F D R E} (hwait : s.coordinator.pc = .sequenceWait) :
    s.Counting := by
  refine Or.inl fun hstopped => ?_
  cases hwait.symm.trans hstopped

/-- A coordinator that stops in its wait owes nothing. -/
theorem System.Inv.not_counting {s t : System F D R E} (h : s.Inv)
    (hwait : s.coordinator.pc = .sequenceWait) (hstopped : t.coordinator.pc = .stopped)
    (hinputs : t.inputs = s.inputs) (htopics : t.topics = s.topics) : ¬ t.Counting := by
  have hcoordinator := h.coordinator
  simp only [Coordinator.Inv, hwait] at hcoordinator
  rintro (hgoing | hless)
  · exact hgoing hstopped
  · rw [hinputs, htopics] at hless
    omega

/-- The coordinator takes inputs only while no cycle is owed. -/
theorem System.Inv.not_tick {s : System F D R E} (h : s.Inv) {imuOk : Bool}
    (hpc : s.control.pc = .tick imuOk) :
    s.control.consumed = s.inputs.count ∧ imuOk = true ∧ s.coordinator.pc ≠ .sequenceWait ∧
      s.topics.served < s.inputs.count := by
  have hcontrol := h.control
  simp only [Control.Inv, hpc, Control.Settled] at hcontrol
  obtain ⟨hok, ⟨hle, -⟩, howing⟩ := hcontrol
  have hwaits := h.coordinator.inputs_le
  have hcoordinator := h.coordinator
  refine ⟨by omega, hok, fun hat => ?_, by omega⟩
  simp only [Coordinator.Inv, hat] at hcoordinator
  omega

/-- While the coordinator waits, nobody takes a snapshot. -/
theorem Joint.Inv.reader_idle {ready : Bool} {j : Joint F D R E} (h : j.Inv ready)
    (hwait : j.sys.coordinator.pc = .sequenceWait) : j.rc.reader.pc = .idle := by
  have hreading := h.reading
  unfold Joint.Reading at hreading
  split at hreading
  · rename_i hpc
    exact absurd hwait (h.sys.not_tick hpc).2.2.1
  · exact hreading

theorem jointRequested_append {j : Joint F D R E} {n : Nat}
    {request : ManualControl × InertialSample F} (h : j.Requested n request)
    (more : List (ManualControl × InertialSample F)) :
    1 ≤ n ∧ (j.requests ++ more)[n - 1]? = some request := by
  refine ⟨h.1, ?_⟩
  rw [List.getElem?_append_left (List.getElem?_eq_some_iff.mp h.2).1]
  exact h.2

/-! ## The coordinator -/

theorem Joint.Inv.reportStep {ready : Bool} {j t : Joint F D R E} (h : j.Inv ready)
    {events : List InputEvent} {sample : InertialSample F} (hreport : j.report = some (events, sample))
    {uptime : Int} (hstep : j.reportStep events sample uptime = some t) : t.Inv ready := by
  have hwork := h.atWork
  rw [Joint.AtWork, hreport] at hwork
  obtain ⟨hwait, hreporting, hlast⟩ := hwork
  have hidle := h.reader_idle hwait
  have hfacts : RcWriterInv j.rc ∧ RcReaderFacts j.rc := by
    refine ⟨h.writer, ?_⟩
    rw [RcReaderFacts, hidle]
    trivial
  have hcount := h.count (System.counting_of_wait hwait)
  rw [hreport] at hcount
  unfold Joint.reportStep at hstep
  split at hstep
  · rename_i hfree
    cases events with
    | nil =>
        obtain ⟨sys, hsys, rfl⟩ := Option.map_eq_some_iff.mp hstep
        have hinv : sys.Inv :=
          coordinatorStep_inv h.sys (fun hpoll => by rw [hwait] at hpoll; cases hpoll) hsys
        obtain ⟨hcontrol, hinput⟩ := coordinatorStep_take hwait hsys
        have hrest : j.rc.writer = .idle ∧ heard j.rc = commanded ready j.requests ∧ Shown j.rc :=
          ⟨hfree, hreporting.left, hreporting.shown rfl (Or.inl hfree)⟩
        refine ⟨hinv, h.writer, hrest, .of_idle hidle, ?_, ?_, ?_, h.flown⟩
        · intro hgoing
          rcases hinput with ⟨hnext, -, -⟩ | ⟨hsame, htopics, hstopped⟩
          · show j.requests.length = sys.inputs.count + 0
            rw [hnext, hcount]
            rfl
          · exact absurd hgoing (h.sys.not_counting hwait hstopped hsame htopics)
        · intro newest hnewest
          rcases hinput with ⟨hnext, htaken, -⟩ | ⟨hsame, -⟩
          · obtain ⟨manual, hmanual⟩ := hlast
            have hthis : sample = newest := Option.some.inj (htaken.symm.trans hnewest)
            subst hthis
            refine ⟨manual, ?_, ?_⟩
            · show 1 ≤ sys.inputs.count
              omega
            · rw [List.getLast?_eq_getElem?, hcount] at hmanual
              show j.requests[sys.inputs.count - 1]? = _
              rw [hnext]
              exact hmanual
          · show ∃ manual, 1 ≤ sys.inputs.count ∧ _
            rw [hsame] at hnewest ⊢
            exact h.newest newest hnewest
        · show 1 ≤ sys.control.consumed → _
          rw [hcontrol]
          exact h.held
    | cons evt later =>
        obtain ⟨rc, hrc, rfl⟩ := Option.map_eq_some_iff.mp hstep
        have hkept := (rcStep_inv j.rc (.event evt) rc trivial hfacts hrc).1
        have hreader : rc.reader = j.rc.reader := by
          simp only [rcStep, if_pos hfree, Option.some.injEq] at hrc
          rw [← hrc]
          exact (rcInputStage_keeps j.rc evt).2.2
        refine ⟨h.sys, hkept, ⟨hwait, hreporting.event hrc, hlast⟩, .of_idle ?_, ?_, h.newest, h.held,
          h.flown⟩
        · show rc.reader.pc = .idle
          rw [hreader]
          exact hidle
        · exact fun _ => hcount
  · rename_i hbusy
    obtain ⟨rc, hrc, rfl⟩ := Option.map_eq_some_iff.mp hstep
    obtain ⟨hkept, -, hreader⟩ := rcInputWrite_spec hrc h.writer
    refine ⟨h.sys, hkept, ?_, .of_idle ?_, h.count, h.newest, h.held, h.flown⟩
    · rw [Joint.AtWork, hreport]
      exact ⟨hwait, hreporting.write h.writer hbusy hrc, hlast⟩
    · show rc.reader.pc = .idle
      rw [hreader]
      exact hidle

theorem Joint.Inv.coordinate {ready : Bool} {j t : Joint F D R E} (h : j.Inv ready) {ask : Ask F}
    {uptime : Int} (hpast : JointPast j (.coordinator ask uptime))
    (hstep : j.coordinate ready ask uptime = some t) : t.Inv ready := by
  unfold Joint.coordinate at hstep
  split at hstep
  · rename_i hwait
    split at hstep
    · rename_i events sample hreport
      exact h.reportStep hreport hstep
    · rename_i manual hreport hmanual
      cases hstep
      have hwork := h.atWork
      rw [Joint.AtWork, hreport] at hwork
      obtain ⟨hidle, hheard, hshown⟩ := hwork
      have hcount := h.count (System.counting_of_wait hwait)
      rw [hreport] at hcount
      refine ⟨h.sys, h.writer, ⟨hwait, ?_, manual, List.getLast?_concat⟩,
        .of_idle (h.reader_idle hwait), ?_, ?_, ?_, ?_⟩
      · cases ready with
        | true =>
            exact ⟨foldl_hear_manual .., fun _ => report_isBlock .., fun hbusy => absurd hidle hbusy,
              fun _ _ => hshown⟩
        | false =>
            refine ⟨?_, fun hne => absurd rfl hne, fun _ => rfl, fun _ _ => hshown⟩
            show heard j.rc = _
            rw [hheard, commanded, commanded, List.getLast?_concat]
            split <;> rfl
      · intro _
        rw [List.length_append, hcount]
        rfl
      · intro sample hsample
        obtain ⟨manual', hrequest⟩ := h.newest sample hsample
        exact ⟨manual', jointRequested_append hrequest _⟩
      · intro hsome
        obtain ⟨request, hrequest, hsame⟩ := h.held hsome
        exact ⟨request, jointRequested_append hrequest _, hsame⟩
      · intro c hc
        obtain ⟨request, hrequest, hflies⟩ := h.flown c hc
        exact ⟨request, jointRequested_append hrequest _, hflies⟩
    · rename_i hreport hnone
      obtain ⟨sys, hsys, rfl⟩ := Option.map_eq_some_iff.mp hstep
      have hinv : sys.Inv :=
        coordinatorStep_inv h.sys (fun hpoll => by rw [hwait] at hpoll; cases hpoll) hsys
      obtain ⟨hcontrol, hinput⟩ := coordinatorStep_take hwait hsys
      obtain ⟨hsame, htopics, hstopped⟩ : sys.inputs = j.sys.inputs ∧
          sys.topics = j.sys.topics ∧ sys.coordinator.pc = .stopped := by
        rcases hinput with ⟨-, -, hok⟩ | hstop
        · cases hok
        · exact hstop
      have hwork := h.atWork
      rw [Joint.AtWork, hreport] at hwork
      refine ⟨hinv, h.writer, ?_, .of_idle (h.reader_idle hwait), ?_, ?_, ?_, h.flown⟩
      · rw [Joint.AtWork, hreport]
        exact hwork
      · exact fun hgoing => absurd hgoing (h.sys.not_counting hwait hstopped hsame htopics)
      · show ∀ sample, sys.inputs.newest = some sample → ∃ manual, 1 ≤ sys.inputs.count ∧ _
        rw [hsame]
        exact h.newest
      · show 1 ≤ sys.control.consumed → _
        rw [hcontrol]
        exact h.held
  · rename_i hwait
    obtain ⟨sys, hsys, rfl⟩ := Option.map_eq_some_iff.mp hstep
    have hinv : sys.Inv := coordinatorStep_inv h.sys hpast hsys
    obtain ⟨hcontrol, hcount, hnewest, hgoing⟩ := coordinatorStep_inputs hwait hsys
    have hwork := h.atWork
    have hreport : j.report = none := by
      cases hreport : j.report with
      | none => rfl
      | some report =>
          rw [Joint.AtWork, hreport] at hwork
          exact absurd hwork.1 hwait
    refine ⟨hinv, h.writer, ?_, ?_, ?_, ?_, ?_, h.flown⟩
    · rw [Joint.AtWork, hreport] at hwork ⊢
      exact hwork
    · have hreading := h.reading
      unfold Joint.Reading at hreading ⊢
      rw [hcontrol]
      exact hreading
    · intro _
      show j.requests.length = sys.inputs.count + _
      rw [hcount]
      exact h.count (Or.inl hgoing)
    · show ∀ sample, sys.inputs.newest = some sample → ∃ manual, 1 ≤ sys.inputs.count ∧ _
      rw [hnewest, hcount]
      exact h.newest
    · show 1 ≤ sys.control.consumed → _
      rw [hcontrol]
      exact h.held

/-! ## The control thread -/

/-- A cycle that is owed is for the last request, and finds it in place. -/
theorem Joint.Inv.owed {ready : Bool} {j : Joint F D R E} (h : j.Inv ready) {imuOk : Bool}
    (hpc : j.sys.control.pc = .tick imuOk) :
    j.report = none ∧ j.rc.writer = .idle ∧ Shown j.rc ∧ ∃ request,
      j.Requested j.sys.control.consumed request ∧ j.sys.control.gyro = request.2.gyro ∧
        j.sys.control.accel = request.2.accel ∧ heard j.rc =
          if ready then ((manualChannels request.1, request.1.valid),
            if request.1.valid then 100 else 0)
          else ((rcChannelsSetDefaults, false), 0) := by
  obtain ⟨hconsumed, -, hwait, hgoing⟩ := h.sys.not_tick hpc
  have hwork := h.atWork
  have hreport : j.report = none := by
    cases hreport : j.report with
    | none => rfl
    | some report =>
        rw [Joint.AtWork, hreport] at hwork
        exact absurd hwork.1 hwait
  rw [Joint.AtWork, hreport] at hwork
  obtain ⟨hidle, hheard, hshown⟩ := hwork
  have hcount := h.count (Or.inr hgoing)
  rw [hreport] at hcount
  have hsome : 1 ≤ j.sys.control.consumed := by
    have hcontrol := h.sys.control
    simp only [Control.Inv, hpc] at hcontrol
    omega
  obtain ⟨request, hrequest, hgyro, haccel⟩ := h.held hsome
  have hlast : j.requests.getLast? = some request := by
    rw [List.getLast?_eq_getElem?, hcount]
    show j.requests[j.sys.inputs.count - 1]? = _
    rw [← hconsumed]
    exact hrequest.2
  refine ⟨hreport, hidle, hshown, request, hrequest, hgyro, haccel, ?_⟩
  rw [hheard, commanded, hlast]

variable [CFloat F]

/-- A snapshot of what a request commands makes a cycle that flies the request. -/
theorem flies_of_heard {ready : Bool} {j : Joint F D R E} {env : CycleInput F}
    {request : ManualControl × InertialSample F} (hgyro : j.sys.control.gyro = request.2.gyro)
    (haccel : j.sys.control.accel = request.2.accel)
    (hsnapshot : j.rc.reader.dest = j.rc.latest.mem) (hshown : Shown j.rc)
    (hquality : j.linkQuality = UInt8.ofInt j.rc.linkQuality)
    (hheard : heard j.rc =
      if ready then ((manualChannels request.1, request.1.valid), if request.1.valid then 100 else 0)
      else ((rcChannelsSetDefaults, false), 0)) :
    Flies ready request (j.sys.control.cycleInput (j.snapshotInput env)) := by
  obtain ⟨stampMs, hmem⟩ := hshown
  have hchannels : (j.snapshotInput env).rc = j.rc.staging := by
    funext k
    exact congrFun (hsnapshot.trans hmem) (.channel k)
  have hvalid : (j.snapshotInput env).rcValid = j.rc.stagingValid :=
    congrFun (hsnapshot.trans hmem) .valid
  have hlink : (j.snapshotInput env).rcLinkQuality = UInt8.ofInt j.rc.linkQuality := hquality
  cases ready with
  | true =>
      obtain ⟨hstaged, hlq⟩ := Prod.mk.injEq .. |>.mp hheard
      obtain ⟨hrc, hok⟩ := Prod.mk.injEq .. |>.mp hstaged
      refine ⟨hchannels.trans hrc, hvalid.trans hok, hlink.trans ?_, rfl, hgyro, haccel⟩
      rw [hlq]
      cases request.1.valid <;> rfl
  | false =>
      obtain ⟨hstaged, hlq⟩ := Prod.mk.injEq .. |>.mp hheard
      obtain ⟨hrc, hok⟩ := Prod.mk.injEq .. |>.mp hstaged
      refine ⟨hchannels.trans hrc, hvalid.trans hok, hlink.trans ?_, rfl, hgyro, haccel⟩
      rw [hlq]
      rfl

theorem Joint.Inv.flies {ready : Bool} {j : Joint F D R E} (h : j.Inv ready) {imuOk : Bool}
    (hpc : j.sys.control.pc = .tick imuOk) (hreturned : j.rc.reader.pc = .returned)
    (env : CycleInput F) :
    ∃ request, j.Requested j.sys.control.consumed request ∧
      Flies ready request (j.sys.control.cycleInput (j.snapshotInput env)) := by
  obtain ⟨-, -, hshown, request, hrequest, hgyro, haccel, hheard⟩ := h.owed hpc
  have hreading := h.reading
  simp only [Joint.Reading, hpc] at hreading
  obtain ⟨hsnapshot, hquality⟩ := hreading
  rw [Snapshot, hreturned] at hsnapshot
  exact ⟨request, hrequest, flies_of_heard hgyro haccel hsnapshot hshown
    (hquality (fun hat => by cases hreturned.symm.trans hat)) hheard⟩

variable [CFloat D] [CDouble F D] (gen : Generated D R E)

theorem Control.fly_consumed (c : Control F D R E) (input : CycleInput F) :
    (c.fly gen input).consumed = c.consumed := rfl

theorem Control.fly_atTarget (c : Control F D R E) (input : CycleInput F) :
    (c.fly gen input).atTarget = c.atTarget := rfl

theorem controlStep_sample {s t : System F D R E} {env : CycleInput F}
    (h : controlStep gen s env = some t) :
    t.coordinator = s.coordinator ∧ t.inputs.count = s.inputs.count ∧
      t.inputs.newest = s.inputs.newest ∧
      ((t.control.consumed = s.control.consumed ∧ t.control.gyro = s.control.gyro ∧
          t.control.accel = s.control.accel) ∨
        ∃ sample, s.inputs.newest = some sample ∧ t.control.consumed = s.inputs.count ∧
          t.control.gyro = sample.gyro ∧ t.control.accel = sample.accel) := by
  cases controlStep_cases gen h with
  | taken hpc hsome hnewest => exact ⟨rfl, rfl, rfl, Or.inr ⟨_, hnewest, rfl, rfl, rfl⟩⟩
  | fly hpc =>
      obtain ⟨time, hadvance⟩ := s.control.advance_eq
      rw [hadvance]
      exact ⟨rfl, rfl, rfl, Or.inl ⟨rfl, rfl, rfl⟩⟩
  | _ => exact ⟨rfl, rfl, rfl, Or.inl ⟨rfl, rfl, rfl⟩⟩

theorem controlStep_counting {s t : System F D R E} {env : CycleInput F}
    (h : controlStep gen s env = some t) (hcounting : t.Counting) : s.Counting := by
  obtain ⟨hcoordinator, hcount⟩ := controlStep_coordinator gen h
  have hserved := controlStep_served_le gen h
  rcases hcounting with hgoing | hless
  · exact Or.inl (hcoordinator ▸ hgoing)
  · exact Or.inr (by omega)

/-- A step of the control thread keeps to the requests. -/
theorem Joint.Inv.requested {ready : Bool} {j : Joint F D R E} (h : j.Inv ready)
    {sys : System F D R E} {env : CycleInput F} (hsys : controlStep gen j.sys env = some sys) :
    (∀ sample, sys.inputs.newest = some sample →
        ∃ manual, j.Requested sys.inputs.count (manual, sample)) ∧
      (1 ≤ sys.control.consumed → ∃ request, j.Requested sys.control.consumed request ∧
        sys.control.gyro = request.2.gyro ∧ sys.control.accel = request.2.accel) := by
  obtain ⟨-, hcount, hnewest, hsample⟩ := controlStep_sample gen hsys
  refine ⟨?_, fun hsome => ?_⟩
  · rw [hnewest, hcount]
    exact h.newest
  · rcases hsample with ⟨hconsumed, hgyro, haccel⟩ | ⟨sample, htaken, hconsumed, hgyro, haccel⟩
    · rw [hconsumed] at hsome ⊢
      rw [hgyro, haccel]
      exact h.held hsome
    · obtain ⟨manual, hrequest⟩ := h.newest sample htaken
      exact ⟨(manual, sample), hconsumed ▸ hrequest, hgyro, haccel⟩

theorem Joint.Inv.flyStep {ready : Bool} {j t : Joint F D R E} (h : j.Inv ready) {imuOk : Bool}
    (hpc : j.sys.control.pc = .tick imuOk) {env : CycleInput F}
    (hstep : j.flyStep gen imuOk env = some t) : t.Inv ready := by
  obtain ⟨hreport, hidle, -⟩ := h.owed hpc
  have hwork := h.atWork
  rw [Joint.AtWork, hreport] at hwork
  have hreading := h.reading
  simp only [Joint.Reading, hpc] at hreading
  obtain ⟨hsnapshot, hquality⟩ := hreading
  -- a step of the snapshot
  have hread (rc : RcInput) (r : RcReader) (q : UInt8) (hrc : rc = { j.rc with reader := r })
      (hnext : Snapshot rc ∧ (r.pc ≠ .idle → q = UInt8.ofInt j.rc.linkQuality)) :
      Joint.Inv ready { j with rc := rc, linkQuality := q } := by
    subst hrc
    refine ⟨h.sys, h.writer.read r, ?_, ?_, h.count, h.newest, h.held, h.flown⟩
    · rw [Joint.AtWork, hreport]
      exact hwork
    · simp only [Joint.Reading, hpc]
      exact hnext
  unfold Joint.flyStep at hstep
  split at hstep
  · rename_i hfree
    obtain ⟨rc, hrc, rfl⟩ := Option.map_eq_some_iff.mp hstep
    simp only [rcStep, hfree, true_or, if_true, Option.some.injEq] at hrc
    exact hread rc _ _ hrc.symm ⟨by rw [← hrc]; trivial, fun _ => rfl⟩
  · rename_i hreturned
    obtain ⟨sys, hsys, rfl⟩ := Option.map_eq_some_iff.mp hstep
    obtain ⟨hcoordinator, hcount, -, -⟩ := controlStep_sample gen hsys
    obtain ⟨hnewest, hheld⟩ := h.requested gen hsys
    obtain ⟨-, rfl, -, -⟩ := h.sys.not_tick hpc
    refine ⟨controlStep_inv gen h.sys hsys, h.writer.read _, ?_, .of_idle rfl, ?_, hnewest, hheld, ?_⟩
    · rw [Joint.AtWork, hreport]
      exact hwork
    · intro hgoing
      show j.requests.length = sys.inputs.count + _
      rw [hcount]
      exact h.count (controlStep_counting gen hsys hgoing)
    · intro c hc
      rcases List.mem_append.mp hc with hc | hc
      · exact h.flown c hc
      · rw [List.mem_singleton.mp hc]
        exact h.flies hpc hreturned env
  · obtain ⟨rc, hrc, rfl⟩ := Option.map_eq_some_iff.mp hstep
    obtain ⟨r, hr⟩ := rcInputLatestGet_keeps hrc
    refine hread rc r j.linkQuality hr ⟨hsnapshot.read h.writer hidle hrc, fun _ => hquality ?_⟩
    assumption

theorem Joint.Inv.control {ready : Bool} {j t : Joint F D R E} (h : j.Inv ready)
    {env : CycleInput F} (hstep : j.control gen env = some t) : t.Inv ready := by
  unfold Joint.control at hstep
  split at hstep
  · rename_i imuOk hpc
    exact h.flyStep gen hpc hstep
  · rename_i hpc
    obtain ⟨sys, hsys, rfl⟩ := Option.map_eq_some_iff.mp hstep
    obtain ⟨hcoordinator, hcount, -, -⟩ := controlStep_sample gen hsys
    obtain ⟨hnewest, hheld⟩ := h.requested gen hsys
    have hfree : j.rc.reader.pc = .idle := by
      have hreading := h.reading
      unfold Joint.Reading at hreading
      split at hreading
      · rename_i imuOk hat
        exact absurd hat (hpc imuOk)
      · exact hreading
    refine ⟨controlStep_inv gen h.sys hsys, h.writer, ?_, .of_idle hfree, ?_, hnewest, hheld, h.flown⟩
    · have hwork := h.atWork
      unfold Joint.AtWork at hwork ⊢
      dsimp only
      rw [hcoordinator]
      exact hwork
    · intro hgoing
      show j.requests.length = sys.inputs.count + _
      rw [hcount]
      exact h.count (controlStep_counting gen hsys hgoing)

/-! ## Runs -/

theorem jointBoot_inv (ready rcPubReady : Bool) :
    (jointBoot gen rcPubReady : Joint F D R E).Inv ready where
  sys := boot_inv gen
  writer := (rcInputInit_inv rcPubReady).1
  atWork := ⟨rfl, rfl, 0, rfl⟩
  reading := rfl
  count := fun _ => rfl
  newest := fun _ h => by cases h
  held := fun h => absurd h (Nat.not_succ_le_zero 0)
  flown := fun _ h => by cases h

theorem Joint.Inv.waitFailed {ready : Bool} {j : Joint F D R E} (h : j.Inv ready)
    (hreport : j.report = none) {sys : System F D R E}
    (hsys : step gen j.sys .waitFailed = some sys) : Joint.Inv ready { j with sys := sys } := by
  have hinv := step_inv gen (e := .waitFailed) trivial h.sys hsys
  have hwork := h.atWork
  rw [Joint.AtWork, hreport] at hwork
  simp only [step] at hsys
  split at hsys <;> cases hsys
  rename_i hwait
  refine ⟨hinv, h.writer, ?_, h.reading, fun _ => h.count (System.counting_of_wait hwait), h.newest,
    h.held, h.flown⟩
  rw [Joint.AtWork, hreport]
  exact hwork

theorem jointStep_inv (ready : Bool) (j : Joint F D R E) (e : JointEvent F) (t : Joint F D R E)
    (hpast : JointPast j e) (h : j.Inv ready) (hstep : jointStep gen ready j e = some t) :
    t.Inv ready := by
  cases e with
  | control env => exact h.control gen hstep
  | coordinator ask uptime => exact h.coordinate hpast hstep
  | waitFailed =>
      simp only [jointStep] at hstep
      split at hstep
      · rename_i hnone
        obtain ⟨sys, hsys, rfl⟩ := Option.map_eq_some_iff.mp hstep
        exact h.waitFailed gen (Option.isNone_iff_eq_none.mp hnone) hsys
      · cases hstep
  | terminate =>
      cases hstep
      exact ⟨h.sys.terminated, h.writer, h.atWork, h.reading, h.count, h.newest, h.held, h.flown⟩

/-- Unless the coordinator looks for motor outputs while there are only those of the
initialisation, in every run of the two threads, with the snapshots, the events and each
store of `rc_input_cb` as steps of their own, in any order: a cycle that is flown for input
`n` has the sample of the `n`-th request, and its channels, validity and link quality are
those that the manual control of the same request commands. And the `n`-th response has the
motor outputs that were made for input `n`. -/
theorem lockstep_flies_own_request (ready rcPubReady : Bool) (events : List (JointEvent F))
    (j : Joint F D R E)
    (hpast : Guarded.Ok (jointStep gen ready) JointPast (jointBoot gen rcPubReady) events)
    (hrun : Guarded.run (jointStep gen ready) (jointBoot gen rcPubReady) events = some j) :
    (∀ c ∈ j.flown, ∃ request, j.Requested c.1 request ∧ Flies ready request c.2) ∧
      ∀ i outputs, j.sys.coordinator.responses[i]? = some outputs →
        ∃ p, outputs .pwmSignalOutputs = some p ∧ p.input = i + 1 := by
  have hinv := Guarded.ok_keeps (jointStep gen ready) (jointStep_inv gen ready)
    (jointBoot_inv gen ready rcPubReady) hpast hrun
  exact ⟨hinv.flown, hinv.sys.responses⟩

end Runs

/-! ## An exchange -/

def benchAsk : Ask Rat := ⟨some benchManual, ⟨625, ⟨0, 0, 0⟩, ⟨0, 0, 10⟩, true⟩⟩

/-- The control thread waits; the message is reported and the input published; the control
thread wakes, takes a snapshot, flies its cycle and publishes; the coordinator answers. -/
def benchJoint : List (JointEvent Rat) :=
  List.replicate 2 (.control (benchInput 1000 1000)) ++
    List.replicate 42 (.coordinator benchAsk 7) ++
    List.replicate 34 (.control (benchInput 1000 1000)) ++
    List.replicate 6 (.coordinator benchAsk 9)

theorem lockstep_flies_own_request_bench :
    ∃ j, Guarded.run (jointStep benchGenerated true) (jointBoot benchGenerated true) benchJoint
        = some j ∧
      (∃ c ∈ j.flown, ∃ request, j.Requested c.1 request ∧ Flies true request c.2) ∧
      ∃ outputs, j.sys.coordinator.responses[0]? = some outputs ∧
        ∃ p, outputs .pwmSignalOutputs = some p ∧ p.input = 0 + 1 := by
  obtain ⟨j, hrun, hflown, hanswered⟩ : ∃ j, Guarded.run (jointStep benchGenerated true)
      (jointBoot benchGenerated true) benchJoint = some j ∧ j.flown.length = 1 ∧
        j.sys.coordinator.responses.length = 1 :=
    Guarded.run_any _ (by decide +kernel)
  have hpast : Guarded.Ok (jointStep benchGenerated true) JointPast (jointBoot benchGenerated true)
      benchJoint := by
    decide +kernel
  obtain ⟨c, hc⟩ := List.length_eq_one_iff.mp hflown
  have hmem : c ∈ j.flown := hc ▸ List.mem_singleton_self c
  have hlt : 0 < j.sys.coordinator.responses.length := by omega
  have hresponse := List.getElem?_eq_getElem hlt
  obtain ⟨hflies, hanswers⟩ :=
    lockstep_flies_own_request benchGenerated true true benchJoint j hpast hrun
  exact ⟨j, hrun, ⟨c, hmem, hflies c hmem⟩, _, hresponse, hanswers 0 _ hresponse⟩

end Rdd2.Lockstep
