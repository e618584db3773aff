import Mathlib.Computability.StateTransition
import Rdd2.LockstepManual
import Rdd2.LoopClock

/-!
# The exchange as one thread

What the lockstep build is for: a host that asks the same gets the same motor outputs,
however its threads, the clocks and the scheduler behave. Stated as a refinement: `soloStep`
is a machine of one thread, without store, semaphore, generations, events or snapshots. It
takes a request when it has answered the one before, flies a period or what is left of it
until it has reached the request's time, and answers with the motor outputs of that cycle.
Every run of the two threads answers what this machine answers
(`lockstep_is_one_thread`).
-/

namespace Rdd2.Lockstep

open StateTransition

/-! ## Motor outputs on their way -/

section Outputs

variable {F D R E : Type}

/-- The motor outputs that a cycle has asked for and that are not published yet. -/
def owedOutputs (c : Control F D R E) : List (Topic × Publication F) :=
  match c.pc with
  | .publish pending => pending.filter fun tp => tp.1 = .pwmSignalOutputs
  | _ => []

theorem filter_noMotor {pending : List (Topic × Publication F)} (h : NoMotor pending) :
    (pending.filter fun tp => tp.1 = .pwmSignalOutputs) = [] :=
  List.filter_eq_nil_iff.mpr fun tp htp hmotor => h tp htp (of_decide_eq_true hmotor)

theorem filter_motor {p : Publication F} {pending : List (Topic × Publication F)}
    (h : NoMotor pending) :
    (((.pwmSignalOutputs, p) :: pending).filter fun tp => tp.1 = .pwmSignalOutputs)
      = [(.pwmSignalOutputs, p)] := by
  rw [List.filter_cons_of_pos rfl, filter_noMotor h]

theorem publications_motorOutputs (n : Nat) (atTarget : Bool) (calls : List (Call F)) :
    ((publications n atTarget calls).filter fun tp => tp.1 = .pwmSignalOutputs).map
        (fun tp => motorOutput tp.2.call) = (motorOutputs calls).map some := by
  induction calls with
  | nil => rfl
  | cons call calls ih =>
      have hcons : publications n atTarget (call :: calls)
          = publications n atTarget [call] ++ publications n atTarget calls := by
        rw [← publications_append]
        rfl
      have hcall : ((publications n atTarget [call]).filter
          fun tp => tp.1 = .pwmSignalOutputs).map (fun tp => motorOutput tp.2.call)
            = (motorOutputs [call]).map some := by
        cases call with
        | motor motorCall => cases motorCall <;> rfl
        | _ => rfl
      rw [hcons, List.filter_append, List.map_append, hcall, ih, ← List.map_append,
        ← motorOutputs_append]
      rfl

/-- Motor outputs are copied from the topic to the local, from there to the shared memory,
and from there to the host. -/
theorem coordinatorStep_motor {s t : System F D R E} {request : Request F}
    (h : coordinatorStep s request = some t) :
    t.control = s.control ∧ t.topics = s.topics ∧
      (t.coordinator.motor = s.coordinator.motor ∨
        t.coordinator.motor = (s.topics .pwmSignalOutputs).newest) ∧
      (t.coordinator.shared .pwmSignalOutputs = s.coordinator.shared .pwmSignalOutputs ∨
        t.coordinator.shared .pwmSignalOutputs = s.coordinator.motor) ∧
      (t.coordinator.responses = s.coordinator.responses ∨
        t.coordinator.responses = s.coordinator.responses ++ [s.coordinator.shared]) := by
  cases coordinatorStep_cases h with
  | copy hpc hsome => exact ⟨rfl, rfl, Or.inr rfl, Or.inl rfl, Or.inl rfl⟩
  | write hpc => exact ⟨rfl, rfl, Or.inl rfl, Or.inr rfl, Or.inl rfl⟩
  | respond hpc => exact ⟨rfl, rfl, Or.inl rfl, Or.inl rfl, Or.inr rfl⟩
  | _ => exact ⟨rfl, rfl, Or.inl rfl, Or.inl rfl, Or.inl rfl⟩

/-- A step of the coordinator in the exchange is one of the coordinator alone, or none. -/
theorem Joint.coordinate_sys {ready : Bool} {j t : Joint F D R E} {ask : Ask F} {uptime : Int}
    (h : j.coordinate ready ask uptime = some t) :
    (∃ more, t.requests = j.requests ++ more) ∧
      (t.sys = j.sys ∨ ∃ request, coordinatorStep j.sys request = some t.sys) := by
  unfold Joint.coordinate at h
  split at h
  · split at h
    · unfold Joint.reportStep at h
      split at h
      · split at h
        · obtain ⟨rc, -, rfl⟩ := Option.map_eq_some_iff.mp h
          exact ⟨⟨[], (List.append_nil _).symm⟩, Or.inl rfl⟩
        · obtain ⟨sys, hsys, rfl⟩ := Option.map_eq_some_iff.mp h
          exact ⟨⟨[], (List.append_nil _).symm⟩, Or.inr ⟨_, hsys⟩⟩
      · obtain ⟨rc, -, rfl⟩ := Option.map_eq_some_iff.mp h
        exact ⟨⟨[], (List.append_nil _).symm⟩, Or.inl rfl⟩
    · cases h
      exact ⟨⟨_, rfl⟩, Or.inl rfl⟩
    · obtain ⟨sys, hsys, rfl⟩ := Option.map_eq_some_iff.mp h
      exact ⟨⟨[], (List.append_nil _).symm⟩, Or.inr ⟨_, hsys⟩⟩
  · obtain ⟨sys, hsys, rfl⟩ := Option.map_eq_some_iff.mp h
    exact ⟨⟨[], (List.append_nil _).symm⟩, Or.inr ⟨_, hsys⟩⟩

end Outputs

/-! ## The machine -/

/-- The request in hand is the last of those `asked`. -/
structure Solo (F D R E : Type) where
  asked : Nat
  nowNs : UInt64
  targetNs : UInt64
  loop : Loop F D R E
  answers : List (MotorValues F × Bool)

section Machine

variable {F D R E : Type}

/-- The next request, with its time; one that is not later than now is a period ahead. -/
def Solo.take (s : Solo F D R E) (request : ManualControl × InertialSample F) : Solo F D R E :=
  let target := request.2.timestampUs * 1000
  { s with
    asked := s.asked + 1
    targetNs := if target ≤ s.nowNs then s.nowNs + controlPeriodNs else target }

variable [CFloat F]

def soloInput (ready : Bool) (request : ManualControl × InertialSample F)
    (nowNs nextNs targetNs : UInt64) : CycleInput F where
  imuOk := true
  gyro := request.2.gyro
  accel := request.2.accel
  dt := CFloat.mul (CFloat.lit (nextNs - nowNs).toNat) (CFloat.lit (1 / 1000000000))
  imuInterruptTimestampNs := nextNs
  rcLinkQuality := if ready && request.1.valid then 100 else 0
  rc := if ready then manualChannels request.1 else rcChannelsSetDefaults
  rcStampMs := 0
  rcValid := ready && request.1.valid
  nowMs := 0
  motorTest := ⟨false, MotorValues.zero F⟩
  motorRawTest := ⟨false, fun _ => 0⟩
  motorClock := ⟨0, 0⟩
  atTarget := decide (nextNs ≥ targetNs)

/-- The machine's cycle for a request is that of the control thread. -/
theorem soloInput_clockless {ready : Bool} {request : ManualControl × InertialSample F}
    {c : Control F D R E}
    {env : CycleInput F} (hflies : Flies ready request (c.cycleInput env)) (htest : Untested env) :
    clocklessInput (c.cycleInput env) = clocklessInput (soloInput ready request c.currentBootTimeNs
      c.advance.currentBootTimeNs c.targetBootTimeNs) := by
  obtain ⟨hrc, hvalid, hquality, -, hgyro, haccel⟩ := hflies
  obtain ⟨hmotor, hraw⟩ := htest
  unfold clocklessInput soloInput
  rw [← hquality, ← hrc, ← hvalid, ← hgyro, ← haccel]
  unfold Control.cycleInput Control.atTarget
  dsimp only
  rw [hmotor, hraw]
  obtain ⟨time, hadvance⟩ := c.advance_eq
  rw [hadvance]

variable [CFloat D] [CDouble F D] (gen : Generated D R E)

def Solo.fly (ready : Bool) (s : Solo F D R E) (request : ManualControl × InertialSample F) :
    Solo F D R E :=
  let next := s.nowNs + controlPeriodNs
  let next := if next > s.targetNs then s.targetNs else next
  let flown := cycle gen lockstepBoard s.loop (soloInput ready request s.nowNs next s.targetNs)
  { s with
    nowNs := next
    loop := flown.1
    answers := s.answers ++ motorOutputs flown.2.calls }

/-- A step; `none` where there is no request to take, or where the time has wrapped around
on taking one. -/
def soloStep (ready : Bool) (requests : List (ManualControl × InertialSample F))
    (s : Solo F D R E) : Option (Solo F D R E) :=
  if s.answers.length = s.asked then requests[s.asked]?.map s.take
  else if s.nowNs ≥ s.targetNs then none
  else requests[s.asked - 1]?.map (s.fly gen ready)

def soloBoot : Solo F D R E := ⟨0, 0, 0, bootLoop gen, []⟩

/-- The answer to request `i`, where those after it have not been asked. -/
def SoloAnswers (ready : Bool) (requests : List (ManualControl × InertialSample F)) (i : Nat)
    (answer : MotorValues F × Bool) : Prop :=
  ∃ s : Solo F D R E, Reaches (soloStep gen ready (requests.take (i + 1))) (soloBoot gen) s ∧
    s.answers[i]? = some answer

/-! ## One answer -/

variable {gen} {ready : Bool} {requests more : List (ManualControl × InertialSample F)}

theorem soloStep_append {s t : Solo F D R E} (h : soloStep gen ready requests s = some t) :
    soloStep gen ready (requests ++ more) s = some t := by
  have hmore {i : Nat} {f : _ → Solo F D R E} (h : requests[i]?.map f = some t) :
      (requests ++ more)[i]?.map f = some t := by
    obtain ⟨request, hrequest, rfl⟩ := Option.map_eq_some_iff.mp h
    rw [List.getElem?_append_left (List.getElem?_eq_some_iff.mp hrequest).1, hrequest]
    rfl
  unfold soloStep at h ⊢
  split at h
  · rename_i hanswered
    rw [if_pos hanswered]
    exact hmore h
  · rename_i hanswered
    split at h
    · cases h
    · rename_i hbefore
      rw [if_neg hanswered, if_neg hbefore]
      exact hmore h

theorem soloReaches_append {s t : Solo F D R E} (h : Reaches (soloStep gen ready requests) s t) :
    Reaches (soloStep gen ready (requests ++ more)) s t :=
  Relation.ReflTransGen.mono (fun _ _ hstep => soloStep_append hstep) s t h

theorem soloReaches_answers {s t : Solo F D R E}
    (h : Reaches (soloStep gen ready requests) s t) : s.answers <+: t.answers := by
  induction h with
  | refl => exact List.prefix_rfl
  | tail _ hstep ih =>
      refine ih.trans ?_
      rw [Option.mem_def] at hstep
      unfold soloStep at hstep
      split at hstep
      · obtain ⟨request, -, rfl⟩ := Option.map_eq_some_iff.mp hstep
        exact List.prefix_rfl
      · split at hstep
        · cases hstep
        · obtain ⟨request, -, rfl⟩ := Option.map_eq_some_iff.mp hstep
          exact List.prefix_append _ _

theorem SoloAnswers.unique {i : Nat} {a b : MotorValues F × Bool}
    (ha : SoloAnswers gen ready requests i a) (hb : SoloAnswers gen ready requests i b) :
    a = b := by
  obtain ⟨s, hs, ha⟩ := ha
  obtain ⟨t, ht, hb⟩ := hb
  have hkept {s t : Solo F D R E} {a : MotorValues F × Bool}
      (hst : Reaches (soloStep gen ready (requests.take (i + 1))) s t)
      (ha : s.answers[i]? = some a) : t.answers[i]? = some a := by
    obtain ⟨later, happend⟩ := soloReaches_answers hst
    rw [← happend, List.getElem?_append_left (List.getElem?_eq_some_iff.mp ha).1]
    exact ha
  rcases reaches_total hs ht with hst | hts
  · exact Option.some.inj ((hkept hst ha).symm.trans hb)
  · exact Option.some.inj (ha.symm.trans (hkept hts hb))

theorem SoloAnswers.append {i : Nat} {a : MotorValues F × Bool}
    (h : SoloAnswers gen ready requests i a) : SoloAnswers gen ready (requests ++ more) i a := by
  obtain ⟨s, hs, ha⟩ := h
  refine ⟨s, ?_, ha⟩
  rw [List.take_append]
  exact soloReaches_append hs

/-! ## The invariant -/

/-- The control thread is where the machine is. -/
structure Follows (c : Control F D R E) (s : Solo F D R E) : Prop where
  asked : s.asked = c.consumed
  nowNs : s.nowNs = c.currentBootTimeNs
  targetNs : s.targetNs = c.targetBootTimeNs
  loop : clockless s.loop = clockless c.loop

variable (gen ready requests) in
/-- They are the machine's answer to the request they were made for. -/
def Honest (o : Option (Publication F)) : Prop :=
  ∀ p i, o = some p → p.input = i + 1 →
    ∃ a, motorOutput p.call = some a ∧ SoloAnswers gen ready requests i a

theorem Honest.append {o : Option (Publication F)} (h : Honest gen ready requests o) :
    Honest gen ready (requests ++ more) o := by
  intro p i hp hinput
  obtain ⟨a, ha, hanswer⟩ := h p i hp hinput
  exact ⟨a, ha, hanswer.append⟩

variable (gen) in
/-- The control thread follows the machine, and every motor outputs there are, wherever they
have got to, are its answers. -/
structure Joint.OneThread (ready : Bool) (j : Joint F D R E) : Prop where
  control : ∃ s : Solo F D R E,
    Reaches (soloStep gen ready (j.requests.take j.sys.control.consumed)) (soloBoot gen) s ∧
      Follows j.sys.control s ∧
      s.answers.length = j.sys.topics.served + (owedOutputs j.sys.control).length
  behind : ∀ imuOk, j.sys.control.pc = .tick imuOk → j.sys.control.atTarget = false
  owed : ∀ tp ∈ owedOutputs j.sys.control, Honest gen ready j.requests (some tp.2)
  newest : Honest gen ready j.requests (j.sys.topics .pwmSignalOutputs).newest
  motor : Honest gen ready j.requests j.sys.coordinator.motor
  shared : Honest gen ready j.requests (j.sys.coordinator.shared .pwmSignalOutputs)
  responses : ∀ outputs ∈ j.sys.coordinator.responses,
    Honest gen ready j.requests (outputs .pwmSignalOutputs)

/-! ## The coordinator -/

theorem Joint.OneThread.coordinate {j t : Joint F D R E} (h : j.OneThread gen ready)
    {ask : Ask F} {uptime : Int} (hstep : j.coordinate ready ask uptime = some t) :
    t.OneThread gen ready := by
  obtain ⟨⟨more, hrequests⟩, hsys⟩ := Joint.coordinate_sys hstep
  have hhonest {o : Option (Publication F)} (ho : Honest gen ready j.requests o) :
      Honest gen ready t.requests o := by
    rw [hrequests]
    exact ho.append
  have hfollows (hcontrol : t.sys.control = j.sys.control) (htopics : t.sys.topics = j.sys.topics) :
      ∃ s : Solo F D R E,
        Reaches (soloStep gen ready (t.requests.take t.sys.control.consumed)) (soloBoot gen) s ∧
          Follows t.sys.control s ∧
          s.answers.length = t.sys.topics.served + (owedOutputs t.sys.control).length := by
    obtain ⟨s, hreach, hsame⟩ := h.control
    rw [hcontrol, htopics, hrequests, List.take_append]
    exact ⟨s, soloReaches_append hreach, hsame⟩
  rcases hsys with hsys | ⟨request, hsys⟩
  · refine ⟨hfollows (by rw [hsys]) (by rw [hsys]), ?_, ?_, ?_, ?_, ?_, ?_⟩
    all_goals rw [hsys]
    · exact h.behind
    · exact fun tp htp => hhonest (h.owed tp htp)
    · exact hhonest h.newest
    · exact hhonest h.motor
    · exact hhonest h.shared
    · exact fun outputs houtputs => hhonest (h.responses outputs houtputs)
  · obtain ⟨hcontrol, htopics, hmotor, hshared, hresponses⟩ := coordinatorStep_motor hsys
    refine ⟨hfollows hcontrol htopics, ?_, ?_, ?_, ?_, ?_, ?_⟩
    · rw [hcontrol]
      exact h.behind
    · rw [hcontrol]
      exact fun tp htp => hhonest (h.owed tp htp)
    · rw [htopics]
      exact hhonest h.newest
    · rcases hmotor with hmotor | hmotor <;> rw [hmotor]
      · exact hhonest h.motor
      · exact hhonest h.newest
    · rcases hshared with hshared | hshared <;> rw [hshared]
      · exact hhonest h.shared
      · exact hhonest h.motor
    · intro outputs houtputs
      rcases hresponses with hresponses | hresponses <;> rw [hresponses] at houtputs
      · exact hhonest (h.responses outputs houtputs)
      · rcases List.mem_append.mp houtputs with hold | hnew
        · exact hhonest (h.responses outputs hold)
        · rw [List.mem_singleton.mp hnew]
          exact hhonest h.shared

/-! ## The control thread -/

/-- A step of the control thread that publishes nothing. -/
theorem Joint.OneThread.moved {j t : Joint F D R E} (h : j.OneThread gen ready)
    (hrequests : t.requests = j.requests) (hcoordinator : t.sys.coordinator = j.sys.coordinator)
    (htopics : t.sys.topics = j.sys.topics)
    (hcontrol : ∃ s : Solo F D R E,
      Reaches (soloStep gen ready (j.requests.take t.sys.control.consumed)) (soloBoot gen) s ∧
        Follows t.sys.control s ∧
        s.answers.length = j.sys.topics.served + (owedOutputs t.sys.control).length)
    (hbehind : ∀ imuOk, t.sys.control.pc = .tick imuOk → t.sys.control.atTarget = false)
    (howed : ∀ tp ∈ owedOutputs t.sys.control, Honest gen ready j.requests (some tp.2)) :
    t.OneThread gen ready := by
  refine ⟨?_, hbehind, ?_, ?_, ?_, ?_, ?_⟩
  · rw [hrequests, htopics]
    exact hcontrol
  · rw [hrequests]
    exact howed
  · rw [hrequests, htopics]
    exact h.newest
  · rw [hrequests, hcoordinator]
    exact h.motor
  · rw [hrequests, hcoordinator]
    exact h.shared
  · rw [hrequests, hcoordinator]
    exact h.responses

theorem Joint.OneThread.take {j : Joint F D R E} (hinv : j.Inv ready) (h : j.OneThread gen ready)
    (hpc : j.sys.control.pc = .latestGet) {sample : InertialSample F}
    (hnewest : j.sys.inputs.newest = some sample) :
    Joint.OneThread gen ready { j with sys := { j.sys with
      control := j.sys.control.takeSample j.sys.inputs.count sample } } := by
  obtain ⟨s, hreach, hfollows, hlength⟩ := h.control
  have hcontrol := hinv.sys.control
  simp only [Control.Inv, hpc] at hcontrol
  obtain ⟨hserved, hnew, -⟩ := hcontrol
  have hwaits := hinv.sys.coordinator.inputs_le
  obtain ⟨manual, -, hrequest⟩ := hinv.newest sample hnewest
  simp only [owedOutputs, hpc] at hlength
  have hnext : j.sys.inputs.count = j.sys.control.consumed + 1 := by omega
  have hanswered : s.answers.length = s.asked := by
    rw [hlength, hfollows.asked, List.length_nil]
    omega
  have hasked : (j.requests.take (j.sys.control.consumed + 1))[s.asked]? = some (manual, sample) := by
    rw [hfollows.asked, List.getElem?_take_of_lt (Nat.lt_succ_self _)]
    rw [hnext] at hrequest
    exact hrequest
  have hstep : soloStep gen ready (j.requests.take (j.sys.control.consumed + 1)) s
      = some (s.take (manual, sample)) := by
    rw [soloStep, if_pos hanswered, hasked]
    rfl
  refine h.moved rfl rfl rfl ⟨s.take (manual, sample), ?_, ?_, ?_⟩
    (fun imuOk htick => by cases htick) ?_
  · show Reaches (soloStep gen ready (j.requests.take j.sys.inputs.count)) _ _
    rw [hnext]
    refine Relation.ReflTransGen.tail ?_ hstep
    rw [List.take_add_one]
    exact soloReaches_append hreach
  · refine ⟨?_, hfollows.nowNs, ?_, hfollows.loop⟩
    · show s.asked + 1 = j.sys.inputs.count
      rw [hfollows.asked, hnext]
    · show (if sample.timestampUs * 1000 ≤ s.nowNs then s.nowNs + controlPeriodNs else _) = _
      rw [hfollows.nowNs]
      rfl
  · exact hlength
  · intro tp htp
    cases htp

variable (gen) in
/-- What a cycle owes is what it has given the motors. -/
theorem fly_owed (c : Control F D R E) (input : CycleInput F) :
    (owedOutputs (c.fly gen input) = [] ∧
        motorOutputs (cycle gen lockstepBoard c.loop input).2.calls = []) ∨
      ∃ p a, owedOutputs (c.fly gen input) = [(.pwmSignalOutputs, p)] ∧ p.input = c.consumed ∧
        motorOutput p.call = some a ∧
        motorOutputs (cycle gen lockstepBoard c.loop input).2.calls = [a] := by
  obtain ⟨motor, flight, hpub⟩ := cycle_publications gen c.consumed c.loop input
  have hmap := publications_motorOutputs c.consumed input.atTarget
    (cycle gen lockstepBoard c.loop input).2.calls
  have howed : owedOutputs (c.fly gen input) = (publications c.consumed input.atTarget
      (cycle gen lockstepBoard c.loop input).2.calls).filter
        fun tp => tp.1 = .pwmSignalOutputs := rfl
  rw [howed]
  rw [hpub] at hmap ⊢
  cases hat : input.atTarget with
  | false =>
      rw [hat] at hmap
      exact Or.inl ⟨rfl, List.map_eq_nil_iff.mp hmap.symm⟩
  | true =>
      rw [hat, if_pos rfl, filter_motor (flightPublications_noMotor _ _ _)] at hmap
      obtain ⟨a, hcalls, ha⟩ := List.map_eq_singleton_iff.mp hmap.symm
      refine Or.inr ⟨⟨c.consumed, true, motor⟩, a, ?_, rfl, ha.symm, hcalls⟩
      rw [if_pos rfl, filter_motor (flightPublications_noMotor _ _ _)]

theorem soloStep_fly {c : Control F D R E} {s : Solo F D R E} (hfollows : Follows c s)
    (hbehind : c.atTarget = false) (howing : s.answers.length + 1 = c.consumed)
    {request : ManualControl × InertialSample F} (hrequest : requests[c.consumed - 1]? = some request)
    {env : CycleInput F} (hflies : Flies ready request (c.cycleInput env)) (htest : Untested env) :
    ∃ t : Solo F D R E, soloStep gen ready (requests.take c.consumed) s = some t ∧
      Follows (c.advance.fly gen (c.cycleInput env)) t ∧
      t.answers = s.answers
        ++ motorOutputs (cycle gen lockstepBoard c.loop (c.cycleInput env)).2.calls := by
  obtain ⟨hasked, hnow, htarget, hloop⟩ := hfollows
  have htime : ¬ s.nowNs ≥ s.targetNs := by
    rw [hnow, htarget]
    exact of_decide_eq_false hbehind
  have hnext : (if s.nowNs + controlPeriodNs > s.targetNs then s.targetNs
      else s.nowNs + controlPeriodNs) = c.advance.currentBootTimeNs := by
    rw [hnow, htarget, Control.advance]
  have hinput : clocklessInput (c.cycleInput env) = clocklessInput (soloInput ready request s.nowNs
      c.advance.currentBootTimeNs s.targetNs) := by
    rw [hnow, htarget]
    exact soloInput_clockless hflies htest
  obtain ⟨hsame, houtputs⟩ := cycle_clockless gen hinput hloop.symm htest
  refine ⟨s.fly gen ready request, ?_, ?_, ?_⟩
  · rw [soloStep, if_neg (by omega), if_neg htime, hasked,
      List.getElem?_take_of_lt (by omega), hrequest]
    rfl
  · rw [Solo.fly, hnext, Control.fly]
    obtain ⟨time, hadvance⟩ := c.advance_eq
    rw [hadvance] at hsame ⊢
    exact ⟨hasked, rfl, htarget, hsame.symm⟩
  · rw [Solo.fly, hnext, houtputs]

theorem Joint.OneThread.fly {j t : Joint F D R E} (hinv : j.Inv ready)
    (h : j.OneThread gen ready) {imuOk : Bool} (hpc : j.sys.control.pc = .tick imuOk)
    (hreturned : j.rc.reader.pc = .returned) {env : CycleInput F} (htest : Untested env)
    (hrequests : t.requests = j.requests)
    (hsys : controlStep gen j.sys (j.snapshotInput env) = some t.sys) : t.OneThread gen ready := by
  obtain ⟨s, hreach, hfollows, hlength⟩ := h.control
  obtain ⟨request, ⟨-, hrequest⟩, hflies⟩ := hinv.flies hpc hreturned env
  have hcontrol := hinv.sys.control
  simp only [Control.Inv, hpc] at hcontrol
  obtain ⟨rfl, -, howing⟩ := hcontrol
  simp only [owedOutputs, hpc] at hlength
  simp only [controlStep, hpc, Option.some.injEq] at hsys
  obtain ⟨next, hnext, hnow, hanswers⟩ := soloStep_fly hfollows (h.behind true hpc)
    (by rw [hlength, List.length_nil]; exact howing) hrequest hflies htest
  have hreach := hreach.tail hnext
  have hcycle := fly_owed gen j.sys.control.advance
    (j.sys.control.cycleInput (j.snapshotInput env))
  rw [Control.advance_loop, Control.advance_consumed] at hcycle
  have hflown : t.sys.control
      = j.sys.control.advance.fly gen (j.sys.control.cycleInput (j.snapshotInput env)) := by
    rw [← hsys]
  have hconsumed : t.sys.control.consumed = j.sys.control.consumed := by
    rw [hflown, Control.fly_consumed, Control.advance_consumed]
  have htopics : t.sys.topics = j.sys.topics := by rw [← hsys]
  have hcoordinator : t.sys.coordinator = j.sys.coordinator := by rw [← hsys]
  have hbehind (imuOk : Bool) (hat : t.sys.control.pc = .tick imuOk) :
      t.sys.control.atTarget = false := by
    rw [hflown] at hat
    cases hat
  rw [← hflown] at hcycle hnow
  refine h.moved hrequests hcoordinator htopics ⟨next, ?_, hnow, ?_⟩ hbehind ?_
  · rw [hconsumed]
    exact hreach
  · rcases hcycle with ⟨howed, hcalls⟩ | ⟨p, a, howed, -, -, hcalls⟩
    · rw [hanswers, hcalls, howed, List.append_nil, hlength]
    · rw [hanswers, hcalls, howed, List.length_append, hlength]
      rfl
  · rcases hcycle with ⟨howed, -⟩ | ⟨p, a, howed, hinput, ha, hcalls⟩
    · rw [howed]
      intro tp htp
      cases htp
    · rw [howed]
      rintro tp htp p' i hp hi
      obtain rfl := List.mem_singleton.mp htp
      obtain rfl := Option.some.inj hp
      have hi : p.input = i + 1 := hi
      have hlast : s.answers.length = i := by
        rw [hlength, List.length_nil]
        omega
      refine ⟨a, ha, next, ?_, ?_⟩
      · rw [← hi, hinput]
        exact hreach
      · rw [hanswers, hcalls, List.getElem?_append_right (Nat.le_of_eq hlast), hlast, Nat.sub_self]
        rfl

theorem Joint.OneThread.publish {j : Joint F D R E} (hpublished : 1 ≤ (j.sys.topics
    .pwmSignalOutputs).count) (h : j.OneThread gen ready) {topic : Topic} {p : Publication F}
    {pending : List (Topic × Publication F)}
    (hpc : j.sys.control.pc = .publish ((topic, p) :: pending)) :
    Joint.OneThread gen ready { j with sys := { j.sys with
      topics := j.sys.topics.publish topic p
      control := { j.sys.control with pc := .publish pending } } } := by
  obtain ⟨s, hreach, ⟨hasked, hnow, htarget, hloop⟩, hlength⟩ := h.control
  have howed := h.owed
  simp only [owedOutputs, hpc] at hlength howed
  have hbehind : ∀ imuOk, (ControlPc.publish pending : ControlPc F) = .tick imuOk →
      j.sys.control.atTarget = false := by
    intro imuOk hat
    cases hat
  by_cases htopic : topic = .pwmSignalOutputs
  · subst htopic
    have hmotor := j.sys.topics.publish_same .pwmSignalOutputs p
    have hserved := Topics.served_publish hpublished p
    rw [List.filter_cons_of_pos rfl] at hlength howed
    obtain ⟨hhead, hlater⟩ := List.forall_mem_cons.mp howed
    refine ⟨⟨s, hreach, ⟨hasked, hnow, htarget, hloop⟩, ?_⟩, hbehind, hlater, ?_, h.motor, h.shared,
      h.responses⟩
    · show s.answers.length = (j.sys.topics.publish .pwmSignalOutputs p).served
        + (pending.filter fun tp => tp.1 = .pwmSignalOutputs).length
      rw [hlength, hserved, List.length_cons]
      omega
    · show Honest gen ready j.requests (j.sys.topics.publish .pwmSignalOutputs p _).newest
      rw [hmotor]
      exact hhead
  · have hmotor := j.sys.topics.publish_other (Ne.symm htopic) p
    have hserved := j.sys.topics.served_publish_other htopic p
    have hskip : (((topic, p) :: pending).filter fun tp => tp.1 = .pwmSignalOutputs)
        = pending.filter fun tp => tp.1 = .pwmSignalOutputs :=
      List.filter_cons_of_neg fun hdec => htopic (of_decide_eq_true hdec)
    rw [hskip] at hlength howed
    refine ⟨⟨s, hreach, ⟨hasked, hnow, htarget, hloop⟩, ?_⟩, hbehind, howed, ?_, h.motor, h.shared,
      h.responses⟩
    · show s.answers.length = (j.sys.topics.publish topic p).served + _
      rw [hlength, hserved]
      rfl
    · show Honest gen ready j.requests (j.sys.topics.publish topic p .pwmSignalOutputs).newest
      rw [hmotor]
      exact h.newest

/-- A step of the control thread with nothing owed before it and after it. -/
theorem Joint.OneThread.goes {j t : Joint F D R E} (h : j.OneThread gen ready)
    (hold : owedOutputs j.sys.control = []) (hrequests : t.requests = j.requests)
    (hcoordinator : t.sys.coordinator = j.sys.coordinator) (htopics : t.sys.topics = j.sys.topics)
    {pc : ControlPc F} {generation : UInt32}
    (hcontrol : t.sys.control = { j.sys.control with pc := pc, imuGeneration := generation })
    (howed : owedOutputs t.sys.control = [])
    (hbehind : ∀ imuOk, pc = .tick imuOk → j.sys.control.atTarget = false) :
    t.OneThread gen ready := by
  obtain ⟨s, hreach, ⟨hasked, hnow, htarget, hloop⟩, hlength⟩ := h.control
  rw [hold] at hlength
  refine h.moved hrequests hcoordinator htopics ⟨s, ?_, ?_, ?_⟩ ?_ ?_
  · rw [hcontrol]
    exact hreach
  · rw [hcontrol]
    exact ⟨hasked, hnow, htarget, hloop⟩
  · rw [howed]
    exact hlength
  · rw [hcontrol]
    exact hbehind
  · rw [howed]
    intro tp htp
    cases htp

theorem Joint.OneThread.flyStep {j t : Joint F D R E} (hinv : j.Inv ready)
    (h : j.OneThread gen ready) {imuOk : Bool} (hpc : j.sys.control.pc = .tick imuOk)
    {env : CycleInput F} (htest : Untested env) (hstep : j.flyStep gen imuOk env = some t) :
    t.OneThread gen ready := by
  unfold Joint.flyStep at hstep
  split at hstep
  · obtain ⟨rc, -, rfl⟩ := Option.map_eq_some_iff.mp hstep
    exact h.moved rfl rfl rfl h.control h.behind h.owed
  · rename_i hreturned
    obtain ⟨sys, hsys, rfl⟩ := Option.map_eq_some_iff.mp hstep
    exact h.fly hinv hpc hreturned htest rfl hsys
  · obtain ⟨rc, -, rfl⟩ := Option.map_eq_some_iff.mp hstep
    exact h.moved rfl rfl rfl h.control h.behind h.owed

theorem Joint.OneThread.controlled {j t : Joint F D R E} (hinv : j.Inv ready)
    (h : j.OneThread gen ready) {env : CycleInput F} (htest : Untested env)
    (hstep : j.control gen env = some t) : t.OneThread gen ready := by
  unfold Joint.control at hstep
  split at hstep
  · rename_i imuOk hpc
    exact h.flyStep hinv hpc htest hstep
  · rename_i hfree
    obtain ⟨sys, hsys, rfl⟩ := Option.map_eq_some_iff.mp hstep
    cases controlStep_cases gen hsys with
    | behind hpc hat =>
        exact h.goes (by simp only [owedOutputs, hpc]) rfl rfl rfl rfl rfl (fun _ _ => hat)
    | arrived hpc hat | input hpc hsome hnew | sleep hpc hold | woken hpc hsem =>
        exact h.goes (by simp only [owedOutputs, hpc]) rfl rfl rfl rfl rfl
          (fun imuOk htick => by cases htick)
    | failed hpc hnone => cases (controlStep_inv gen hinv.sys hsys).control.1
    | taken hpc hsome hnewest => exact h.take hinv hpc hnewest
    | fly hpc | flyFailed hpc => exact absurd hpc (hfree _)
    | published hpc =>
        exact h.goes (by simp only [owedOutputs, hpc]; rfl) rfl rfl rfl rfl rfl
          (fun imuOk htick => by cases htick)
    | publish hpc => exact h.publish hinv.sys.published hpc

/-! ## Runs -/

theorem jointBoot_oneThread (rcPubReady : Bool) :
    (jointBoot gen rcPubReady : Joint F D R E).OneThread gen ready where
  control := ⟨soloBoot gen, .refl, ⟨rfl, rfl, rfl, rfl⟩, rfl⟩
  behind := nofun
  owed := fun tp htp => by cases htp
  newest := fun p i hp hi => by
    cases hp
    cases hi
  motor := fun p i hp _ => by cases hp
  shared := fun p i hp _ => by cases hp
  responses := fun outputs houtputs => by cases houtputs

/-- Nobody tests motors, and the coordinator does not look for motor outputs while there are
only those of the initialisation. -/
def Undisturbed (j : Joint F D R E) : JointEvent F → Prop
  | .control env => Untested env
  | .coordinator ask uptime => JointPast j (.coordinator ask uptime)
  | .waitFailed | .terminate => True

variable (gen) in
/-- The two threads of the lockstep build, with all that is between them, answer what the
machine of one thread answers: in whatever order their steps come, and whatever the clocks
say, the `i`-th response has the motor outputs that the machine gives for the requests up to
that one, and there is just one such answer. -/
theorem lockstep_is_one_thread (ready rcPubReady : Bool) (events : List (JointEvent F))
    (j : Joint F D R E)
    (hundisturbed : Guarded.Ok (jointStep gen ready) Undisturbed (jointBoot gen rcPubReady) events)
    (hrun : Guarded.run (jointStep gen ready) (jointBoot gen rcPubReady) events = some j)
    (i : Nat) (outputs : Outputs F) (hresponse : j.sys.coordinator.responses[i]? = some outputs)
    (answer : MotorValues F × Bool) :
    (outputs .pwmSignalOutputs).bind (fun p => motorOutput p.call) = some answer ↔
      SoloAnswers gen ready j.requests i answer := by
  have hkeeps (s : Joint F D R E) (e : JointEvent F) (t : Joint F D R E) (hallowed : Undisturbed s e)
      (h : s.Inv ready ∧ s.OneThread gen ready) (hstep : jointStep gen ready s e = some t) :
      t.Inv ready ∧ t.OneThread gen ready := by
    cases e with
    | control env =>
        exact ⟨h.1.control gen hstep, h.2.controlled h.1 hallowed hstep⟩
    | coordinator ask uptime =>
        exact ⟨h.1.coordinate hallowed hstep, h.2.coordinate hstep⟩
    | waitFailed =>
        refine ⟨jointStep_inv gen ready s .waitFailed t trivial h.1 hstep, ?_⟩
        simp only [jointStep, step] at hstep
        split at hstep
        · split at hstep <;> cases hstep
          exact ⟨h.2.control, h.2.behind, h.2.owed, h.2.newest, h.2.motor, h.2.shared,
            h.2.responses⟩
        · cases hstep
    | terminate =>
        refine ⟨jointStep_inv gen ready s .terminate t trivial h.1 hstep, ?_⟩
        cases hstep
        exact ⟨h.2.control, h.2.behind, h.2.owed, h.2.newest, h.2.motor, h.2.shared,
          h.2.responses⟩
  obtain ⟨hinv, hone⟩ := Guarded.ok_keeps (jointStep gen ready) hkeeps
    ⟨jointBoot_inv gen ready rcPubReady, jointBoot_oneThread rcPubReady⟩ hundisturbed hrun
  obtain ⟨p, hp, hinput⟩ := hinv.sys.responses i outputs hresponse
  obtain ⟨a, ha, hanswer⟩ := hone.responses outputs (List.mem_of_getElem? hresponse) p i hp hinput
  rw [hp, Option.bind_some, ha]
  constructor
  · intro heq
    obtain rfl := Option.some.inj heq
    exact hanswer
  · intro hother
    rw [hanswer.unique hother]

end Machine

/-! ## A response -/

instance (j : Joint Rat Rat Unit Unit) : (e : JointEvent Rat) → Decidable (Undisturbed j e)
  | .control _ => inferInstanceAs (Decidable (_ ∧ _))
  | .coordinator ask uptime => inferInstanceAs (Decidable (JointPast j (.coordinator ask uptime)))
  | .waitFailed | .terminate => isTrue trivial

theorem lockstep_is_one_thread_bench :
    ∃ j, Guarded.run (jointStep benchGenerated true) (jointBoot benchGenerated true) benchJoint
        = some j ∧
      ∃ outputs, j.sys.coordinator.responses[0]? = some outputs ∧
        ∀ answer, (outputs .pwmSignalOutputs).bind (fun p => motorOutput p.call) = some answer ↔
          SoloAnswers benchGenerated true j.requests 0 answer := by
  obtain ⟨j, hrun, hanswered⟩ : ∃ j, Guarded.run (jointStep benchGenerated true)
      (jointBoot benchGenerated true) benchJoint = some j ∧
        j.sys.coordinator.responses.length = 1 :=
    Guarded.run_any _ (by decide +kernel)
  have hundisturbed : Guarded.Ok (jointStep benchGenerated true) Undisturbed
      (jointBoot benchGenerated true) benchJoint := by
    decide +kernel
  have hlt : 0 < j.sys.coordinator.responses.length := by omega
  have hresponse := List.getElem?_eq_getElem hlt
  exact ⟨j, hrun, _, hresponse, lockstep_is_one_thread benchGenerated true true benchJoint j
    hundisturbed hrun 0 _ hresponse⟩

end Rdd2.Lockstep
