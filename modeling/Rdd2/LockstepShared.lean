import Mathlib.Data.Finset.Basic
import Mathlib.Data.Fintype.Basic
import Rdd2.LockstepFlight

/-!
# The shared memory of an exchange

`Transport::open` and `Transport::exchange` of the ground tool
(`shared_memory.rs`) against the two threads of the lockstep exchange, over the
memory they both map. A host writes its payload, stores the next sequence number
in `input_sequence` and takes the outputs when it finds that number in
`response_sequence`; the coordinator wakes when `input_sequence` is not the
number it took last, and answers with the number it took. One host is attached
at a time; it can stop anywhere. Payloads and outputs are copied word by word,
in any order.

What lies between the wake and the answer is the coordinator of `Lockstep`, and
a run is one of its runs (`run_threads`). A payload word carries the number of
the `exchange` call that wrote it, and an output word the publication it is
part of; no step reads either.
-/

namespace Rdd2.SharedMemory

open Lockstep

/-! ## State -/

/-- A word of the payload, and the exchange that wrote it. -/
structure InputCell (V : Type) where
  value : V
  exchange : Nat
  deriving DecidableEq, Repr, Inhabited

def own {m : Nat} {V : Type} (exchange : Nat) (payload : Fin m → V) : Fin m → InputCell V :=
  fun i => ⟨payload i, exchange⟩

/-- A word of the outputs: `k + 1` of them a topic. -/
abbrev Word (k : Nat) : Type := Topic × Fin (k + 1)

/-- `struct rdd2_lockstep_shared`, but for `terminate`. -/
structure Memory (m k : Nat) (V F : Type) where
  inputSequence : UInt32
  responseSequence : UInt32
  input : Fin m → InputCell V
  output : Word k → Option (Publication F)

/-- Where a host is in `exchange`. -/
inductive HostPc (m k : Nat) (V F : Type) where
  /-- Between two calls. -/
  | idle
  /-- Copying the inputs; `written` words are done. -/
  | writing (payload : Fin m → V) (written : Finset (Fin m))
  /-- Waiting for `response_sequence`. -/
  | waiting (payload : Fin m → V)
  /-- Copying the outputs. -/
  | reading (payload : Fin m → V) (read : Finset (Word k)) (outputs : Word k → Option (Publication F))

/-- A `Transport`, and the number of the call it is in. -/
structure Host (m k : Nat) (V F : Type) where
  pc : HostPc m k V F
  sequence : UInt32
  exchange : Nat

/-- The coordinator's copy of a payload, `copied` words of it made. -/
structure Copying (m : Nat) (V : Type) where
  copied : Finset (Fin m)
  cells : Fin m → InputCell V

/-- The threads, with what the coordinator has in hand of the shared memory: the
sequence number it woke with last, its copy of the payload while it makes one,
and the words of the outputs it has written. `taken` are the payloads that were
accepted so far. -/
structure Firmware (m k : Nat) (V F D R E : Type) where
  threads : Lockstep.System F D R E
  last : UInt32
  copying : Option (Copying m V)
  written : Finset (Word k)
  taken : List (Fin m → InputCell V)

/-- A call of `exchange` that returned outputs. -/
structure Result (m k : Nat) (V F : Type) where
  exchange : Nat
  payload : Fin m → V
  outputs : Word k → Option (Publication F)

structure System (m k : Nat) (V F D R E : Type) where
  memory : Memory m k V F
  host : Option (Host m k V F)
  firmware : Firmware m k V F D R E
  exchanges : Nat
  results : List (Result m k V F)

inductive Event (m k : Nat) (V F : Type) where
  /-- `Transport::open` -/
  | attach
  /-- The host is killed, wherever it is. -/
  | detach
  /-- `Drop` of the `Transport`. -/
  | drop
  /-- `exchange` is called. -/
  | call (payload : Fin m → V)
  | hostWrite (i : Fin m)
  | hostPublish
  | hostPoll
  /-- `exchange` gives up waiting. -/
  | timeout
  | hostRead (w : Word k)
  | hostReturn
  /-- A step of the control thread. -/
  | control (env : CycleInput F)
  /-- `cerebri_lockstep_sequence_wait` returns an error. -/
  | waitFailed
  /-- `cerebri_lockstep_sequence_wait` returns with an input. -/
  | wake
  | copy (i : Fin m)
  /-- The payload is copied: it is decoded and goes to the control thread. -/
  | take
  /-- A later step of the coordinator. -/
  | coordinate
  | write (w : Word k)

/-! ## Steps of the host -/

/-- `wrapping_add(1)`, and once more where that gives zero. -/
def nextSequence (sequence : UInt32) : UInt32 := if sequence + 1 = 0 then 1 else sequence + 1

def hostTopics : List Topic := [.pwmSignalOutputs, .vehicleHealth]

section Shared

variable {m k : Nat} {V F D R E : Type}

def hostStep (s : System m k V F D R E) (host : Host m k V F) :
    Event m k V F → Option (System m k V F D R E)
  | .detach => some { s with host := none }
  | .drop =>
      match host.pc with
      | .idle => some { s with
          host := none
          firmware := { s.firmware with threads := { s.firmware.threads with terminate := true } } }
      | _ => none
  | .call payload =>
      match host.pc with
      | .idle => some { s with
          host := some { host with pc := .writing payload ∅, exchange := s.exchanges + 1 }
          exchanges := s.exchanges + 1 }
      | _ => none
  | .hostWrite i =>
      match host.pc with
      | .writing payload written => some { s with
          memory := { s.memory with
            input := Function.update s.memory.input i ⟨payload i, host.exchange⟩ }
          host := some { host with pc := .writing payload (insert i written) } }
      | _ => none
  | .hostPublish =>
      match host.pc with
      | .writing payload written =>
          if written = Finset.univ then some { s with
            memory := { s.memory with inputSequence := nextSequence host.sequence }
            host := some { host with
              pc := .waiting payload
              sequence := nextSequence host.sequence } }
          else none
      | _ => none
  | .hostPoll =>
      match host.pc with
      | .waiting payload =>
          if s.memory.responseSequence = host.sequence then some { s with
            host := some { host with pc := .reading payload ∅ fun _ => none } }
          else some s
      | _ => none
  | .timeout =>
      match host.pc with
      | .waiting _ => some { s with host := some { host with pc := .idle } }
      | _ => none
  | .hostRead w =>
      match host.pc with
      | .reading payload read outputs =>
          if w.1 ∈ hostTopics then some { s with
            host := some { host with
              pc := .reading payload (insert w read)
                (Function.update outputs w (s.memory.output w)) } }
          else none
      | _ => none
  | .hostReturn =>
      match host.pc with
      | .reading payload read outputs =>
          if ∀ topic ∈ hostTopics, ∀ j, (topic, j) ∈ read then some { s with
            host := some { host with pc := .idle }
            results := s.results ++ [⟨host.exchange, payload, outputs⟩] }
          else none
      | _ => none
  | _ => none

inductive HostMove (s : System m k V F D R E) (host : Host m k V F) :
    Event m k V F → System m k V F D R E → Prop
  | detach : HostMove s host .detach { s with host := none }
  | drop (hpc : host.pc = .idle) :
      HostMove s host .drop { s with
        host := none
        firmware := { s.firmware with threads := { s.firmware.threads with terminate := true } } }
  | call {payload : Fin m → V} (hpc : host.pc = .idle) :
      HostMove s host (.call payload) { s with
        host := some { host with pc := .writing payload ∅, exchange := s.exchanges + 1 }
        exchanges := s.exchanges + 1 }
  | hostWrite {payload : Fin m → V} {written : Finset (Fin m)} {i : Fin m}
      (hpc : host.pc = .writing payload written) :
      HostMove s host (.hostWrite i) { s with
        memory := { s.memory with
          input := Function.update s.memory.input i ⟨payload i, host.exchange⟩ }
        host := some { host with pc := .writing payload (insert i written) } }
  | hostPublish {payload : Fin m → V} (hpc : host.pc = .writing payload Finset.univ) :
      HostMove s host .hostPublish { s with
        memory := { s.memory with inputSequence := nextSequence host.sequence }
        host := some { host with pc := .waiting payload, sequence := nextSequence host.sequence } }
  | pollOld {payload : Fin m → V} (hpc : host.pc = .waiting payload) : HostMove s host .hostPoll s
  | pollNew {payload : Fin m → V} (hpc : host.pc = .waiting payload)
      (hnew : s.memory.responseSequence = host.sequence) :
      HostMove s host .hostPoll { s with
        host := some { host with pc := .reading payload ∅ fun _ => none } }
  | timeout {payload : Fin m → V} (hpc : host.pc = .waiting payload) :
      HostMove s host .timeout { s with host := some { host with pc := .idle } }
  | hostRead {payload : Fin m → V} {read : Finset (Word k)}
      {outputs : Word k → Option (Publication F)} {w : Word k}
      (hpc : host.pc = .reading payload read outputs) :
      HostMove s host (.hostRead w) { s with
        host := some { host with
          pc := .reading payload (insert w read) (Function.update outputs w (s.memory.output w)) } }
  | hostReturn {payload : Fin m → V} {read : Finset (Word k)}
      {outputs : Word k → Option (Publication F)} (hpc : host.pc = .reading payload read outputs)
      (hall : ∀ topic ∈ hostTopics, ∀ j, (topic, j) ∈ read) :
      HostMove s host .hostReturn { s with
        host := some { host with pc := .idle }
        results := s.results ++ [⟨host.exchange, payload, outputs⟩] }

theorem hostStep_cases {s t : System m k V F D R E} {host : Host m k V F} {e : Event m k V F}
    (hstep : hostStep s host e = some t) : HostMove s host e t := by
  cases e with
  | attach | control | waitFailed | wake | copy | take | coordinate | write => cases hstep
  | detach =>
      cases hstep
      exact .detach
  | drop =>
      cases hpc : host.pc <;> simp only [hostStep, hpc] at hstep <;> cases hstep
      exact .drop hpc
  | call payload =>
      cases hpc : host.pc <;> simp only [hostStep, hpc] at hstep <;> cases hstep
      exact .call hpc
  | hostWrite i =>
      cases hpc : host.pc <;> simp only [hostStep, hpc] at hstep <;> cases hstep
      exact .hostWrite hpc
  | hostPublish =>
      cases hpc : host.pc <;> simp only [hostStep, hpc] at hstep
      case writing payload written =>
        split at hstep
        · rename_i hall
          cases hstep
          exact .hostPublish (hall ▸ hpc)
        · cases hstep
      all_goals cases hstep
  | hostPoll =>
      cases hpc : host.pc <;> simp only [hostStep, hpc] at hstep
      case waiting payload =>
        split at hstep
        · rename_i hnew
          cases hstep
          exact .pollNew hpc hnew
        · cases hstep
          exact .pollOld hpc
      all_goals cases hstep
  | timeout =>
      cases hpc : host.pc <;> simp only [hostStep, hpc] at hstep <;> cases hstep
      exact .timeout hpc
  | hostRead w =>
      cases hpc : host.pc <;> simp only [hostStep, hpc] at hstep
      case reading payload read outputs =>
        split at hstep <;> cases hstep
        exact .hostRead hpc
      all_goals cases hstep
  | hostReturn =>
      cases hpc : host.pc <;> simp only [hostStep, hpc] at hstep
      case reading payload read outputs =>
        split at hstep
        · rename_i hall
          cases hstep
          exact .hostReturn hpc hall
        · cases hstep
      all_goals cases hstep

/-- Only a dropped `Transport` reaches the threads. -/
theorem HostMove.threads {s t : System m k V F D R E} {host : Host m k V F} {e : Event m k V F}
    (hmove : HostMove s host e t) :
    t.firmware.threads = s.firmware.threads ∨
      t.firmware.threads = { s.firmware.threads with terminate := true } := by
  cases hmove with
  | drop hpc => exact Or.inr rfl
  | _ => exact Or.inl rfl

/-! ## Steps of the firmware -/

/-- The topics whose words the coordinator has to write. -/
def writtenTopics (c : Coordinator F) : List Topic :=
  .pwmSignalOutputs :: if c.flight.isSome then flightTopics else []

def working : CoordinatorPc → Bool
  | .sequenceWait | .stopped => false
  | _ => true

/-- A step of the coordinator after its payload is taken. -/
def coordinate (s : System m k V F D R E) (request : Request F) :
    Option (System m k V F D R E) :=
  let c := s.firmware.threads.coordinator
  (coordinatorStep s.firmware.threads request).bind fun threads =>
    match c.pc with
    | .sequenceWait => none
    | .write =>
        if ∀ topic ∈ writtenTopics c, ∀ j, (topic, j) ∈ s.firmware.written then
          some { s with firmware := { s.firmware with threads := threads, written := ∅ } }
        else none
    | .respond =>
        some { s with
          memory := { s.memory with responseSequence := s.firmware.last }
          firmware := { s.firmware with threads := threads } }
    | _ => some { s with firmware := { s.firmware with threads := threads } }

inductive FirmwareMove (s : System m k V F D R E) : System m k V F D R E → Prop
  | control {threads : Lockstep.System F D R E}
      (hcoordinator : threads.coordinator = s.firmware.threads.coordinator)
      (hcount : threads.inputs.count = s.firmware.threads.inputs.count) :
      FirmwareMove s { s with firmware := { s.firmware with threads := threads } }
  | failed {threads : Lockstep.System F D R E}
      (hpc : s.firmware.threads.coordinator.pc = .sequenceWait)
      (hcopying : s.firmware.copying = none)
      (hcoordinator : threads.coordinator =
        { s.firmware.threads.coordinator with pc := .stopped })
      (hcount : threads.inputs.count = s.firmware.threads.inputs.count) :
      FirmwareMove s { s with firmware := { s.firmware with threads := threads } }
  | woken {cells : Fin m → InputCell V}
      (hpc : s.firmware.threads.coordinator.pc = .sequenceWait)
      (hcopying : s.firmware.copying = none) (hnew : s.memory.inputSequence ≠ s.firmware.last) :
      FirmwareMove s { s with firmware := { s.firmware with
        last := s.memory.inputSequence
        copying := some ⟨∅, cells⟩ } }
  | copied {copied : Finset (Fin m)} {cells : Fin m → InputCell V} (i : Fin m)
      (hcopying : s.firmware.copying = some ⟨copied, cells⟩) :
      FirmwareMove s { s with firmware := { s.firmware with
        copying := some ⟨insert i copied, Function.update cells i (s.memory.input i)⟩ } }
  | taken {cells : Fin m → InputCell V} {threads : Lockstep.System F D R E}
      (hpc : s.firmware.threads.coordinator.pc = .sequenceWait)
      (hcopying : s.firmware.copying = some ⟨Finset.univ, cells⟩)
      (hcoordinator : threads.coordinator =
        { s.firmware.threads.coordinator with pc := .semGive })
      (hcount : threads.inputs.count = s.firmware.threads.inputs.count + 1) :
      FirmwareMove s { s with firmware := { s.firmware with
        threads := threads
        copying := none
        taken := s.firmware.taken ++ [cells] } }
  | rejected {cells : Fin m → InputCell V} {threads : Lockstep.System F D R E}
      (hpc : s.firmware.threads.coordinator.pc = .sequenceWait)
      (hcopying : s.firmware.copying = some ⟨Finset.univ, cells⟩)
      (hcoordinator : threads.coordinator =
        { s.firmware.threads.coordinator with pc := .stopped })
      (hcount : threads.inputs.count = s.firmware.threads.inputs.count) :
      FirmwareMove s { s with firmware := { s.firmware with threads := threads, copying := none } }
  | worked {threads : Lockstep.System F D R E}
      (hpc : working s.firmware.threads.coordinator.pc = true)
      (hresponses : threads.coordinator.responses = s.firmware.threads.coordinator.responses)
      (hshared : threads.coordinator.shared = s.firmware.threads.coordinator.shared)
      (hcount : threads.inputs.count = s.firmware.threads.inputs.count)
      (hnext : threads.coordinator.pc = .stopped ∨ working threads.coordinator.pc = true)
      (hbefore : s.firmware.threads.coordinator.pc ≠ .write) :
      FirmwareMove s { s with firmware := { s.firmware with threads := threads } }
  | word (w : Word k) (hpc : s.firmware.threads.coordinator.pc = .write)
      (hw : w.1 ∈ writtenTopics s.firmware.threads.coordinator) :
      FirmwareMove s { s with
        memory := { s.memory with
          output := Function.update s.memory.output w
            (s.firmware.threads.coordinator.written w.1) }
        firmware := { s.firmware with written := insert w s.firmware.written } }
  | written {threads : Lockstep.System F D R E}
      (hpc : s.firmware.threads.coordinator.pc = .write)
      (hall : ∀ topic ∈ writtenTopics s.firmware.threads.coordinator, ∀ j,
        (topic, j) ∈ s.firmware.written)
      (hcoordinator : threads.coordinator = { s.firmware.threads.coordinator with
        shared := s.firmware.threads.coordinator.written, pc := .respond })
      (hcount : threads.inputs.count = s.firmware.threads.inputs.count) :
      FirmwareMove s { s with
        firmware := { s.firmware with threads := threads, written := ∅ } }
  | responded {threads : Lockstep.System F D R E}
      (hpc : s.firmware.threads.coordinator.pc = .respond)
      (hcoordinator : threads.coordinator = { s.firmware.threads.coordinator with
        responses := s.firmware.threads.coordinator.responses ++
          [s.firmware.threads.coordinator.shared]
        pc := .sequenceWait })
      (hcount : threads.inputs.count = s.firmware.threads.inputs.count) :
      FirmwareMove s { s with
        memory := { s.memory with responseSequence := s.firmware.last }
        firmware := { s.firmware with threads := threads } }

/-- Before the outputs are written, a step of the coordinator changes neither the
responses nor what is shared. -/
theorem coordinatorStep_worked {s t : Lockstep.System F D R E} {request : Request F}
    (hstep : coordinatorStep s request = some t) (hpc : working s.coordinator.pc = true)
    (hwrite : s.coordinator.pc ≠ .write) (hrespond : s.coordinator.pc ≠ .respond) :
    t.coordinator.responses = s.coordinator.responses ∧
      t.coordinator.shared = s.coordinator.shared ∧ t.inputs.count = s.inputs.count ∧
      (t.coordinator.pc = .stopped ∨ working t.coordinator.pc = true) := by
  cases coordinatorStep_cases hstep with
  | take hwait | reject hwait =>
      rw [hwait] at hpc
      cases hpc
  | write hat => exact absurd hat hwrite
  | respond hat => exact absurd hat hrespond
  | exit => exact ⟨rfl, rfl, rfl, Or.inl rfl⟩
  | _ => exact ⟨rfl, rfl, rfl, Or.inr rfl⟩

theorem coordinate_cases {s t : System m k V F D R E} {request : Request F}
    (hstep : coordinate s request = some t) : FirmwareMove s t := by
  obtain ⟨threads, hthreads, hstep⟩ := Option.bind_eq_some_iff.mp hstep
  split at hstep
  · cases hstep
  · rename_i hpc
    split at hstep
    · rename_i hall
      cases hstep
      cases coordinatorStep_cases hthreads with
      | write => exact .written hpc hall rfl rfl
      | _ => simp_all
    · cases hstep
  · rename_i hpc
    cases hstep
    cases coordinatorStep_cases hthreads with
    | respond => exact .responded hpc rfl rfl
    | _ => simp_all
  · rename_i hwait hwrite hrespond
    cases hstep
    have hworking : working s.firmware.threads.coordinator.pc = true := by
      cases hpc : s.firmware.threads.coordinator.pc with
      | sequenceWait => exact absurd hpc hwait
      | stopped =>
          simp only [coordinatorStep, hpc] at hthreads
          cases hthreads
      | _ => rfl
    obtain ⟨hresponses, hshared, hcount, hnext⟩ := coordinatorStep_worked hthreads hworking
      hwrite hrespond
    exact .worked hworking hresponses hshared hcount hnext hwrite

theorem coordinate_threads {s t : System m k V F D R E} {request : Request F}
    (hstep : coordinate s request = some t) :
    coordinatorStep s.firmware.threads request = some t.firmware.threads := by
  obtain ⟨threads, hthreads, hstep⟩ := Option.bind_eq_some_iff.mp hstep
  split at hstep
  · cases hstep
  · split at hstep <;> cases hstep
    exact hthreads
  · cases hstep
    exact hthreads
  · cases hstep
    exact hthreads

/-! ## The system -/

/-- The coordinator does not look for motor outputs while there are only those of
the initialisation, nor reads the flight state in the middle of a publication. -/
def Settled (s : System m k V F D R E) : Event m k V F → Prop
  | .coordinate =>
      (s.firmware.threads.coordinator.pc = .motorGeneration →
        (s.firmware.threads.topics .pwmSignalOutputs).count ≠ 1) ∧
      (s.firmware.threads.coordinator.pc.readsFlight = true →
        s.firmware.threads.control.quiet = true)
  | _ => True

variable [CFloat F] [CFloat D] [CDouble F D] (gen : Generated D R E)
variable [Inhabited V] (decode : (Fin m → V) → Request F)

/-- A step of the firmware; `decode` is `csyn_decode_manual_control` and
`rdd2_lockstep_handle_input_blob`, as far as they tell whether the payload is
accepted and which sample it has. -/
def firmwareStep (s : System m k V F D R E) :
    Event m k V F → Option (System m k V F D R E)
  | .control env =>
      (controlStep gen s.firmware.threads env).map fun threads =>
        { s with firmware := { s.firmware with threads := threads } }
  | .waitFailed =>
      match s.firmware.copying with
      | none =>
          (Lockstep.step gen s.firmware.threads .waitFailed).map fun threads =>
            { s with firmware := { s.firmware with threads := threads } }
      | some _ => none
  | .wake =>
      match s.firmware.copying with
      | none =>
          if s.firmware.threads.coordinator.pc = .sequenceWait ∧
              s.memory.inputSequence ≠ s.firmware.last then
            some { s with firmware := { s.firmware with
              last := s.memory.inputSequence
              copying := some ⟨∅, fun _ => default⟩ } }
          else none
      | some _ => none
  | .copy i =>
      match s.firmware.copying with
      | some ⟨copied, cells⟩ => some { s with firmware := { s.firmware with
          copying := some ⟨insert i copied, Function.update cells i (s.memory.input i)⟩ } }
      | none => none
  | .take =>
      match s.firmware.copying with
      | some ⟨copied, cells⟩ =>
          if s.firmware.threads.coordinator.pc = .sequenceWait ∧ copied = Finset.univ then
            let request := decode fun i => (cells i).value
            (coordinatorStep s.firmware.threads request).map fun threads =>
              { s with firmware := { s.firmware with
                threads := threads
                copying := none
                taken := if request.manualOk && request.sample.decodable then
                  s.firmware.taken ++ [cells] else s.firmware.taken } }
          else none
      | none => none
  -- only a coordinator in its wait looks at a request
  | .coordinate => coordinate s (decode fun i => (s.memory.input i).value)
  | .write w =>
      if s.firmware.threads.coordinator.pc = .write ∧
          w.1 ∈ writtenTopics s.firmware.threads.coordinator then
        some { s with
          memory := { s.memory with
            output := Function.update s.memory.output w
              (s.firmware.threads.coordinator.written w.1) }
          firmware := { s.firmware with written := insert w s.firmware.written } }
      else none
  | _ => none

theorem firmwareStep_cases {s t : System m k V F D R E} {e : Event m k V F}
    (hstep : firmwareStep gen decode s e = some t) : FirmwareMove s t := by
  cases e with
  | attach | detach | drop | call | hostWrite | hostPublish | hostPoll | timeout | hostRead
  | hostReturn => cases hstep
  | control env =>
      obtain ⟨threads, hthreads, rfl⟩ := Option.map_eq_some_iff.mp hstep
      obtain ⟨hcoordinator, hcount⟩ := controlStep_coordinator gen hthreads
      exact .control hcoordinator hcount
  | waitFailed =>
      simp only [firmwareStep] at hstep
      split at hstep
      · rename_i hcopying
        obtain ⟨threads, hthreads, rfl⟩ := Option.map_eq_some_iff.mp hstep
        simp only [Lockstep.step] at hthreads
        split at hthreads
        · rename_i hpc
          cases hthreads
          exact .failed hpc hcopying rfl rfl
        · cases hthreads
      · cases hstep
  | wake =>
      simp only [firmwareStep] at hstep
      split at hstep
      · rename_i hcopying
        split at hstep
        · rename_i hnew
          cases hstep
          exact .woken hnew.1 hcopying hnew.2
        · cases hstep
      · cases hstep
  | copy i =>
      simp only [firmwareStep] at hstep
      split at hstep
      · rename_i copied cells hcopying
        cases hstep
        exact .copied i hcopying
      · cases hstep
  | take =>
      simp only [firmwareStep] at hstep
      split at hstep
      · rename_i copied cells hcopying
        split at hstep
        · rename_i hready
          obtain ⟨hpc, rfl⟩ := hready
          obtain ⟨threads, hthreads, rfl⟩ := Option.map_eq_some_iff.mp hstep
          cases coordinatorStep_cases hthreads with
          | take _ hok =>
              rw [if_pos hok]
              exact .taken hpc hcopying rfl rfl
          | reject _ hbad =>
              rw [hbad]
              exact .rejected hpc hcopying rfl rfl
          | _ => simp_all
        · cases hstep
      · cases hstep
  | coordinate => exact coordinate_cases hstep
  | write w =>
      simp only [firmwareStep] at hstep
      split at hstep
      · rename_i hready
        cases hstep
        exact .word w hready.1 hready.2
      · cases hstep

def step (s : System m k V F D R E) (e : Event m k V F) : Option (System m k V F D R E) :=
  match e with
  | .attach =>
      match s.host with
      | none => some { s with host := some ⟨.idle, s.memory.responseSequence, 0⟩ }
      | some _ => none
  | .detach | .drop | .call _ | .hostWrite _ | .hostPublish | .hostPoll | .timeout | .hostRead _
  | .hostReturn => s.host.bind fun host => hostStep s host e
  | .control _ | .waitFailed | .wake | .copy _ | .take | .coordinate | .write _ =>
      firmwareStep gen decode s e

/-- The firmware has initialised the memory; no host is attached. -/
def boot : System m k V F D R E where
  memory :=
    { inputSequence := 0
      responseSequence := 0
      input := fun _ => default
      output := fun _ => none }
  host := none
  firmware :=
    { threads := Lockstep.boot gen
      last := 0
      copying := none
      written := ∅
      taken := [] }
  exchanges := 0
  results := []

/-! ## The threads of a run -/

/-- A step leaves the threads as they are or is a step of theirs. -/
theorem step_threads {s t : System m k V F D R E} {e : Event m k V F} (hsettled : Settled s e)
    (hstep : step gen decode s e = some t) :
    t.firmware.threads = s.firmware.threads ∨ ∃ e',
      (PastInitial s.firmware.threads e' ∧ FlightQuiet s.firmware.threads e') ∧
        Lockstep.step gen s.firmware.threads e' = some t.firmware.threads := by
  cases e with
  | attach =>
      cases hhost : s.host <;> simp only [step, hhost] at hstep <;> cases hstep
      exact Or.inl rfl
  | detach | drop | call | hostWrite | hostPublish | hostPoll | timeout | hostRead | hostReturn =>
      obtain ⟨host, hhost, hstep⟩ := Option.bind_eq_some_iff.mp hstep
      rcases (hostStep_cases hstep).threads with hsame | hterminated
      · exact Or.inl hsame
      · exact Or.inr ⟨.terminate, ⟨trivial, trivial⟩, congrArg some hterminated.symm⟩
  | control env =>
      obtain ⟨threads, hthreads, rfl⟩ := Option.map_eq_some_iff.mp hstep
      exact Or.inr ⟨.control env, ⟨trivial, trivial⟩, hthreads⟩
  | waitFailed =>
      simp only [step, firmwareStep] at hstep
      split at hstep
      · obtain ⟨threads, hthreads, rfl⟩ := Option.map_eq_some_iff.mp hstep
        exact Or.inr ⟨.waitFailed, ⟨trivial, trivial⟩, hthreads⟩
      · cases hstep
  | wake =>
      simp only [step, firmwareStep] at hstep
      split at hstep
      · split at hstep <;> cases hstep
        exact Or.inl rfl
      · cases hstep
  | copy i =>
      simp only [step, firmwareStep] at hstep
      split at hstep <;> cases hstep
      exact Or.inl rfl
  | take =>
      simp only [step, firmwareStep] at hstep
      split at hstep
      · split at hstep
        · rename_i hready
          obtain ⟨threads, hthreads, rfl⟩ := Option.map_eq_some_iff.mp hstep
          refine Or.inr ⟨.coordinator _, ⟨fun hpc => ?_, fun hreads => ?_⟩, hthreads⟩
          · cases hpc.symm.trans hready.1
          · rw [hready.1] at hreads
            cases hreads
        · cases hstep
      · cases hstep
  | coordinate => exact Or.inr ⟨.coordinator _, hsettled, coordinate_threads hstep⟩
  | write w =>
      simp only [step, firmwareStep] at hstep
      split at hstep <;> cases hstep
      exact Or.inl rfl

/-- The threads of a run make one of the runs of `Lockstep`. -/
theorem run_threads {events : List (Event m k V F)} {s : System m k V F D R E}
    (hsettled : Guarded.Ok (step gen decode) Settled (boot gen) events)
    (hrun : Guarded.run (step gen decode) (boot gen) events = some s) :
    ∃ threadEvents,
      Guarded.Ok (Lockstep.step gen) (fun s e => PastInitial s e ∧ FlightQuiet s e)
        (Lockstep.boot gen) threadEvents ∧
      Guarded.run (Lockstep.step gen) (Lockstep.boot gen) threadEvents =
        some s.firmware.threads :=
  Guarded.run_simulates (step gen decode) (f := fun s => s.firmware.threads)
    (fun _ _ _ => step_threads gen decode) hsettled hrun

end Shared

end Rdd2.SharedMemory
