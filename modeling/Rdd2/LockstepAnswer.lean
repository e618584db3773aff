import Rdd2.LockstepShared

/-!
# Whose answer an exchange returns

A host that attaches takes its first number from `response_sequence`, the last
one answered, and so takes the number of an exchange that its predecessor left
unanswered (`predecessor_answer_taken`). While no host stores a number that the
firmware took last or answered last, what an exchange returns is the response
to its own payload (`result_is_response`); whether that was computed from the
payload is up to the threads (`result_is_own_answer`).

The invariant follows the payload of the host that waits: its number is not
taken yet, or it is being handled, or it is answered and nothing moves but the
control thread until the host has copied the outputs (`Stage`).
-/

namespace Rdd2.SharedMemory

open Lockstep

section Answer

variable {m k : Nat} {V F D R E : Type}

/-! ## The invariant -/

/-- The payload was taken, and the outputs are the response to it. -/
def Firmware.Answered (f : Firmware m k V F D R E) (cells : Fin m → InputCell V)
    (outputs : Outputs F) : Prop :=
  ∃ i : Nat, f.taken[i]? = some cells ∧ f.threads.coordinator.responses[i]? = some outputs

/-- The firmware took the payload under this number and has answered it. -/
def Firmware.Served (f : Firmware m k V F D R E) (sequence : UInt32)
    (cells : Fin m → InputCell V) : Prop :=
  f.last = sequence ∧ f.copying = none ∧ working f.threads.coordinator.pc = false ∧
    f.Answered cells f.threads.coordinator.shared

/-- It took it and has not answered yet. -/
def Firmware.Handling (f : Firmware m k V F D R E) (sequence : UInt32)
    (cells : Fin m → InputCell V) : Prop :=
  f.last = sequence ∧
    match f.copying with
    | some copying => ∀ i ∈ copying.copied, copying.cells i = cells i
    | none =>
        working f.threads.coordinator.pc = true ∧ f.taken.getLast? = some cells

/-- How far the firmware is with the payload whose number the host stored; one
that has stopped comes no further. -/
def Stage (s : System m k V F D R E) (sequence : UInt32) (cells : Fin m → InputCell V) : Prop :=
  s.firmware.Served sequence cells ∨
    (s.memory.responseSequence ≠ sequence ∧
      (s.firmware.Handling sequence cells ∨ s.firmware.last ≠ sequence ∨
        s.firmware.threads.coordinator.pc = .stopped))

def HostInv (s : System m k V F D R E) (host : Host m k V F) : Prop :=
  match host.pc with
  | .idle => True
  | .writing payload written =>
      ∀ i ∈ written, s.memory.input i = own host.exchange payload i
  | .waiting payload =>
      s.memory.inputSequence = host.sequence ∧ s.memory.input = own host.exchange payload ∧
        Stage s host.sequence (own host.exchange payload)
  | .reading payload read outputs =>
      s.memory.inputSequence = host.sequence ∧
        s.firmware.Served host.sequence (own host.exchange payload) ∧
        ∀ w ∈ read, outputs w = s.firmware.threads.coordinator.shared w.1

/-- The payloads taken and not answered, by where the coordinator is. -/
def Unanswered (pc : CoordinatorPc) (taken responses : Nat) : Prop :=
  match pc with
  | .sequenceWait => taken = responses
  | .stopped => True
  | _ => taken = responses + 1

/-- Words are written one by one, and shared when they all are. -/
structure Firmware.Inv (f : Firmware m k V F D R E) (output : Word k → Option (Publication F)) :
    Prop where
  counted : f.taken.length = f.threads.inputs.count
  unanswered : Unanswered f.threads.coordinator.pc f.taken.length
    f.threads.coordinator.responses.length
  copying : f.copying ≠ none → f.threads.coordinator.pc = .sequenceWait
  output : ∀ w, output w =
    if w ∈ f.written then f.threads.coordinator.written w.1 else f.threads.coordinator.shared w.1
  written : f.threads.coordinator.pc ≠ .write → f.written = ∅

/-- The result is what the firmware answered to the payload of its own call. -/
def Result.Answered (r : Result m k V F) (f : Firmware m k V F D R E) : Prop :=
  ∃ outputs, f.Answered (own r.exchange r.payload) outputs ∧
    ∀ topic ∈ hostTopics, ∀ j, r.outputs (topic, j) = outputs topic

structure Inv (s : System m k V F D R E) : Prop where
  firmware : s.firmware.Inv s.memory.output
  host : ∀ host, s.host = some host → HostInv s host
  results : ∀ r ∈ s.results, r.Answered s.firmware

/-- The number that is stored next is neither the one the firmware took last
nor the one it answered last. -/
def FreshNumber (s : System m k V F D R E) : Event m k V F → Prop
  | .hostPublish => ∀ host, s.host = some host →
      nextSequence host.sequence ≠ s.firmware.last ∧
        nextSequence host.sequence ≠ s.memory.responseSequence
  | _ => True

theorem update_agrees {I A : Type} [DecidableEq I] {done : Finset I} {f g : I → A}
    (h : ∀ i ∈ done, f i = g i) (i : I) : ∀ j ∈ insert i done, Function.update f i (g i) j = g j := by
  intro j hj
  by_cases heq : j = i
  · rw [heq, Function.update_self]
  · rw [Function.update_of_ne heq]
    exact h j (Finset.mem_of_mem_insert_of_ne hj heq)

/-- Between two exchanges the words are those shared. -/
theorem Firmware.Inv.output_eq {f : Firmware m k V F D R E}
    {output : Word k → Option (Publication F)} (h : f.Inv output)
    (hpc : working f.threads.coordinator.pc = false) (w : Word k) :
    output w = f.threads.coordinator.shared w.1 := by
  have hempty : f.written = ∅ := by
    refine h.written fun hwrite => ?_
    rw [hwrite] at hpc
    cases hpc
  rw [h.output w, hempty, if_neg (Finset.notMem_empty w)]

/-! ## What the host keeps -/

/-- A step of the host that returns nothing. -/
theorem Inv.host_step {s : System m k V F D R E} (h : Inv s) {memory : Memory m k V F}
    {host : Host m k V F} {exchanges : Nat} (houtput : memory.output = s.memory.output)
    (hinv : HostInv { s with memory := memory, host := some host, exchanges := exchanges } host) :
    Inv { s with memory := memory, host := some host, exchanges := exchanges } := by
  refine ⟨houtput ▸ h.firmware, ?_, h.results⟩
  intro host' heq
  obtain rfl := Option.some.inj heq
  exact hinv

theorem Inv.hostMove {s t : System m k V F D R E} {host : Host m k V F} {e : Event m k V F}
    (h : Inv s) (hhost : s.host = some host) (hfresh : FreshNumber s e)
    (hmove : HostMove s host e t) : Inv t := by
  have hinv := h.host host hhost
  cases hmove with
  | detach => exact ⟨h.firmware, nofun, h.results⟩
  | drop hpc =>
      refine ⟨?_, nofun, h.results⟩
      exact ⟨h.firmware.counted, h.firmware.unanswered, h.firmware.copying, h.firmware.output,
        h.firmware.written⟩
  | call hpc => exact h.host_step rfl fun i hi => absurd hi (Finset.notMem_empty i)
  | hostWrite hpc =>
      simp only [HostInv, hpc] at hinv
      exact h.host_step rfl (update_agrees hinv _)
  | hostPublish hpc =>
      simp only [HostInv, hpc] at hinv
      obtain ⟨hlast, hresponse⟩ := hfresh host hhost
      exact h.host_step rfl ⟨rfl, funext fun i => hinv i (Finset.mem_univ i),
        Or.inr ⟨hresponse.symm, Or.inr (Or.inl hlast.symm)⟩⟩
  | pollOld hpc => exact h
  | pollNew hpc hnew =>
      simp only [HostInv, hpc] at hinv
      obtain ⟨hnumber, -, hserved | ⟨hold, -⟩⟩ := hinv
      · exact h.host_step rfl
          ⟨hnumber, hserved, fun w hw => absurd hw (Finset.notMem_empty w)⟩
      · exact absurd hnew hold
  | timeout hpc => exact h.host_step rfl trivial
  | hostRead hpc =>
      simp only [HostInv, hpc] at hinv
      obtain ⟨hnumber, hserved, hread⟩ := hinv
      refine h.host_step rfl ⟨hnumber, hserved, ?_⟩
      rw [h.firmware.output_eq hserved.2.2.1]
      exact update_agrees (g := fun w : Word k => s.firmware.threads.coordinator.shared w.1) hread _
  | hostReturn hpc hall =>
      simp only [HostInv, hpc] at hinv
      obtain ⟨hnumber, hserved, hread⟩ := hinv
      refine ⟨h.firmware, ?_, ?_⟩
      · rintro _ ⟨⟩
        trivial
      · intro r hr
        rcases List.mem_append.mp hr with hr | hr
        · exact h.results r hr
        · obtain rfl := List.mem_singleton.mp hr
          exact ⟨_, hserved.2.2.2, fun topic htopic j => hread _ (hall topic htopic j)⟩

/-! ## What the firmware keeps -/

theorem FirmwareMove.frame {s t : System m k V F D R E} (hmove : FirmwareMove s t) :
    t.host = s.host ∧ t.memory.input = s.memory.input ∧
      t.memory.inputSequence = s.memory.inputSequence ∧ t.results = s.results := by
  cases hmove <;> exact ⟨rfl, rfl, rfl, rfl⟩

theorem FirmwareMove.grows {s t : System m k V F D R E} (hmove : FirmwareMove s t) :
    s.firmware.taken <+: t.firmware.taken ∧
      s.firmware.threads.coordinator.responses <+: t.firmware.threads.coordinator.responses := by
  cases hmove with
  | control hcoordinator | failed hpc hcopying hcoordinator | rejected hpc hcopying hcoordinator
  | written hpc hall hcoordinator =>
      rw [hcoordinator]
      exact ⟨List.prefix_rfl, List.prefix_rfl⟩
  | taken hpc hcopying hcoordinator =>
      rw [hcoordinator]
      exact ⟨List.prefix_append _ _, List.prefix_rfl⟩
  | worked hpc hresponses =>
      rw [hresponses]
      exact ⟨List.prefix_rfl, List.prefix_rfl⟩
  | responded hpc hcoordinator =>
      rw [hcoordinator]
      exact ⟨List.prefix_rfl, List.prefix_append _ _⟩
  | woken | copied | word => exact ⟨List.prefix_rfl, List.prefix_rfl⟩

theorem getElem?_of_prefix {A : Type} {as bs : List A} (h : as <+: bs) {i : Nat} {a : A}
    (ha : as[i]? = some a) : bs[i]? = some a := by
  obtain ⟨more, rfl⟩ := h
  rw [List.getElem?_append_left (List.getElem?_eq_some_iff.mp ha).1]
  exact ha

theorem FirmwareMove.answered {s t : System m k V F D R E} (hmove : FirmwareMove s t)
    {cells : Fin m → InputCell V} {outputs : Outputs F}
    (h : s.firmware.Answered cells outputs) : t.firmware.Answered cells outputs := by
  obtain ⟨i, htaken, hresponse⟩ := h
  obtain ⟨htakens, hresponses⟩ := hmove.grows
  exact ⟨i, getElem?_of_prefix htakens htaken, getElem?_of_prefix hresponses hresponse⟩

/-- With nothing left of the exchange, only the control thread moves, or the wait fails. -/
theorem FirmwareMove.served {s t : System m k V F D R E} (hmove : FirmwareMove s t)
    {cells : Fin m → InputCell V} (h : s.firmware.Served s.memory.inputSequence cells) :
    t.firmware.Served s.memory.inputSequence cells ∧
      t.firmware.threads.coordinator.shared = s.firmware.threads.coordinator.shared := by
  obtain ⟨hlast, hcopying, hworking, hanswered⟩ := h
  have hanswered := hmove.answered hanswered
  cases hmove with
  | control hcoordinator =>
      rw [Firmware.Served, hcoordinator]
      exact ⟨⟨hlast, hcopying, hworking, hanswered⟩, rfl⟩
  | failed hpc hnone hcoordinator =>
      rw [Firmware.Served, hcoordinator]
      exact ⟨⟨hlast, hcopying, rfl, hanswered⟩, rfl⟩
  | woken hpc hnone hnew => exact absurd hlast.symm hnew
  | copied i hsome | taken hpc hsome | rejected hpc hsome => cases hcopying.symm.trans hsome
  | worked hpc => cases hpc.symm.trans hworking
  | word w hpc | written hpc | responded hpc =>
      rw [hpc] at hworking
      cases hworking

theorem Firmware.Inv.handling {f : Firmware m k V F D R E}
    {output : Word k → Option (Publication F)} (h : f.Inv output)
    (hpc : working f.threads.coordinator.pc = true) {sequence : UInt32}
    {cells : Fin m → InputCell V} (hhandling : f.Handling sequence cells) :
    f.last = sequence ∧ f.copying = none ∧ f.taken.getLast? = some cells := by
  have hnone : f.copying = none := by
    by_contra hsome
    rw [h.copying hsome] at hpc
    cases hpc
  simp only [Firmware.Handling, hnone] at hhandling
  exact ⟨hhandling.1, hnone, hhandling.2.2⟩

theorem Firmware.Handling.of_taken {f : Firmware m k V F D R E} {sequence : UInt32}
    {cells : Fin m → InputCell V} (hlast : f.last = sequence) (hnone : f.copying = none)
    (hpc : working f.threads.coordinator.pc = true) (htaken : f.taken.getLast? = some cells) :
    f.Handling sequence cells := by
  simp only [Firmware.Handling, hnone]
  exact ⟨hlast, hpc, htaken⟩

/-- While a host waits for its number, every step leads on to the answer or to a stop. -/
theorem FirmwareMove.stage {s t : System m k V F D R E} (hmove : FirmwareMove s t)
    (hinv : s.firmware.Inv s.memory.output) {cells : Fin m → InputCell V}
    (hcells : s.memory.input = cells) (h : Stage s s.memory.inputSequence cells) :
    Stage t s.memory.inputSequence cells := by
  rcases h with hserved | ⟨hresponse, hstage⟩
  · exact Or.inl (hmove.served hserved).1
  cases hmove with
  | control hcoordinator =>
      rw [Stage, Firmware.Handling, hcoordinator]
      exact Or.inr ⟨hresponse, hstage⟩
  | failed hpc hnone hcoordinator | rejected hpc hsome hcoordinator =>
      exact Or.inr ⟨hresponse, Or.inr (Or.inr (by rw [hcoordinator]))⟩
  | woken hpc hnone hnew =>
      exact Or.inr ⟨hresponse, Or.inl ⟨rfl, fun i hi => absurd hi (Finset.notMem_empty i)⟩⟩
  | copied i hsome =>
      refine Or.inr ⟨hresponse, ?_⟩
      rcases hstage with ⟨hlast, hcopied⟩ | hidle
      · simp only [hsome] at hcopied
        rw [← hcells] at hcopied ⊢
        exact Or.inl ⟨hlast, update_agrees hcopied i⟩
      · exact Or.inr hidle
  | taken hpc hsome hcoordinator =>
      refine Or.inr ⟨hresponse, ?_⟩
      rcases hstage with ⟨hlast, hcopied⟩ | hold | hstopped
      · simp only [hsome] at hcopied
        refine Or.inl ⟨hlast, by rw [hcoordinator]; rfl, ?_⟩
        rw [List.getLast?_concat]
        exact congrArg some (funext fun i => hcopied i (Finset.mem_univ i))
      · exact Or.inr (Or.inl hold)
      · cases hpc.symm.trans hstopped
  | worked hpc hresponses hshared hcount hnext =>
      refine Or.inr ⟨hresponse, ?_⟩
      rcases hstage with hhandling | hold | hstopped
      · obtain ⟨hlast, hnone, htaken⟩ := hinv.handling hpc hhandling
        rcases hnext with hstop | hgoing
        · exact Or.inr (Or.inr hstop)
        · exact Or.inl (.of_taken hlast hnone hgoing htaken)
      · exact Or.inr (Or.inl hold)
      · rw [hstopped] at hpc
        cases hpc
  | word w hpc =>
      exact Or.inr ⟨hresponse, hstage⟩
  | written hpc hall hcoordinator =>
      have hworking : working s.firmware.threads.coordinator.pc = true := by
        rw [hpc]
        rfl
      refine Or.inr ⟨hresponse, ?_⟩
      rcases hstage with hhandling | hold | hstopped
      · obtain ⟨hlast, hnone, htaken⟩ := hinv.handling hworking hhandling
        exact Or.inl (.of_taken hlast hnone (by rw [hcoordinator]; rfl) htaken)
      · exact Or.inr (Or.inl hold)
      · cases hpc.symm.trans hstopped
  | responded hpc hcoordinator =>
      have hworking : working s.firmware.threads.coordinator.pc = true := by
        rw [hpc]
        rfl
      rcases hstage with hhandling | hold | hstopped
      · obtain ⟨hlast, hnone, htaken⟩ := hinv.handling hworking hhandling
        have hunanswered := hinv.unanswered
        rw [hpc] at hunanswered
        simp only [Unanswered] at hunanswered
        rw [List.getLast?_eq_getElem?, hunanswered, Nat.add_sub_cancel] at htaken
        refine Or.inl ⟨hlast, hnone, by rw [hcoordinator]; rfl, _, htaken, ?_⟩
        rw [hcoordinator]
        exact List.getElem?_concat_length
      · exact Or.inr ⟨hold, Or.inr (Or.inl hold)⟩
      · cases hpc.symm.trans hstopped

theorem unanswered_of_working {pc : CoordinatorPc} (h : working pc = true)
    {taken responses : Nat} : Unanswered pc taken responses ↔ taken = responses + 1 := by
  cases pc with
  | sequenceWait | stopped => cases h
  | _ => exact Iff.rfl

/-- A topic that is not written keeps what is shared. -/
theorem written_eq_shared {c : Coordinator F} {topic : Topic} (h : topic ∉ writtenTopics c) :
    c.written topic = c.shared topic := by
  have hmotor : topic ≠ .pwmSignalOutputs := by
    rintro rfl
    exact h (List.mem_cons_self ..)
  cases hflight : c.flight with
  | none => rw [Coordinator.written, if_neg hmotor, hflight]
  | some flight =>
      refine absurd (List.mem_cons_of_mem _ ?_) h
      rw [hflight, Option.isSome_some, if_pos rfl]
      cases topic with
      | pwmSignalOutputs => exact absurd rfl hmotor
      | vehicleHealth | attitudeEstimate | attitudeCommand | controlLoopMetrics => decide

theorem FirmwareMove.firmware_inv {s t : System m k V F D R E} (hmove : FirmwareMove s t)
    (h : s.firmware.Inv s.memory.output) : t.firmware.Inv t.memory.output := by
  obtain ⟨hcounted, hunanswered, hcopying, houtput, hwritten⟩ := h
  cases hmove with
  | control hcoordinator hcount =>
      refine ⟨hcounted.trans hcount.symm, ?_, ?_, ?_, ?_⟩ <;> rw [hcoordinator] <;> assumption
  | failed hpc hnone hcoordinator hcount =>
      rw [hpc] at hwritten
      refine ⟨hcounted.trans hcount.symm, ?_, ?_, ?_, ?_⟩ <;> rw [hcoordinator]
      · trivial
      · exact fun hsome => absurd hnone hsome
      · exact houtput
      · exact fun _ => hwritten nofun
  | woken hpc => exact ⟨hcounted, hunanswered, fun _ => hpc, houtput, hwritten⟩
  | copied i hsome =>
      exact ⟨hcounted, hunanswered, fun _ => hcopying (by rw [hsome]; nofun), houtput, hwritten⟩
  | @taken cells threads hpc hsome hcoordinator hcount =>
      rw [hpc] at hunanswered hwritten
      have hlength : (s.firmware.taken ++ [cells]).length = s.firmware.taken.length + 1 :=
        List.length_append
      refine ⟨?_, ?_, nofun, ?_, ?_⟩
      · rw [hcount, ← hcounted]
        exact hlength
      · rw [hcoordinator]
        exact hlength.trans (congrArg (· + 1) hunanswered)
      · rw [hcoordinator]
        exact houtput
      · rw [hcoordinator]
        exact fun _ => hwritten nofun
  | rejected hpc hsome hcoordinator hcount =>
      rw [hpc] at hwritten
      refine ⟨hcounted.trans hcount.symm, ?_, nofun, ?_, ?_⟩ <;> rw [hcoordinator]
      · trivial
      · exact houtput
      · exact fun _ => hwritten nofun
  | worked hpc hresponses hshared hcount hnext hbefore =>
      have hempty := hwritten hbefore
      rw [unanswered_of_working hpc] at hunanswered
      refine ⟨hcounted.trans hcount.symm, ?_, fun hsome => ?_, fun w => ?_, fun _ => hempty⟩
      · rw [hresponses]
        rcases hnext with hstop | hgoing
        · rw [hstop]
          trivial
        · exact (unanswered_of_working hgoing).mpr hunanswered
      · rw [hcopying hsome] at hpc
        cases hpc
      · have hkept := houtput w
        rw [hempty, if_neg (Finset.notMem_empty w)] at hkept
        rw [hshared, hempty, if_neg (Finset.notMem_empty w)]
        exact hkept
  | word w hpc hw =>
      refine ⟨hcounted, hunanswered, hcopying, fun w' => ?_, fun hne => absurd hpc hne⟩
      dsimp only
      by_cases heq : w' = w
      · subst heq
        rw [Function.update_self, if_pos (Finset.mem_insert_self ..)]
      · rw [Function.update_of_ne heq, houtput w']
        simp only [Finset.mem_insert, heq, false_or]
  | written hpc hall hcoordinator hcount =>
      rw [hpc] at hunanswered
      refine ⟨hcounted.trans hcount.symm, ?_, fun hsome => ?_, fun w => ?_, fun _ => rfl⟩
      · rw [hcoordinator]
        exact hunanswered
      · cases hpc.symm.trans (hcopying hsome)
      · rw [hcoordinator, if_neg (Finset.notMem_empty w), houtput w]
        by_cases htopic : w.1 ∈ writtenTopics s.firmware.threads.coordinator
        · rw [if_pos (hall w.1 htopic w.2)]
        · rw [written_eq_shared htopic, ite_self]
          exact (written_eq_shared htopic).symm
  | responded hpc hcoordinator hcount =>
      rw [hpc] at hunanswered hwritten
      have hlength : (s.firmware.threads.coordinator.responses ++
          [s.firmware.threads.coordinator.shared]).length =
          s.firmware.threads.coordinator.responses.length + 1 := List.length_append
      refine ⟨hcounted.trans hcount.symm, ?_, fun _ => ?_, ?_, fun _ => hwritten nofun⟩
      · rw [hcoordinator]
        exact hunanswered.trans hlength.symm
      · rw [hcoordinator]
      · rw [hcoordinator]
        exact houtput

/-- What a step of the firmware keeps: what a host was given stands, and what it waits for
comes. -/
theorem Inv.firmwareMove {s t : System m k V F D R E} (h : Inv s) (hmove : FirmwareMove s t) :
    Inv t := by
  obtain ⟨hhost, hinput, hsequence, hresults⟩ := hmove.frame
  refine ⟨hmove.firmware_inv h.firmware, ?_, ?_⟩
  · intro host heq
    have hinv := h.host host (hhost ▸ heq)
    cases hpc : host.pc with
    | idle => simp only [HostInv, hpc]
    | writing payload written =>
        simp only [HostInv, hpc] at hinv ⊢
        rw [hinput]
        exact hinv
    | waiting payload =>
        simp only [HostInv, hpc] at hinv ⊢
        obtain ⟨hnumber, hcells, hstage⟩ := hinv
        rw [hinput, hsequence]
        rw [← hnumber] at hstage ⊢
        exact ⟨rfl, hcells, hmove.stage h.firmware hcells hstage⟩
    | reading payload read outputs =>
        simp only [HostInv, hpc] at hinv ⊢
        obtain ⟨hnumber, hserved, hread⟩ := hinv
        rw [hsequence]
        rw [← hnumber] at hserved ⊢
        obtain ⟨hserved, hshared⟩ := hmove.served hserved
        rw [hshared]
        exact ⟨rfl, hserved, hread⟩
  · rw [hresults]
    intro r hr
    obtain ⟨outputs, hanswered, hread⟩ := h.results r hr
    exact ⟨outputs, hmove.answered hanswered, hread⟩

def Result.MadeFor (r : Result m k V F) (n : Nat) : Prop :=
  ∀ topic ∈ hostTopics, ∀ j, Lockstep.MadeFor n (r.outputs (topic, j))

/-- The outputs were computed from the payload that the call wrote. -/
def Result.OwnAnswer (r : Result m k V F) (taken : List (Fin m → InputCell V)) : Prop :=
  ∃ i : Nat, taken[i]? = some (own r.exchange r.payload) ∧ r.MadeFor (i + 1)

variable [CFloat F] [CFloat D] [CDouble F D] (gen : Generated D R E)
variable [Inhabited V] (decode : (Fin m → V) → Request F)

/-! ## Runs -/

theorem step_inv {s t : System m k V F D R E} {e : Event m k V F} (hfresh : FreshNumber s e)
    (h : Inv s) (hstep : step gen decode s e = some t) : Inv t := by
  cases e with
  | attach =>
      cases hhost : s.host <;> simp only [step, hhost] at hstep <;> cases hstep
      exact h.host_step rfl trivial
  | detach | drop | call | hostWrite | hostPublish | hostPoll | timeout | hostRead | hostReturn =>
      obtain ⟨host, hhost, hstep⟩ := Option.bind_eq_some_iff.mp hstep
      exact h.hostMove hhost hfresh (hostStep_cases hstep)
  | control | waitFailed | wake | copy | take | coordinate | write =>
      simp only [step] at hstep
      exact h.firmwareMove (firmwareStep_cases gen decode hstep)

theorem boot_inv : Inv (boot gen : System m k V F D R E) where
  firmware := ⟨rfl, rfl, fun h => absurd rfl h, fun _ => rfl, fun _ => rfl⟩
  host := nofun
  results := nofun

theorem run_inv {events : List (Event m k V F)} {s : System m k V F D R E}
    (hfresh : Guarded.Ok (step gen decode) FreshNumber (boot gen) events)
    (hrun : Guarded.run (step gen decode) (boot gen) events = some s) : Inv s :=
  Guarded.ok_keeps (step gen decode) (fun _ _ _ => step_inv gen decode) (boot_inv gen) hfresh hrun

/-- While no host stores a number that the firmware took last or answered last,
every `exchange` that returns outputs returns the response to the payload that
this call wrote. -/
theorem result_is_response {events : List (Event m k V F)} {s : System m k V F D R E}
    (hfresh : Guarded.Ok (step gen decode) FreshNumber (boot gen) events)
    (hrun : Guarded.run (step gen decode) (boot gen) events = some s) {r : Result m k V F}
    (hr : r ∈ s.results) : r.Answered s.firmware :=
  (run_inv gen decode hfresh hrun).results r hr

/-- In every run with fresh numbers and settled reads, an `exchange` that returns
outputs returns motor outputs computed from the payload that this call wrote,
and a flight state computed from it exactly where the payload is the first of
eight. -/
theorem result_is_own_answer {events : List (Event m k V F)} {s : System m k V F D R E}
    (hfresh : Guarded.Ok (step gen decode) FreshNumber (boot gen) events)
    (hsettled : Guarded.Ok (step gen decode) Settled (boot gen) events)
    (hrun : Guarded.run (step gen decode) (boot gen) events = some s) {r : Result m k V F}
    (hr : r ∈ s.results) :
    ∃ i : Nat, s.firmware.taken[i]? = some (own r.exchange r.payload) ∧
      (∀ j, Lockstep.MadeFor (i + 1) (r.outputs (.pwmSignalOutputs, j))) ∧
      (r.OwnAnswer s.firmware.taken ↔ i % flightStatePublishDiv = 0) := by
  obtain ⟨outputs, ⟨i, htaken, hresponse⟩, hwords⟩ := result_is_response gen decode hfresh hrun hr
  obtain ⟨threadEvents, hok, hthreads⟩ := run_threads gen decode hsettled hrun
  obtain ⟨hinv, hflight⟩ := Guarded.ok_keeps (Lockstep.step gen)
    (P := fun s => s.Inv ∧ s.FlightInv)
    (fun s e t hallowed h hstep => step_flight gen hallowed.1 hallowed.2 h hstep)
    ⟨Lockstep.boot_inv gen, boot_flight gen⟩ hok hthreads
  have hmotor := hinv.responses i outputs hresponse
  obtain ⟨p, hp, hinput, -⟩ :=
    hflight.responses i outputs hresponse (Nat.le_add_left 1 i) .vehicleHealth vehicleHealth_mem
  have hpwm : ∀ j, r.outputs (.pwmSignalOutputs, j) = outputs .pwmSignalOutputs :=
    hwords _ (List.mem_cons_self ..)
  have hhealth : ∀ j, r.outputs (.vehicleHealth, j) = outputs .vehicleHealth :=
    hwords _ (List.mem_cons_of_mem _ (List.mem_singleton_self _))
  refine ⟨i, htaken, fun j => (hpwm j).symm ▸ hmotor, ?_⟩
  rw [← lastPublished_eq_iff]
  constructor
  · rintro ⟨i', -, hmade⟩
    -- the motor outputs tell which payload it is
    obtain ⟨q, hq, hqinput⟩ := hmade _ (List.mem_cons_self ..) 0
    obtain ⟨q', hq', hqinput'⟩ := hmotor
    obtain rfl := Option.some.inj (hq.symm.trans ((hpwm 0).trans hq'))
    obtain ⟨p', hp', hinput'⟩ := hmade _ (List.mem_cons_of_mem _ (List.mem_singleton_self _)) 0
    obtain rfl := Option.some.inj (hp'.symm.trans ((hhealth 0).trans hp))
    omega
  · intro hlast
    refine ⟨i, htaken, List.forall_mem_cons.mpr ⟨fun j => (hpwm j).symm ▸ hmotor, ?_⟩⟩
    refine List.forall_mem_singleton.mpr fun j => ?_
    rw [hhealth j]
    exact ⟨p, hp, hinput.trans hlast⟩

end Answer

/-! ## Bench runs -/

instance {m k : Nat} {V F D R E : Type} (s : System m k V F D R E) (e : Event m k V F) :
    Decidable (FreshNumber s e) := by
  cases e with
  | hostPublish =>
      cases hhost : s.host with
      | none => exact isTrue fun host h => nomatch hhost.symm.trans h
      | some host =>
          refine decidable_of_iff (nextSequence host.sequence ≠ s.firmware.last ∧
            nextSequence host.sequence ≠ s.memory.responseSequence) ⟨fun h host' heq => ?_, ?_⟩
          · obtain rfl := Option.some.inj (hhost.symm.trans heq)
            exact h
          · exact fun h => h host hhost
  | _ => exact isTrue trivial

instance {m k : Nat} {V F D R E : Type} (s : System m k V F D R E) :
    (e : Event m k V F) → Decidable (Settled s e)
  | .coordinate => inferInstanceAs (Decidable (_ ∧ _))
  | .attach | .detach | .drop | .call _ | .hostWrite _ | .hostPublish | .hostPoll | .timeout
  | .hostRead _ | .hostReturn | .control _ | .waitFailed | .wake | .copy _ | .take
  | .write _ => isTrue trivial

/-- A payload of one word, the time of its sample. -/
def benchDecode (payload : Fin 1 → UInt64) : Request Rat :=
  ⟨true, ⟨payload 0, ⟨0, 0, 0⟩, ⟨0, 0, 10⟩, true⟩⟩

def benchControl (steps : Nat) : List (Event 1 0 UInt64 Rat) :=
  List.replicate steps (.control (benchInput 1000 1000))

def benchCall (timestampUs : UInt64) : List (Event 1 0 UInt64 Rat) :=
  [.call fun _ => timestampUs, .hostWrite 0, .hostPublish]

def benchTake : List (Event 1 0 UInt64 Rat) := [.take, .coordinate]

def benchAnswer (steps : Nat) (topics : List Topic) : List (Event 1 0 UInt64 Rat) :=
  List.replicate steps .coordinate ++ topics.map (fun topic => .write (topic, 0)) ++
    [.coordinate, .coordinate]

def benchReturn : List (Event 1 0 UInt64 Rat) :=
  [.hostPoll] ++ hostTopics.map (fun topic => .hostRead (topic, 0)) ++ [.hostReturn]

/-- Two exchanges of one tick each, the flight state published in the first. -/
def benchExchanges : List (Event 1 0 UInt64 Rat) :=
  [.attach] ++ benchControl 2 ++ benchCall 625 ++ [.wake, .copy 0] ++ benchTake ++
    benchControl 13 ++ benchAnswer 4 (.pwmSignalOutputs :: flightTopics) ++ benchReturn ++
    benchCall 1250 ++ [.wake, .copy 0] ++ benchTake ++ benchControl 9 ++
    benchAnswer 3 [.pwmSignalOutputs] ++ benchReturn

theorem result_is_own_answer_bench :
    ∃ s, Guarded.run (step benchGenerated benchDecode) (boot benchGenerated) benchExchanges =
        some s ∧
      s.results.length = 2 ∧ ∀ r ∈ s.results, ∃ i : Nat,
        s.firmware.taken[i]? = some (own r.exchange r.payload) ∧
        (∀ j, Lockstep.MadeFor (i + 1) (r.outputs (.pwmSignalOutputs, j))) ∧
        (r.OwnAnswer s.firmware.taken ↔ i % flightStatePublishDiv = 0) := by
  have hfresh : Guarded.Ok (step benchGenerated benchDecode) FreshNumber (boot benchGenerated)
      benchExchanges := by
    decide +kernel
  have hsettled : Guarded.Ok (step benchGenerated benchDecode) Settled (boot benchGenerated)
      benchExchanges := by
    decide +kernel
  obtain ⟨s, hrun, hresults⟩ : ∃ s, Guarded.run (step benchGenerated benchDecode)
      (boot benchGenerated) benchExchanges = some s ∧ s.results.length = 2 :=
    Guarded.run_any (step benchGenerated benchDecode) (by decide +kernel)
  exact ⟨s, hrun, hresults, fun r hr =>
    result_is_own_answer benchGenerated benchDecode hfresh hsettled hrun hr⟩

/-- The first host is killed once the firmware has copied its payload; the second
one stores the same number and takes the answer. -/
theorem predecessor_answer_taken :
    ¬ ∀ (events : List (Event 1 0 UInt64 Rat)) (s : System 1 0 UInt64 Rat Rat Unit Unit)
        (r : Result 1 0 UInt64 Rat),
      Guarded.run (step benchGenerated benchDecode) (boot benchGenerated) events = some s →
      r ∈ s.results → r.OwnAnswer s.firmware.taken := by
  intro h
  obtain ⟨s, hrun, hresults, htaken⟩ : ∃ s, Guarded.run (step benchGenerated benchDecode)
      (boot benchGenerated)
      ([.attach] ++ benchControl 2 ++ benchCall 625 ++ [.wake, .copy 0, .detach] ++
        ([.attach] ++ benchCall 700) ++ benchTake ++ benchControl 13 ++
        benchAnswer 4 (.pwmSignalOutputs :: flightTopics) ++ benchReturn) = some s ∧
      (s.results.map (·.exchange)) = [2] ∧
      (s.firmware.taken.map fun cells => (cells 0).exchange) = [1] :=
    Guarded.run_any (step benchGenerated benchDecode) (by decide +kernel)
  obtain ⟨r, hr, hsecond⟩ := List.map_eq_singleton_iff.mp hresults
  obtain ⟨cells, hcells, hfirst⟩ := List.map_eq_singleton_iff.mp htaken
  obtain ⟨i, hi, -⟩ := h _ s r hrun (hr ▸ List.mem_singleton_self r)
  have hmem := List.mem_of_getElem? hi
  rw [hcells, List.mem_singleton] at hmem
  rw [← hmem] at hfirst
  have hexchange : r.exchange = 1 := hfirst
  exact absurd (hexchange.symm.trans hsecond) (by decide)

end Rdd2.SharedMemory
