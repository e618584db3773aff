import Rdd2.Lockstep

/-!
# Reading the flight state

`publish_flight_state` updates four topics one after the other, and
`rdd2_lockstep_flight_state_blob_if_updated` reads the generation of the first
of them and then the four in the same order. Each update and each read is one
step. A sample is known by the call of `publish_flight_state` that made it; a
topic that was never updated has the sample of call zero.

The four samples of a blob are of one call only if no read overtakes the
publisher and the publisher overtakes no read (`flight_blob_iff`). The
generation taken for the mark of a publication is that of the topic updated
first, so a blob can hold part of it and mark it as seen
(`mixed_flight_blob`).
-/

namespace Rdd2.FlightBlob

open Lockstep

/-! ## Data -/

/-- A topic: how often it was updated, and the call that made its sample. -/
structure Sampled where
  count : Nat
  call : Nat
  deriving DecidableEq, Repr

/-- A sample that was read. No step reads `landed`: how many topics were updated
since the call that made the vehicle health of the same blob began, its own
updates included. -/
structure Taken where
  topic : Topic
  call : Nat
  landed : Nat
  deriving DecidableEq, Repr

/-- What a call that returned true stored in `*last_generation` and in the
buffer, and the number of updates behind the generation, which no step reads. -/
structure Blob where
  generation : UInt32
  ordinal : Nat
  samples : List Taken
  deriving DecidableEq, Repr

/-- Where `rdd2_lockstep_flight_state_blob_if_updated` is. -/
inductive ReaderPc where
  | idle
  | generation (lastGeneration : UInt32)
  /-- In `rdd2_topic_flight_state_copy_blob`, with the topics still to read. -/
  | copy (generation : UInt32) (ordinal : Nat) (samples : List Taken) (left : List Topic)
  deriving DecidableEq, Repr

/-- The topics; `publish_flight_state` by the number of its calls and the topics
the last of them has still to update; the reader, and what its calls have
returned, `none` for false. -/
structure System where
  topics : Topic → Sampled
  calls : Nat
  publishing : List Topic
  reader : ReaderPc
  landed : Nat
  returned : List (Option Blob)

inductive Event where
  /-- `publish_flight_state` begins, with its first update. -/
  | publish
  /-- Its next update. -/
  | update
  /-- The call of the reader with what its `last_generation` points to. -/
  | call (lastGeneration : UInt32)
  /-- The reader's generation; `bufOk` is whether the buffer is there and large
  enough. -/
  | generation (bufOk : Bool)
  /-- Its next read; `ok` is whether `zros_topic_read` succeeds. -/
  | read (ok : Bool)
  deriving DecidableEq, Repr

def boot : System where
  topics := fun _ => ⟨0, 0⟩
  calls := 0
  publishing := []
  reader := .idle
  landed := 0
  returned := []

/-! ## Steps -/

/-- `zros_pub_update` by the current call. -/
def System.update (s : System) (topic : Topic) (left : List Topic) (calls : Nat) : System :=
  { s with
    topics := Function.update s.topics topic ⟨(s.topics topic).count + 1, calls⟩
    calls := calls
    publishing := left
    landed := s.landed + 1 }

def System.returns (s : System) (result : Option Blob) : System :=
  { s with reader := .idle, returned := s.returned ++ [result] }

def System.progress (s : System) : Nat := 4 - s.publishing.length

/-- A read; with the vehicle health the count of `landed` begins. -/
def System.take (s : System) (generation : UInt32) (ordinal : Nat) (samples : List Taken)
    (topic : Topic) (left : List Topic) : System :=
  let landed := if topic = .vehicleHealth then s.progress else s.landed
  let taken := samples ++ [⟨topic, (s.topics topic).call, landed⟩]
  let read := { s with landed := landed }
  match left with
  | [] => read.returns (some ⟨generation, ordinal, taken⟩)
  | _ => { read with reader := .copy generation ordinal taken left }

def step (s : System) : Event → Option System
  | .publish =>
      match s.publishing with
      | [] => some (s.update .vehicleHealth
          [.attitudeEstimate, .attitudeCommand, .controlLoopMetrics] (s.calls + 1))
      | _ => none
  | .update =>
      match s.publishing with
      | [] => none
      | topic :: left => some (s.update topic left s.calls)
  | .call lastGeneration =>
      match s.reader with
      | .idle => some { s with reader := .generation lastGeneration }
      | _ => none
  | .generation bufOk =>
      match s.reader with
      | .generation lastGeneration =>
          let count := (s.topics .vehicleHealth).count
          let generation := UInt32.ofNat count
          if generation = 0 ∨ generation = lastGeneration then some (s.returns none)
          else if bufOk then some { s with reader := .copy generation count [] flightTopics }
          else some (s.returns none)
      | _ => none
  | .read ok =>
      match s.reader with
      | .copy generation ordinal samples (topic :: left) =>
          if ok then some (s.take generation ordinal samples topic left)
          else some (s.returns none)
      | _ => none

/-! ## Counting updates -/

/-- The place of a flight topic in the order of updates and reads. -/
def position : Topic → Nat
  | .vehicleHealth => 1
  | .attitudeEstimate => 2
  | .attitudeCommand => 3
  | .controlLoopMetrics => 4
  | .pwmSignalOutputs => 0

/-- The updates of the topic at a position after `total` updates. -/
def updates (total position : Nat) : Nat := (total + 4 - position) / 4

theorem position_getElem : ∀ k : Fin 4, position (flightTopics.get k) = k + 1 := by decide

theorem position_pos {topic : Topic} (h : topic ∈ flightTopics) :
    0 < position topic ∧ position topic ≤ 4 := by
  simp only [flightTopics, List.mem_cons, List.not_mem_nil, or_false] at h
  rcases h with rfl | rfl | rfl | rfl <;> decide

/-- Call `n` made the vehicle health of the blob, and this sample was there
`landed` updates after that call began. -/
structure Taken.Exact (n : Nat) (x : Taken) : Prop where
  mem : x.topic ∈ flightTopics
  call : x.call + 1 = n + (x.landed + 4 - position x.topic) / 4
  health : x.topic = .vehicleHealth → 0 < x.landed ∧ x.landed ≤ 4

/-- The samples of a blob, `total` updates after the beginning. -/
def Reading (ordinal total landed : Nat) (samples : List Taken) : Prop :=
  samples = [] ∨ ∃ n, ordinal ≤ n ∧ total + 4 = 4 * n + landed ∧ ∀ x ∈ samples, x.Exact n

structure Blob.Exact (b : Blob) : Prop where
  generation : b.generation = UInt32.ofNat b.ordinal
  topics : b.samples.map (·.topic) = flightTopics
  samples : ∃ n, b.ordinal ≤ n ∧ ∀ x ∈ b.samples, x.Exact n

structure System.Inv (s : System) (total : Nat) : Prop where
  calls : total + s.publishing.length = 4 * s.calls
  publishing : ∃ k, 0 < k ∧ s.publishing = flightTopics.drop k
  topics : ∀ topic ∈ flightTopics, (s.topics topic).count = updates total (position topic) ∧
    (s.topics topic).call = updates total (position topic)
  reading : ∀ generation ordinal samples left, s.reader = .copy generation ordinal samples left →
    generation = UInt32.ofNat ordinal ∧ 0 < ordinal ∧ ordinal ≤ updates total 1 ∧
      samples.map (·.topic) ++ left = flightTopics ∧ Reading ordinal total s.landed samples
  returned : ∀ b, some b ∈ s.returned → b.Exact

theorem boot_inv : boot.Inv 0 where
  calls := rfl
  publishing := ⟨4, by decide, rfl⟩
  topics := by
    intro topic htopic
    have hpos := position_pos htopic
    have hnone : updates 0 (position topic) = 0 := Nat.div_eq_of_lt (by omega)
    rw [hnone]
    exact ⟨rfl, rfl⟩
  reading := nofun
  returned := nofun

/-! ## Steps of the publisher -/

theorem updates_succ {total p : Nat} (hp : 0 < p ∧ p ≤ 4) :
    updates (total + 1) p = updates total p + if (total + 1) % 4 = p % 4 then 1 else 0 := by
  unfold updates
  split <;> omega

theorem System.Inv.update {s : System} {total calls : Nat} (h : s.Inv total) {topic : Topic}
    {left : List Topic} (hleft : ∃ k, 0 < k ∧ left = flightTopics.drop k)
    (hcalls : total + 1 + left.length = 4 * calls) (htopic : topic ∈ flightTopics)
    (hposition : position topic = 4 - left.length) : (s.update topic left calls).Inv (total + 1) where
  calls := hcalls
  publishing := hleft
  topics := by
    intro topic' htopic'
    have hpos := position_pos htopic'
    have hother := h.topics topic' htopic'
    rw [updates_succ hpos]
    by_cases heq : topic' = topic
    · subst heq
      simp only [System.update, Function.update_self, hother.1]
      rw [if_pos (by omega)]
      refine ⟨rfl, ?_⟩
      unfold updates
      omega
    · have hne : position topic' ≠ position topic := by
        intro hsame
        simp only [flightTopics, List.mem_cons, List.not_mem_nil, or_false] at htopic htopic'
        rcases htopic with rfl | rfl | rfl | rfl <;>
          rcases htopic' with rfl | rfl | rfl | rfl <;> simp [position] at hsame heq
      have hpos' := position_pos htopic
      simp only [System.update, Function.update_of_ne heq]
      rw [if_neg (by omega), Nat.add_zero]
      exact hother
  reading := by
    intro generation ordinal samples left' hpc
    obtain ⟨hgeneration, hordinal, hle, htopics, hreading⟩ := h.reading _ _ _ _ hpc
    refine ⟨hgeneration, hordinal, ?_, htopics, ?_⟩
    · unfold updates at hle ⊢
      omega
    · refine hreading.imp_right ?_
      rintro ⟨n, hn, htotal, hexact⟩
      refine ⟨n, hn, ?_, hexact⟩
      simp only [System.update]
      omega
  returned := h.returned

theorem System.Inv.publisher {s t : System} {total : Nat} (h : s.Inv total)
    (hstep : step s .publish = some t ∨ step s .update = some t) : t.Inv (total + 1) := by
  have hcalls := h.calls
  rcases hstep with hstep | hstep
  · simp only [step] at hstep
    split at hstep
    · rename_i hidle
      cases hstep
      rw [hidle, List.length_nil] at hcalls
      refine h.update ⟨1, by decide, rfl⟩ ?_ vehicleHealth_mem rfl
      simp only [List.length_cons, List.length_nil]
      omega
    · cases hstep
  · simp only [step] at hstep
    split at hstep
    · cases hstep
    · rename_i topic left hpublishing
      cases hstep
      obtain ⟨k, hk, hdrop⟩ := h.publishing
      rw [hpublishing] at hdrop hcalls
      have hk' : k < 4 := by
        by_contra hpast
        have hlen := congrArg List.length hdrop
        simp only [List.length_cons, List.length_drop, flightTopics, List.length_nil] at hlen
        omega
      have htopic : topic = flightTopics[k] ∧ left = flightTopics.drop (k + 1) := by
        rw [List.drop_eq_getElem_cons hk'] at hdrop
        exact List.cons.inj hdrop
      obtain ⟨rfl, rfl⟩ := htopic
      refine h.update ⟨k + 1, Nat.succ_pos k, rfl⟩ ?_ (List.getElem_mem hk') ?_
      · rw [List.length_cons] at hcalls
        omega
      · rw [List.length_drop]
        have hposition : position (flightTopics[k]) = k + 1 := position_getElem ⟨k, hk'⟩
        have hfour : flightTopics.length = 4 := rfl
        omega

/-! ## Steps of the reader -/

theorem System.Inv.returns {s : System} {total : Nat} (h : s.Inv total) {result : Option Blob}
    (hresult : ∀ b, result = some b → b.Exact) (landed : Nat) :
    System.Inv ({ s with landed := landed }.returns result) total where
  calls := h.calls
  publishing := h.publishing
  topics := h.topics
  reading := nofun
  returned := by
    intro b hb
    rcases List.mem_append.mp hb with hold | hnew
    · exact h.returned b hold
    · exact hresult b (List.mem_singleton.mp hnew).symm

theorem System.Inv.fails {s : System} {total : Nat} (h : s.Inv total) :
    (s.returns none).Inv total := by
  refine h.returns ?_ s.landed
  intro b hb
  cases hb

theorem System.Inv.take_exact {s : System} {total ordinal : Nat} {generation : UInt32}
    {samples : List Taken} {topic : Topic} {left : List Topic} (h : s.Inv total)
    (hpc : s.reader = .copy generation ordinal samples (topic :: left)) :
    ∃ n, ordinal ≤ n ∧
      total + 4 = 4 * n + (if topic = .vehicleHealth then s.progress else s.landed) ∧
      ∀ x ∈ samples ++ [⟨topic, (s.topics topic).call,
        if topic = .vehicleHealth then s.progress else s.landed⟩], x.Exact n := by
  obtain ⟨-, hordinal, hle, htopics, hreading⟩ := h.reading _ _ _ _ hpc
  have hcalls := h.calls
  have htopic : topic ∈ flightTopics := by
    rw [← htopics]
    simp
  have hcall := (h.topics topic htopic).2
  have hpos := position_pos htopic
  obtain ⟨k, hk, hdrop⟩ := h.publishing
  have hlength : s.publishing.length ≤ 3 := by
    rw [hdrop, List.length_drop]
    simp only [flightTopics, List.length_cons, List.length_nil]
    omega
  by_cases hhealth : topic = .vehicleHealth
  · subst hhealth
    have hnone : samples = [] := by
      cases samples with
      | nil => rfl
      | cons x samples =>
          have hnodup : flightTopics.Nodup := by decide
          rw [← htopics, List.map_cons, List.cons_append, List.nodup_cons] at hnodup
          have hfirst := congrArg List.head? htopics
          simp only [List.map_cons, List.cons_append, List.head?_cons, flightTopics,
            Option.some.injEq] at hfirst
          rw [hfirst] at hnodup
          exact absurd (by simp) hnodup.1
    subst hnone
    unfold updates at hle hcall
    simp only [position] at hcall
    refine ⟨s.calls, by omega, ?_, ?_⟩
    · simp only [if_true, System.progress]
      omega
    · intro x hx
      rw [List.nil_append, List.mem_singleton] at hx
      subst hx
      refine ⟨htopic, ?_, fun _ => ?_⟩
      · simp only [hcall, if_true, System.progress, position]
        omega
      · simp only [if_true, System.progress]
        omega
  · have hsome : samples ≠ [] := by
      rintro rfl
      have hfirst := congrArg List.head? htopics
      simp only [List.map_nil, List.nil_append, List.head?_cons, flightTopics,
        Option.some.injEq] at hfirst
      exact hhealth hfirst
    obtain ⟨n, hn, htotal, hexact⟩ := hreading.resolve_left hsome
    simp only [if_neg hhealth]
    refine ⟨n, hn, htotal, ?_⟩
    rw [List.forall_mem_append, List.forall_mem_singleton]
    refine ⟨hexact, htopic, ?_, fun hsame => absurd hsame hhealth⟩
    unfold updates at hcall hle
    simp only [hcall]
    omega

theorem System.Inv.take {s : System} {total ordinal : Nat} {generation : UInt32}
    {samples : List Taken} {topic : Topic} {left : List Topic} (h : s.Inv total)
    (hpc : s.reader = .copy generation ordinal samples (topic :: left)) :
    (s.take generation ordinal samples topic left).Inv total := by
  obtain ⟨hgeneration, hordinal, hle, htopics, -⟩ := h.reading _ _ _ _ hpc
  obtain ⟨n, hn, htotal, hexact⟩ := h.take_exact hpc
  cases left with
  | nil =>
      refine h.returns ?_ _
      rintro b ⟨⟩
      exact ⟨hgeneration, by simpa using htopics, n, hn, hexact⟩
  | cons next left =>
      refine ⟨h.calls, h.publishing, h.topics, ?_, h.returned⟩
      rintro _ _ _ _ ⟨⟩
      exact ⟨hgeneration, hordinal, hle, by simpa using htopics, Or.inr ⟨n, hn, htotal, hexact⟩⟩

theorem step_inv {s t : System} {e : Event} (h : ∃ total, s.Inv total)
    (hstep : step s e = some t) : ∃ total, t.Inv total := by
  obtain ⟨total, h⟩ := h
  cases e with
  | publish => exact ⟨total + 1, h.publisher (Or.inl hstep)⟩
  | update => exact ⟨total + 1, h.publisher (Or.inr hstep)⟩
  | call lastGeneration =>
      simp only [step] at hstep
      split at hstep
      · cases hstep
        exact ⟨total, h.calls, h.publishing, h.topics, nofun, h.returned⟩
      · cases hstep
  | generation bufOk =>
      simp only [step] at hstep
      split at hstep
      · split at hstep
        · cases hstep
          exact ⟨total, h.fails⟩
        · rename_i hnew
          split at hstep
          · cases hstep
            refine ⟨total, h.calls, h.publishing, h.topics, ?_, h.returned⟩
            rintro _ _ _ _ ⟨⟩
            have hcount := (h.topics _ vehicleHealth_mem).1
            refine ⟨rfl, Nat.pos_of_ne_zero fun hzero => ?_, Nat.le_of_eq hcount, rfl, Or.inl rfl⟩
            rw [hzero] at hnew
            exact hnew (Or.inl rfl)
          · cases hstep
            exact ⟨total, h.fails⟩
      · cases hstep
  | read ok =>
      simp only [step] at hstep
      split at hstep
      · rename_i hpc
        split at hstep
        · cases hstep
          exact ⟨total, h.take hpc⟩
        · cases hstep
          exact ⟨total, h.fails⟩
      · cases hstep

theorem run_inv {events : List Event} {s : System}
    (hrun : Guarded.run step boot events = some s) : ∃ total, s.Inv total :=
  Guarded.run_inv step (fun _ _ _ h hstep => step_inv h hstep) ⟨0, boot_inv⟩ hrun

/-! ## One call or several -/

/-- The four samples are of one call, that of the generation or a later one. -/
def Blob.OneCall (b : Blob) : Prop :=
  b.generation = UInt32.ofNat b.ordinal ∧
    ∃ n, b.ordinal ≤ n ∧ ∀ x ∈ b.samples, x.call = n

/-- Each topic was read after the call that made the vehicle health had updated
it, and before the next call did. -/
def Blob.InTurn (b : Blob) : Prop :=
  ∀ x ∈ b.samples, position x.topic ≤ x.landed ∧ x.landed < position x.topic + 4

/-- In every run a blob that is returned has all four topics, and they are of one
call of `publish_flight_state` if and only if each was read in its turn. -/
theorem flight_blob_iff {events : List Event} {s : System}
    (hrun : Guarded.run step boot events = some s) {b : Blob} (hreturned : some b ∈ s.returned) :
    b.samples.map (·.topic) = flightTopics ∧ (b.OneCall ↔ b.InTurn) := by
  obtain ⟨total, hinv⟩ := run_inv hrun
  obtain ⟨hgeneration, htopics, n, hn, hexact⟩ := hinv.returned b hreturned
  refine ⟨htopics, ?_, ?_⟩
  · rintro ⟨-, m, hm, hcalls⟩
    obtain ⟨health, hhealth, htopic⟩ : ∃ x ∈ b.samples, x.topic = .vehicleHealth := by
      rw [← List.mem_map, htopics]
      exact vehicleHealth_mem
    have hfirst := (hexact health hhealth).call
    have hlanded := (hexact health hhealth).health htopic
    rw [hcalls health hhealth, htopic] at hfirst
    simp only [position] at hfirst
    intro x hx
    have hcall := (hexact x hx).call
    have hpos := position_pos (hexact x hx).mem
    rw [hcalls x hx] at hcall
    omega
  · intro hturn
    refine ⟨hgeneration, n, hn, fun x hx => ?_⟩
    have hcall := (hexact x hx).call
    have hpos := position_pos (hexact x hx).mem
    have hlanded := hturn x hx
    omega

/-! ## Bench runs -/

/-- A call of the reader after the first call of the publisher. -/
def benchRead : List Event :=
  [.publish, .update, .update, .update, .call 0, .generation true, .read true, .read true,
    .read true, .read true]

/-- The same, with the second call of the publisher begun before it. -/
def benchMixed : List Event :=
  [.publish, .update, .update, .update, .publish, .call 1, .generation true, .read true,
    .read true, .read true, .read true]

theorem flight_blob_iff_bench :
    ∃ s, Guarded.run step boot benchRead = some s ∧ ∃ b, some b ∈ s.returned ∧
      b.samples.map (·.topic) = flightTopics ∧ (b.OneCall ↔ b.InTurn) := by
  obtain ⟨s, hrun, hreturned⟩ : ∃ s, Guarded.run step boot benchRead = some s ∧
      some ⟨1, 1, flightTopics.map fun topic => ⟨topic, 1, 4⟩⟩ ∈ s.returned :=
    Guarded.run_any step (by decide)
  exact ⟨s, hrun, _, hreturned, flight_blob_iff hrun hreturned⟩

/-- The vehicle health is of the second call, and marks it as seen; the other
topics are of the first. -/
theorem mixed_flight_blob :
    ¬ ∀ (events : List Event) (s : System) (b : Blob),
      Guarded.run step boot events = some s → some b ∈ s.returned → b.OneCall := by
  intro h
  obtain ⟨s, hrun, hreturned⟩ : ∃ s, Guarded.run step boot benchMixed = some s ∧
      some ⟨2, 2, [⟨.vehicleHealth, 2, 1⟩, ⟨.attitudeEstimate, 1, 1⟩, ⟨.attitudeCommand, 1, 1⟩,
        ⟨.controlLoopMetrics, 1, 1⟩]⟩ ∈ s.returned :=
    Guarded.run_any step (by decide)
  obtain ⟨-, n, -, hcalls⟩ := h _ s _ hrun hreturned
  simp only [List.mem_cons, List.not_mem_nil, or_false, forall_eq_or_imp, forall_eq] at hcalls
  omega

end Rdd2.FlightBlob
