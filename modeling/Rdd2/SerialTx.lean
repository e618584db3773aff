import Rdd2.Guarded
import Rdd2.SerialFrame

/-!
# The telemetry sender

`tx_scan` and `tx_topic_if_due`, one access to shared memory at a time,
among publications by other threads and a UART interrupt that empties the
transmit ring at its own pace. What no step reads is kept for the theorems:
the published samples behind the current one, how many there were when a
slot took its generation, the bytes the UART took, and every frame that was
built.

The topics themselves belong to ZROS. A publication is one more sample and
one more generation; `zros_topic_read` fails, or returns one whole sample
at least as new as the generation read before it.
-/

namespace Rdd2

/-- The Kconfig of the sender, and what `topics_resolve` has checked. -/
structure TxConfig extends SerialConfig where
  txRingSize : Nat
  txMinIntervalMs : Int
  resolved : ∀ entry ∈ topics, entry.payloadSize ≤ maxPayload

/-- The number of topics, `TOPIC_COUNT`. -/
abbrev TxConfig.topicCount (cfg : TxConfig) : Nat := cfg.topics.length

/-- `struct tx_slot`; `ordinal` is the number of samples published when
`lastGeneration` was read. -/
structure TxSlot where
  lastGeneration : UInt32
  lastSentMs : Int
  primed : Bool
  ordinal : Nat
  deriving DecidableEq, Repr

/-- A frame that was built: its topic, which sample it holds, its bytes, and
what `ring_buf_space_get` said. -/
structure TxAttempt (n : Nat) where
  topic : Fin n
  ordinal : Nat
  frame : List UInt8
  space : Nat
  deriving DecidableEq, Repr

/-- Whether the frame went into the ring; the others were dropped. -/
def TxAttempt.placed {n : Nat} (a : TxAttempt n) : Bool := decide (a.frame.length ≤ a.space)

/-- Where `tx_scan` is: asleep, before a topic, or in `tx_topic_if_due` for
it with a generation sampled, a frame built, a frame that fits, the frame
put, or about to update the slot. `ordinal` is the number of samples behind
`generation`. -/
inductive TxPc (n : Nat) where
  | idle
  | topic (i : Fin n)
  | read (i : Fin n) (generation : UInt32) (ordinal : Nat)
  | space (i : Fin n) (generation : UInt32) (ordinal : Nat) (sample : Nat) (frame : List UInt8)
  | put (i : Fin n) (generation : UInt32) (ordinal : Nat) (sample : Nat) (frame : List UInt8)
      (space : Nat)
  | irqEnable (i : Fin n) (generation : UInt32) (ordinal : Nat)
  | update (i : Fin n) (generation : UInt32) (ordinal : Nat)
  deriving DecidableEq, Repr

/-- The topic that a call of `tx_topic_if_due` is in the middle of. -/
def TxPc.call? {n : Nat} : TxPc n → Option (Fin n)
  | .idle | .topic _ => none
  | .read i _ _ | .space i _ _ _ _ | .put i _ _ _ _ _ | .irqEnable i _ _ | .update i _ _ => some i

/-- The sender, its ring, and the topics it watches. -/
structure TxLink (cfg : TxConfig) where
  samples : Fin cfg.topicCount → List (List UInt8)
  slots : Fin cfg.topicCount → TxSlot
  seq : UInt8
  ring : List UInt8
  irqEnabled : Bool
  stats : SerialStats
  nowMs : Int
  pc : TxPc cfg.topicCount
  sent : List UInt8
  attempts : List (TxAttempt cfg.topicCount)

/-- After `zros_serial_init`, with nothing published. -/
def txInit (cfg : TxConfig) : TxLink cfg where
  samples := fun _ => []
  slots := fun _ => ⟨0, 0, false, 0⟩
  seq := 0
  ring := []
  irqEnabled := false
  stats := {}
  nowMs := 0
  pc := .idle
  sent := []
  attempts := []

inductive TxEvent (n : Nat) where
  /-- Another thread publishes. -/
  | publish (i : Fin n) (sample : List UInt8)
  /-- A turn of `uart_isr`: the bytes claimed of the ring, and how many of
  them `uart_fifo_fill` took. -/
  | isr (claimed written : Nat)
  /-- The transport thread wakes up and starts `tx_scan`. -/
  | poll (nowMs : Int)
  /-- `zros_topic_read` returns the sample of this number in a frame buffer
  that held `stack`. -/
  | read (sample : Nat) (stack : List UInt8)
  | readFails
  /-- Any other step of the transport thread. -/
  | thread
  deriving DecidableEq, Repr

section Step

variable {cfg : TxConfig}

/-- `rdd2_topic_generation`: a 32-bit count of publications. -/
def topicGeneration (s : TxLink cfg) (i : Fin cfg.topicCount) : UInt32 :=
  UInt32.ofNat (s.samples i).length

/-- The next turn of the loop in `tx_scan`, or its end. -/
def nextTopic (i : Fin cfg.topicCount) : TxPc cfg.topicCount :=
  if h : i.val + 1 < cfg.topicCount then .topic ⟨i.val + 1, h⟩ else .idle

/-- `ring_buf_space_get` -/
def ringSpace (s : TxLink cfg) : Nat := cfg.txRingSize - s.ring.length

/-- Whether `tx_topic_if_due` goes on to read the topic, `generation` being
its generation. -/
def txDue (s : TxLink cfg) (i : Fin cfg.topicCount) (generation : UInt32) : Bool :=
  !(generation == 0 || generation == (s.slots i).lastGeneration) &&
    !((s.slots i).primed && decide (s.nowMs - (s.slots i).lastSentMs < cfg.txMinIntervalMs))

/-- A step of the transport thread outside `zros_topic_read`. -/
def txThread (s : TxLink cfg) : Option (TxLink cfg) :=
  match s.pc with
  | .idle => none
  | .topic i =>
      if (cfg.topics.get i).tx && txDue s i (topicGeneration s i) then
        some { s with pc := .read i (topicGeneration s i) (s.samples i).length }
      else some { s with pc := nextTopic i }
  | .read _ _ _ => none
  | .space i generation ordinal sample frame =>
      if ringSpace s < frame.length then
        some { s with
          stats := { s.stats with txDropped := s.stats.txDropped + 1 }
          attempts := s.attempts ++ [⟨i, sample, frame, ringSpace s⟩]
          pc := .update i generation ordinal }
      else some { s with pc := .put i generation ordinal sample frame (ringSpace s) }
  | .put i generation ordinal sample frame space =>
      -- `ring_buf_put` stores what fits
      some { s with
        ring := s.ring ++ frame.take (ringSpace s)
        stats := { s.stats with txFrames := s.stats.txFrames + 1 }
        attempts := s.attempts ++ [⟨i, sample, frame, space⟩]
        pc := .irqEnable i generation ordinal }
  | .irqEnable i generation ordinal =>
      some { s with irqEnabled := true, pc := .update i generation ordinal }
  | .update i generation ordinal =>
      some { s with
        slots := Function.update s.slots i ⟨generation, s.nowMs, true, ordinal⟩
        pc := nextTopic i }

/-- What a step of the transport thread outside `zros_topic_read` can do. -/
inductive TxThreadMove (s : TxLink cfg) : TxLink cfg → Prop
  | due {i : Fin cfg.topicCount} (hpc : s.pc = .topic i)
      (hdue : ((cfg.topics.get i).tx && txDue s i (topicGeneration s i)) = true) :
      TxThreadMove s { s with pc := .read i (topicGeneration s i) (s.samples i).length }
  | notDue {i : Fin cfg.topicCount} (hpc : s.pc = .topic i)
      (hnot : ((cfg.topics.get i).tx && txDue s i (topicGeneration s i)) = false) :
      TxThreadMove s { s with pc := nextTopic i }
  | full {i : Fin cfg.topicCount} {generation : UInt32} {ordinal sample : Nat} {frame : List UInt8}
      (hpc : s.pc = .space i generation ordinal sample frame) (hfull : ringSpace s < frame.length) :
      TxThreadMove s { s with
        stats := { s.stats with txDropped := s.stats.txDropped + 1 }
        attempts := s.attempts ++ [⟨i, sample, frame, ringSpace s⟩]
        pc := .update i generation ordinal }
  | room {i : Fin cfg.topicCount} {generation : UInt32} {ordinal sample : Nat} {frame : List UInt8}
      (hpc : s.pc = .space i generation ordinal sample frame) (hroom : frame.length ≤ ringSpace s) :
      TxThreadMove s { s with pc := .put i generation ordinal sample frame (ringSpace s) }
  | put {i : Fin cfg.topicCount} {generation : UInt32} {ordinal sample : Nat} {frame : List UInt8}
      {space : Nat} (hpc : s.pc = .put i generation ordinal sample frame space) :
      TxThreadMove s { s with
        ring := s.ring ++ frame.take (ringSpace s)
        stats := { s.stats with txFrames := s.stats.txFrames + 1 }
        attempts := s.attempts ++ [⟨i, sample, frame, space⟩]
        pc := .irqEnable i generation ordinal }
  | irqEnable {i : Fin cfg.topicCount} {generation : UInt32} {ordinal : Nat}
      (hpc : s.pc = .irqEnable i generation ordinal) :
      TxThreadMove s { s with irqEnabled := true, pc := .update i generation ordinal }
  | update {i : Fin cfg.topicCount} {generation : UInt32} {ordinal : Nat}
      (hpc : s.pc = .update i generation ordinal) :
      TxThreadMove s { s with
        slots := Function.update s.slots i ⟨generation, s.nowMs, true, ordinal⟩
        pc := nextTopic i }

theorem txThread_cases {s t : TxLink cfg} (hstep : txThread s = some t) : TxThreadMove s t := by
  unfold txThread at hstep
  cases hpc : s.pc with
  | idle | read =>
      simp only [hpc] at hstep
      cases hstep
  | topic i =>
      simp only [hpc] at hstep
      split at hstep
      · rename_i hdue
        cases hstep
        exact .due hpc hdue
      · rename_i hnot
        cases hstep
        exact .notDue hpc (Bool.eq_false_iff.mpr hnot)
  | space i generation ordinal sample frame =>
      simp only [hpc] at hstep
      split at hstep
      · rename_i hfull
        cases hstep
        exact .full hpc hfull
      · rename_i hroom
        cases hstep
        exact .room hpc (Nat.le_of_not_lt hroom)
  | put i generation ordinal sample frame space =>
      simp only [hpc, Option.some.injEq] at hstep
      subst hstep
      exact .put hpc
  | irqEnable i generation ordinal =>
      simp only [hpc, Option.some.injEq] at hstep
      subst hstep
      exact .irqEnable hpc
  | update i generation ordinal =>
      simp only [hpc, Option.some.injEq] at hstep
      subst hstep
      exact .update hpc

/-- `zros_topic_read` has returned; the frame is laid out behind it. -/
def txRead (s : TxLink cfg) (sample : Nat) (stack : List UInt8) : Option (TxLink cfg) :=
  match s.pc with
  | .read i generation ordinal =>
      match (s.samples i)[sample - 1]? with
      | none => none
      | some payload =>
          if ordinal ≤ sample ∧ 1 ≤ sample ∧ stack.length = cfg.frameMax then
            let frame := txFrame cfg.toSerialConfig stack (cfg.topics.get i).id s.seq payload
            some { s with seq := s.seq + 1, pc := .space i generation ordinal sample frame }
          else none
  | _ => none

/-- The sender's part of `uart_isr`. -/
def txIsr (s : TxLink cfg) (claimed written : Nat) : Option (TxLink cfg) :=
  if claimed ≤ 32 ∧ claimed ≤ s.ring.length ∧ (claimed = 0 ↔ s.ring = []) ∧ written ≤ claimed then
    some { s with
      sent := s.sent ++ s.ring.take written
      ring := s.ring.drop written
      irqEnabled := if claimed = 0 then false else s.irqEnabled }
  else none

def txStep (s : TxLink cfg) : TxEvent cfg.topicCount → Option (TxLink cfg)
  | .publish i sample =>
      if sample.length = (cfg.topics.get i).payloadSize then
        some { s with samples := Function.update s.samples i (s.samples i ++ [sample]) }
      else none
  | .isr claimed written => txIsr s claimed written
  | .poll nowMs =>
      if h : s.pc = .idle ∧ 0 < cfg.topicCount then
        some { s with nowMs := nowMs, pc := .topic ⟨0, h.2⟩ }
      else none
  | .read sample stack => txRead s sample stack
  | .readFails =>
      match s.pc with
      | .read i _ _ => some { s with pc := nextTopic i }
      | _ => none
  | .thread => txThread s

end Step

end Rdd2
