import Rdd2.SerialRxSound
import Rdd2.SerialTxStream
import Rdd2.SerialUart

/-!
# The transport thread

`zros_serial_thread`, the two halves of `uart_isr` and `rdd2_zros_serial_pause` of
`subsys/zros_serial/zros_serial.c` together: the thread wakes, drains the receive
ring, gives what it accepts to ZROS, scans the topics and goes back to sleep; the
interrupt, other publishers and a shell that parks the port come between any two of
its steps.

Two things hold of the whole that do not show in either half. What the link sends of
an inbound topic is what it accepted on that topic (`echo_was_accepted`): the store
between the two is filled by nobody else. And however often the port is parked, what
was sent between two of the resets is frames that are whole, but for the one whose
rest was thrown away (`sessions_of_whole_frames`).
-/

namespace Rdd2

/-! ## The thread and what it meets -/

/-- Where `rdd2_zros_serial_pause` is: not called, asleep behind `g_paused`, past
`uart_irq_tx_disable`, or returned. -/
inductive PauseStage where
  | running
  | flagged
  | irqOff
  | parked
  deriving DecidableEq, Repr

/-- What was sent between two resets of the transmit ring, what the second of them
threw away, and the frames built meanwhile. -/
structure TxSession (n : Nat) where
  sent : List UInt8
  stranded : List UInt8
  attempts : List (TxAttempt n)
  deriving DecidableEq, Repr

/-- The transport; `tx.sent` and `tx.attempts` are of the session under way. -/
structure SerialThread (cfg : TxConfig) where
  uart : InterruptRing.State UInt8 Rx
  tx : TxLink cfg
  pause : PauseStage
  past : List (TxSession cfg.topicCount)

def threadInit (cfg : TxConfig) : SerialThread cfg where
  uart := uartInit cfg.toSerialConfig
  tx := txInit cfg
  pause := .running
  past := []

inductive ThreadEvent (n : Nat) where
  /-- `uart_isr` has read these bytes. -/
  | rxIsr (bytes : List UInt8)
  | txIsr (claimed written : Nat)
  /-- Another thread publishes. -/
  | publish (i : Fin n) (sample : List UInt8)
  /-- The thread wakes up and finds `g_paused` clear. -/
  | wake
  /-- `ring_buf_get` in `rx_drain`; with nothing left `tx_scan` begins. -/
  | take (nowMs : Int)
  /-- `rx_byte` of the next byte of the chunk. -/
  | handle
  | read (sample : Nat) (stack : List UInt8)
  | readFails
  /-- Any other step of `tx_scan`. -/
  | scan
  /-- `atomic_set(&g_paused, 1)` -/
  | pause
  | irqDisable
  | ringReset
  /-- `atomic_set(&g_paused, 0)` -/
  | resume
  deriving DecidableEq, Repr

section Step

variable {cfg : TxConfig}

/-- The samples that `rx_deliver` has published to a topic. `zros_pub_update` may fail,
and then the store keeps what it had. -/
def accepted (cfg : SerialConfig) (entry : SerialTopic) (published : List Publication) :
    List (List UInt8) :=
  published.zipIdx.filterMap fun p =>
    if p.1.entry = entry ∧ cfg.pubUpdate p.2 = 0 then some p.1.msg else none

/-- The stores after `rx_byte` has turned the calls of `zros_pub_update` from `before`
to `after`. -/
def TxLink.receive (s : TxLink cfg) (before after : List Publication) : TxLink cfg :=
  { s with
    samples := fun i => s.samples i ++ (accepted cfg.toSerialConfig (cfg.topics.get i) after).drop
        (accepted cfg.toSerialConfig (cfg.topics.get i) before).length }

/-- `g_rx_ring` of this transport. -/
abbrev uartReader (cfg : TxConfig) (rxRingSize : Nat) : InterruptRing.Reader UInt8 Rx :=
  serialReader cfg.toSerialConfig rxRingSize

def threadStep (rxRingSize : Nat) (s : SerialThread cfg) :
    ThreadEvent cfg.topicCount → Option (SerialThread cfg)
  | .rxIsr bytes =>
      (InterruptRing.step (uartReader cfg rxRingSize) s.uart (.offer bytes)).map fun uart =>
        { s with uart := uart }
  | .txIsr claimed written =>
      (txStep s.tx (.isr claimed written)).map fun tx => { s with tx := tx }
  | .publish i sample => (txStep s.tx (.publish i sample)).map fun tx => { s with tx := tx }
  | .wake =>
      if s.pause = .running ∧ s.tx.pc = .idle then
        (InterruptRing.step (uartReader cfg rxRingSize) s.uart .wake).map fun uart =>
          { s with uart := uart }
      else none
  | .take nowMs =>
      (InterruptRing.step (uartReader cfg rxRingSize) s.uart .take).bind fun uart =>
        if uart.draining then some { s with uart := uart }
        else (txStep s.tx (.poll nowMs)).map fun tx => { s with uart := uart, tx := tx }
  | .handle =>
      (InterruptRing.step (uartReader cfg rxRingSize) s.uart .handle).map fun uart =>
        { s with
          uart := uart
          tx := s.tx.receive s.uart.reader.link.log.published uart.reader.link.log.published }
  | .read sample stack => (txStep s.tx (.read sample stack)).map fun tx => { s with tx := tx }
  | .readFails => (txStep s.tx .readFails).map fun tx => { s with tx := tx }
  | .scan => (txStep s.tx .thread).map fun tx => { s with tx := tx }
  | .pause => if s.pause = .running then some { s with pause := .flagged } else none
  | .irqDisable =>
      if s.pause = .flagged then
        some { s with pause := .irqOff, tx := { s.tx with irqEnabled := false } }
      else none
  | .ringReset =>
      if s.pause = .irqOff then
        some { s with
          pause := .parked
          tx := { s.tx with ring := [], sent := [], attempts := [] }
          past := s.past ++ [⟨s.tx.sent, s.tx.ring, s.tx.attempts⟩] }
      else none
  | .resume => if s.pause = .parked then some { s with pause := .running } else none

def SerialThread.asleep (s : SerialThread cfg) : Bool :=
  !s.uart.draining && decide (s.tx.pc = .idle)

end Step

variable {cfg : TxConfig} {rxRingSize : Nat}

/-! ## What a step can do -/

/-- The steps of one half alone, of both, and of the shell. -/
theorem threadStep_cases {s t : SerialThread cfg} {e : ThreadEvent cfg.topicCount}
    (h : threadStep rxRingSize s e = some t) :
    (∃ v uart, v ≠ .handle ∧ (v = .wake → s.pause = .running) ∧
        InterruptRing.step (uartReader cfg rxRingSize) s.uart v = some uart ∧
        t = { s with uart := uart }) ∨
      (∃ w tx, (∀ i sample, w = .publish i sample → e = .publish i sample) ∧
        (∀ nowMs, w ≠ .poll nowMs) ∧ txStep s.tx w = some tx ∧ t = { s with tx := tx }) ∨
      (∃ nowMs uart tx, InterruptRing.step (uartReader cfg rxRingSize) s.uart .take = some uart ∧
        txStep s.tx (.poll nowMs) = some tx ∧ t = { s with uart := uart, tx := tx }) ∨
      (∃ uart, InterruptRing.step (uartReader cfg rxRingSize) s.uart .handle = some uart ∧
        t = { s with
          uart := uart
          tx := s.tx.receive s.uart.reader.link.log.published
            uart.reader.link.log.published }) ∨
      (e = .pause ∧ t = { s with pause := .flagged }) ∨
      (e = .irqDisable ∧ t = { s with pause := .irqOff, tx := { s.tx with irqEnabled := false } }) ∨
      (s.pause = .irqOff ∧ t = { s with
          pause := .parked
          tx := { s.tx with ring := [], sent := [], attempts := [] }
          past := s.past ++ [⟨s.tx.sent, s.tx.ring, s.tx.attempts⟩] }) ∨
      (e = .resume ∧ t = { s with pause := .running }) := by
  cases e with
  | rxIsr bytes =>
      rw [threadStep] at h
      obtain ⟨uart, huart, rfl⟩ := Option.map_eq_some_iff.mp h
      exact Or.inl ⟨.offer bytes, uart, nofun, nofun, huart, rfl⟩
  | txIsr claimed written =>
      rw [threadStep] at h
      obtain ⟨tx, htx, rfl⟩ := Option.map_eq_some_iff.mp h
      exact Or.inr (Or.inl ⟨.isr claimed written, tx, nofun, nofun, htx, rfl⟩)
  | publish i sample =>
      rw [threadStep] at h
      obtain ⟨tx, htx, rfl⟩ := Option.map_eq_some_iff.mp h
      refine Or.inr (Or.inl ⟨.publish i sample, tx, ?_, nofun, htx, rfl⟩)
      intro j later hpublish
      cases hpublish
      rfl
  | wake =>
      rw [threadStep] at h
      split at h
      · rename_i hrunning
        obtain ⟨uart, huart, rfl⟩ := Option.map_eq_some_iff.mp h
        exact Or.inl ⟨.wake, uart, nofun, fun _ => hrunning.1, huart, rfl⟩
      · cases h
  | take nowMs =>
      rw [threadStep] at h
      obtain ⟨uart, huart, hrest⟩ := Option.bind_eq_some_iff.mp h
      split at hrest
      · cases hrest
        exact Or.inl ⟨.take, uart, nofun, nofun, huart, rfl⟩
      · obtain ⟨tx, htx, rfl⟩ := Option.map_eq_some_iff.mp hrest
        exact Or.inr (Or.inr (Or.inl ⟨nowMs, uart, tx, huart, htx, rfl⟩))
  | handle =>
      rw [threadStep] at h
      obtain ⟨uart, huart, rfl⟩ := Option.map_eq_some_iff.mp h
      exact Or.inr (Or.inr (Or.inr (Or.inl ⟨uart, huart, rfl⟩)))
  | read sample stack =>
      rw [threadStep] at h
      obtain ⟨tx, htx, rfl⟩ := Option.map_eq_some_iff.mp h
      exact Or.inr (Or.inl ⟨.read sample stack, tx, nofun, nofun, htx, rfl⟩)
  | readFails =>
      rw [threadStep] at h
      obtain ⟨tx, htx, rfl⟩ := Option.map_eq_some_iff.mp h
      exact Or.inr (Or.inl ⟨.readFails, tx, nofun, nofun, htx, rfl⟩)
  | scan =>
      rw [threadStep] at h
      obtain ⟨tx, htx, rfl⟩ := Option.map_eq_some_iff.mp h
      exact Or.inr (Or.inl ⟨.thread, tx, nofun, nofun, htx, rfl⟩)
  | pause =>
      rw [threadStep] at h
      split at h
      · exact Or.inr (Or.inr (Or.inr (Or.inr (Or.inl ⟨rfl, (Option.some.inj h).symm⟩))))
      · cases h
  | irqDisable =>
      rw [threadStep] at h
      split at h
      · exact Or.inr (Or.inr (Or.inr (Or.inr (Or.inr (Or.inl
          ⟨rfl, (Option.some.inj h).symm⟩)))))
      · cases h
  | ringReset =>
      rw [threadStep] at h
      split at h
      · rename_i hoff
        exact Or.inr (Or.inr (Or.inr (Or.inr (Or.inr (Or.inr (Or.inl
          ⟨hoff, (Option.some.inj h).symm⟩))))))
      · cases h
  | resume =>
      rw [threadStep] at h
      split at h
      · exact Or.inr (Or.inr (Or.inr (Or.inr (Or.inr (Or.inr (Or.inr
          ⟨rfl, (Option.some.inj h).symm⟩))))))
      · cases h

/-! ## Sessions laid end to end -/

def TxLink.behind (sent : List UInt8) (attempts : List (TxAttempt cfg.topicCount))
    (s : TxLink cfg) : TxLink cfg :=
  { s with sent := sent ++ s.sent, attempts := attempts ++ s.attempts }

theorem txStep_behind (sent : List UInt8) (attempts : List (TxAttempt cfg.topicCount))
    (s : TxLink cfg) (e : TxEvent cfg.topicCount) :
    txStep (s.behind sent attempts) e = (txStep s e).map (TxLink.behind sent attempts) := by
  have hite (c : Prop) [Decidable c] (x y : Option (TxLink cfg)) :
      (if c then x else y).map (TxLink.behind sent attempts) =
        if c then x.map (TxLink.behind sent attempts) else y.map (TxLink.behind sent attempts) :=
    apply_ite (Option.map (TxLink.behind sent attempts)) c x y
  cases e with
  | publish i sample =>
      simp only [txStep, hite, Option.map_some, Option.map_none, TxLink.behind]
  | isr claimed written =>
      simp only [txStep, txIsr, hite, Option.map_some, Option.map_none, TxLink.behind,
        List.append_assoc]
  | poll nowMs =>
      simp only [txStep, apply_dite (Option.map (TxLink.behind sent attempts)), Option.map_some,
        Option.map_none, TxLink.behind]
      rfl
  | read sample stack =>
      simp only [txStep, txRead]
      cases hpc : s.pc with
      | read i generation n =>
          simp only [hpc, TxLink.behind]
          cases (s.samples i)[sample - 1]? with
          | none => rfl
          | some payload =>
              simp only [hite, Option.map_some, Option.map_none, TxLink.behind]
      | _ =>
          simp only [hpc, TxLink.behind]
          rfl
  | readFails =>
      simp only [txStep]
      cases hpc : s.pc with
      | read i generation n =>
          simp only [hpc, TxLink.behind]
          rfl
      | _ =>
          simp only [hpc, TxLink.behind]
          rfl
  | thread =>
      simp only [txStep, txThread]
      cases hpc : s.pc with
      | topic i =>
          have hdue : txDue (s.behind sent attempts) i = txDue s i := rfl
          have hgeneration : topicGeneration (s.behind sent attempts) i = topicGeneration s i := rfl
          rw [show (s.behind sent attempts).pc = s.pc from rfl, hpc]
          simp only [hdue, hgeneration, hite, Option.map_some]
          rfl
      | space i generation n sample frame =>
          have hspace : ringSpace (s.behind sent attempts) = ringSpace s := rfl
          rw [show (s.behind sent attempts).pc = s.pc from rfl, hpc]
          simp only [hspace, hite, Option.map_some]
          simp only [TxLink.behind, List.append_assoc]
      | put i generation n sample frame space =>
          simp only [hpc, Option.map_some, TxLink.behind, ringSpace, List.append_assoc]
      | _ =>
          simp only [hpc, TxLink.behind]
          rfl

/-- The sender as if the port had never been parked. -/
def SerialThread.whole (s : SerialThread cfg) : TxLink cfg :=
  s.tx.behind (s.past.flatMap fun p => p.sent ++ p.stranded) (s.past.flatMap TxSession.attempts)

theorem TxInv.grow {s : TxLink cfg} (h : TxInv s)
    {samples : Fin cfg.topicCount → List (List UInt8)} (hgrow : ∀ i, s.samples i <+: samples i)
    (hsized : ∀ i, ∀ sample ∈ samples i, sample.length = (cfg.topics.get i).payloadSize) :
    TxInv { s with samples := samples } := by
  refine ⟨hsized, ?_, h.unprimed, fun a ha => (h.complete a ha).mono hgrow, h.stream, h.txFrames,
    h.txDropped, ?_⟩
  · intro i hi
    exact ⟨(h.primed i hi).1.mono (hgrow i), (h.primed i hi).2⟩
  · have hfacts := h.facts
    unfold TxPcFacts at hfacts ⊢
    cases hpc : s.pc with
    | idle => trivial
    | topic i => trivial
    | read i generation n =>
        simp only [hpc] at hfacts ⊢
        exact hfacts.mono (hgrow i)
    | space i generation n k frame =>
        simp only [hpc] at hfacts ⊢
        obtain ⟨hsampled, hle, hcomplete⟩ := hfacts
        exact ⟨hsampled.mono (hgrow i), hle, hcomplete.mono hgrow⟩
    | put i generation n k frame space =>
        simp only [hpc] at hfacts ⊢
        obtain ⟨hsampled, hle, hcomplete, hroom⟩ := hfacts
        exact ⟨hsampled.mono (hgrow i), hle, hcomplete.mono hgrow, hroom⟩
    | irqEnable i generation n =>
        simp only [hpc] at hfacts ⊢
        exact ⟨hfacts.1.mono (hgrow i), hfacts.2⟩
    | update i generation n =>
        simp only [hpc] at hfacts ⊢
        exact ⟨hfacts.1.mono (hgrow i), hfacts.2⟩

/-- The ring is emptied, by whom and to where does not matter. -/
theorem TxInv.emptied {s : TxLink cfg} (h : TxInv s) :
    TxInv { s with sent := s.sent ++ s.ring, ring := [] } := by
  refine ⟨h.sized, h.primed, h.unprimed, h.complete, ?_, h.txFrames, h.txDropped, ?_⟩
  · rw [List.append_nil]
    exact h.stream
  · have hfacts := h.facts
    unfold TxPcFacts at hfacts ⊢
    cases hpc : s.pc with
    | put i generation n k frame space =>
        simp only [hpc, ringSpace, List.length_nil] at hfacts ⊢
        obtain ⟨hsampled, hle, hcomplete, hfits, hroom⟩ := hfacts
        exact ⟨hsampled, hle, hcomplete, hfits, by omega⟩
    | _ =>
        simp only [hpc] at hfacts ⊢
        try exact hfacts

/-! ## What the receiver has published -/

theorem accepted_append (cfg : SerialConfig) (entry : SerialTopic)
    {published later : List Publication} (h : published <+: later) :
    accepted cfg entry later = accepted cfg entry published ++
      (accepted cfg entry later).drop (accepted cfg entry published).length := by
  obtain ⟨more, rfl⟩ := h
  rw [accepted, accepted, List.zipIdx_append, List.filterMap_append, List.drop_left]

theorem mem_accepted {cfg : SerialConfig} {entry : SerialTopic} {published : List Publication}
    {sample : List UInt8} (h : sample ∈ accepted cfg entry published) :
    ∃ p ∈ published, p.entry = entry ∧ p.msg = sample := by
  obtain ⟨p, hp, hsample⟩ := List.mem_filterMap.mp h
  split at hsample
  · rename_i hentry
    exact ⟨p.1, List.fst_mem_of_mem_zipIdx hp, hentry.1, Option.some.inj hsample⟩
  · cases hsample

/-- The receiver behind its ring, however far it has come. -/
theorem account_published {s : InterruptRing.State UInt8 Rx}
    (h : InterruptRing.Account (uartReader cfg rxRingSize) (rxInit cfg.toSerialConfig) s) :
    s.reader.parser.Wf cfg.toSerialConfig ∧ s.reader.replaying = false ∧
      s.reader.link.log = (rxFeed cfg.toSerialConfig (rxInit cfg.toSerialConfig) s.handled).link.log := by
  have hafter := rxFeed_rxInit cfg.toSerialConfig s.handled
  have hreader : s.reader = (rxFeed cfg.toSerialConfig (rxInit cfg.toSerialConfig) s.handled).overrun
      (s.offered.length - s.stored.length) := h.reader_eq
  rw [hreader]
  exact ⟨hafter.wf, hafter.replaying_eq, rfl⟩

/-- A call of `zros_pub_update` was for a frame that the receiver accepted. -/
theorem publication_of_published {s : InterruptRing.State UInt8 Rx}
    (h : InterruptRing.Account (uartReader cfg rxRingSize) (rxInit cfg.toSerialConfig) s)
    {p : Publication} (hp : p ∈ s.reader.link.log.published) :
    ∃ f ∈ s.reader.link.log.delivered, publication cfg.toSerialConfig f = some p := by
  obtain ⟨-, -, hlog⟩ := account_published h
  rw [hlog] at hp ⊢
  rw [(rx_sound cfg.toSerialConfig s.handled).2.1] at hp
  exact List.mem_filterMap.mp hp

/-- Nothing but `rx_byte` calls `zros_pub_update`, and it takes none back. -/
theorem step_published {s t : InterruptRing.State UInt8 Rx} {v : InterruptRing.Event UInt8}
    (h : InterruptRing.Account (uartReader cfg rxRingSize) (rxInit cfg.toSerialConfig) s)
    (hstep : InterruptRing.step (uartReader cfg rxRingSize) s v = some t) :
    s.reader.link.log.published <+: t.reader.link.log.published ∧
      (v ≠ .handle → t.reader.link.log.published = s.reader.link.log.published) := by
  rcases InterruptRing.step_cases _ hstep with ⟨items, -, rfl⟩ | ⟨-, -, rfl⟩ | ⟨-, -, -, -, rfl⟩
    | ⟨-, -, -, -, rfl⟩ | ⟨b, rest, rfl, -, rfl⟩
  · exact ⟨List.prefix_rfl, fun _ => rfl⟩
  · exact ⟨List.prefix_rfl, fun _ => rfl⟩
  · exact ⟨List.prefix_rfl, fun _ => rfl⟩
  · exact ⟨List.prefix_rfl, fun _ => rfl⟩
  · refine ⟨?_, fun hne => absurd rfl hne⟩
    obtain ⟨hwf, hreplaying, -⟩ := account_published h
    have hafter := rxByte_refines hwf hreplaying b
    exact ⟨_, hafter.link.published_eq.symm⟩

/-! ## Over a run -/

structure ThreadInv (rxRingSize : Nat) (s : SerialThread cfg) : Prop where
  account : InterruptRing.Account (uartReader cfg rxRingSize) (rxInit cfg.toSerialConfig) s.uart
  whole : TxInv s.whole
  numbering : TxNumbering s.whole
  past : ∀ p ∈ s.past, p.sent ++ p.stranded = placedBytes p.attempts

theorem threadInit_inv : ThreadInv rxRingSize (threadInit cfg) where
  account := InterruptRing.init_account (serialReader_lawful _ _) _
  whole := txInit_inv
  numbering := ⟨rfl, fun _ _ h => by cases h⟩
  past := fun _ h => by cases h

theorem placedBytes_append (a b : List (TxAttempt cfg.topicCount)) :
    placedBytes (a ++ b) = placedBytes a ++ placedBytes b := by
  rw [placedBytes, List.filter_append, List.flatMap_append]
  rfl

theorem placedBytes_sessions {past : List (TxSession cfg.topicCount)}
    (h : ∀ p ∈ past, p.sent ++ p.stranded = placedBytes p.attempts) :
    (past.flatMap fun p => p.sent ++ p.stranded) = placedBytes (past.flatMap TxSession.attempts) := by
  induction past with
  | nil => rfl
  | cons p past ih =>
      rw [List.forall_mem_cons] at h
      rw [List.flatMap_cons, List.flatMap_cons, placedBytes_append, h.1, ih h.2]

theorem ThreadInv.stream {s : SerialThread cfg} (h : ThreadInv rxRingSize s) :
    s.tx.sent ++ s.tx.ring = placedBytes s.tx.attempts := by
  have hstream : (s.past.flatMap fun p => p.sent ++ p.stranded) ++ s.tx.sent ++ s.tx.ring
      = placedBytes (s.past.flatMap TxSession.attempts ++ s.tx.attempts) := h.whole.stream
  rw [placedBytes_append, ← placedBytes_sessions h.past, List.append_assoc] at hstream
  exact List.append_cancel_left hstream

/-- A step of the sender is one of the sender that was never parked. -/
theorem ThreadInv.tx {s : SerialThread cfg} (h : ThreadInv rxRingSize s)
    {w : TxEvent cfg.topicCount} {tx : TxLink cfg} (hstep : txStep s.tx w = some tx) :
    TxInv (SerialThread.whole { s with tx := tx }) ∧
      TxNumbering (SerialThread.whole { s with tx := tx }) := by
  have hwhole : txStep s.whole w = some (SerialThread.whole { s with tx := tx }) := by
    rw [SerialThread.whole, txStep_behind, hstep]
    rfl
  exact ⟨txStep_inv _ _ _ h.whole hwhole, txStep_numbering h.whole h.numbering hwhole⟩

theorem threadStep_inv (s : SerialThread cfg) (e : ThreadEvent cfg.topicCount)
    (t : SerialThread cfg) (h : ThreadInv rxRingSize s)
    (hstep : threadStep rxRingSize s e = some t) : ThreadInv rxRingSize t := by
  have hR := serialReader_lawful cfg.toSerialConfig rxRingSize
  rcases threadStep_cases hstep with ⟨v, uart, -, -, huart, rfl⟩ | ⟨w, tx, -, -, htx, rfl⟩
    | ⟨nowMs, uart, tx, huart, htx, rfl⟩ | ⟨uart, huart, rfl⟩ | ⟨-, rfl⟩ | ⟨-, rfl⟩ | ⟨-, rfl⟩
    | ⟨-, rfl⟩
  · exact ⟨InterruptRing.step_account hR _ _ _ h.account huart, h.whole, h.numbering, h.past⟩
  · exact ⟨h.account, (h.tx htx).1, (h.tx htx).2, h.past⟩
  · exact ⟨InterruptRing.step_account hR _ _ _ h.account huart, (h.tx htx).1, (h.tx htx).2, h.past⟩
  · have haccount := InterruptRing.step_account hR _ _ _ h.account huart
    refine ⟨haccount, h.whole.grow (fun i => List.prefix_append _ _) ?_,
      h.numbering.keep rfl rfl, h.past⟩
    intro i sample hsample
    rcases List.mem_append.mp hsample with hold | hnew
    · exact h.whole.sized i sample hold
    · obtain ⟨p, hp, hentry, rfl⟩ := mem_accepted (List.mem_of_mem_drop hnew)
      obtain ⟨f, -, hf⟩ := publication_of_published haccount hp
      obtain ⟨-, -, -, -, hlength, hmsg⟩ := publication_eq_some hf
      rw [hmsg, hlength, hentry]
  · exact ⟨h.account, h.whole, h.numbering, h.past⟩
  · have hwhole := h.whole
    exact ⟨h.account, ⟨hwhole.sized, hwhole.primed, hwhole.unprimed, hwhole.complete, hwhole.stream,
      hwhole.txFrames, hwhole.txDropped, hwhole.facts⟩, h.numbering.keep rfl rfl, h.past⟩
  · have hreset : SerialThread.whole { s with
        pause := .parked
        tx := { s.tx with ring := [], sent := [], attempts := [] }
        past := s.past ++ [⟨s.tx.sent, s.tx.ring, s.tx.attempts⟩] }
        = { s.whole with sent := s.whole.sent ++ s.whole.ring, ring := [] } := by
      simp [SerialThread.whole, TxLink.behind]
    refine ⟨h.account, ?_, ?_, ?_⟩
    · rw [hreset]
      exact h.whole.emptied
    · rw [hreset]
      exact h.numbering.keep rfl rfl
    · intro p hp
      rcases List.mem_append.mp hp with hold | hnew
      · exact h.past p hold
      · rw [List.mem_singleton] at hnew
        subst hnew
        exact h.stream
  · exact ⟨h.account, h.whole, h.numbering, h.past⟩

/-! ## An inbound topic as telemetry -/

/-- Only the transport publishes to an inbound topic. -/
def OthersKeepOut (cfg : TxConfig) (e : ThreadEvent cfg.topicCount) : Prop :=
  ∀ i sample, e = .publish i sample → (cfg.topics.get i).rx = false

/-- The store of an inbound topic holds what the receiver published to it. -/
def StoresAccepted (s : SerialThread cfg) : Prop :=
  ∀ i, (cfg.topics.get i).rx = true → s.tx.samples i
    = accepted cfg.toSerialConfig (cfg.topics.get i) s.uart.reader.link.log.published

theorem txStep_samples {s t : TxLink cfg} {w : TxEvent cfg.topicCount} (h : txStep s w = some t) :
    (∃ i sample, w = .publish i sample ∧
        t.samples = Function.update s.samples i (s.samples i ++ [sample])) ∨
      t.samples = s.samples := by
  cases w with
  | publish i sample =>
      simp only [txStep] at h
      split at h
      · cases h
        exact Or.inl ⟨i, sample, rfl, rfl⟩
      · cases h
  | isr claimed written =>
      simp only [txStep, txIsr] at h
      split at h
      · cases h
        exact Or.inr rfl
      · cases h
  | poll nowMs =>
      simp only [txStep] at h
      split at h
      · cases h
        exact Or.inr rfl
      · cases h
  | read sample stack =>
      simp only [txStep, txRead] at h
      split at h
      · split at h
        · cases h
        · split at h
          · cases h
            exact Or.inr rfl
          · cases h
      · cases h
  | readFails =>
      simp only [txStep] at h
      split at h
      · cases h
        exact Or.inr rfl
      · cases h
  | thread =>
      cases txThread_cases h <;> exact Or.inr rfl

theorem threadStep_stores (s : SerialThread cfg) (e : ThreadEvent cfg.topicCount)
    (t : SerialThread cfg) (hothers : OthersKeepOut cfg e)
    (h : ThreadInv rxRingSize s ∧ StoresAccepted s)
    (hstep : threadStep rxRingSize s e = some t) : ThreadInv rxRingSize t ∧ StoresAccepted t := by
  refine ⟨threadStep_inv s e t h.1 hstep, ?_⟩
  intro i hi
  have hstore := h.2 i hi
  rcases threadStep_cases hstep with ⟨v, uart, hv, -, huart, rfl⟩ | ⟨w, tx, hw, -, htx, rfl⟩
    | ⟨nowMs, uart, tx, huart, htx, rfl⟩ | ⟨uart, huart, rfl⟩ | ⟨-, rfl⟩ | ⟨-, rfl⟩ | ⟨-, rfl⟩
    | ⟨-, rfl⟩
  · rw [(step_published h.1.account huart).2 hv]
    exact hstore
  · rcases txStep_samples htx with ⟨j, sample, hpublish, hsamples⟩ | hsamples
    · have hj := hothers j sample (hw j sample hpublish)
      have hne : i ≠ j := fun heq => by rw [heq, hj] at hi; cases hi
      rw [hsamples, Function.update_of_ne hne]
      exact hstore
    · rw [hsamples]
      exact hstore
  · rcases txStep_samples htx with ⟨j, sample, hpublish, -⟩ | hsamples
    · cases hpublish
    · rw [hsamples, (step_published h.1.account huart).2 nofun]
      exact hstore
  · have hgrow := accepted_append cfg.toSerialConfig (cfg.topics.get i)
      (step_published h.1.account huart).1
    rw [hgrow, ← hstore]
    show s.tx.samples i ++ _ = _
    rw [← hstore]
  · exact hstore
  · exact hstore
  · exact hstore
  · exact hstore

/-- While nobody else publishes to the inbound topics: every frame the link builds of
one, in whatever session, holds the payload of a frame that it received on that topic,
whole, with the checksum right, and of the length the topic has. -/
theorem echo_was_accepted (cfg : TxConfig) (rxRingSize : Nat)
    (events : List (ThreadEvent cfg.topicCount)) (s : SerialThread cfg)
    (hothers : ∀ e ∈ events, OthersKeepOut cfg e)
    (hrun : Guarded.run (threadStep rxRingSize) (threadInit cfg) events = some s)
    (a : TxAttempt cfg.topicCount) (ha : a ∈ s.whole.attempts)
    (hinbound : (cfg.topics.get a.topic).rx = true) :
    ∃ f ∈ s.uart.reader.link.log.delivered, f.topicId = (cfg.topics.get a.topic).id ∧
      f.payload.length = (cfg.topics.get a.topic).payloadSize ∧
      (∃ flags, f.wire flags <:+: s.uart.handled) ∧
      ∃ seq, a.frame = Frame.wire ⟨f.topicId, seq, f.payload⟩ 0 := by
  obtain ⟨hinv, hstores⟩ := Guarded.run_keeps (threadStep rxRingSize)
    (P := fun s => ThreadInv rxRingSize s ∧ StoresAccepted s) threadStep_stores
    ⟨threadInit_inv, fun _ _ => rfl⟩ hothers hrun
  obtain ⟨-, payload, seq, hpayload, hframe⟩ := hinv.whole.complete a ha
  have hsample : payload ∈ s.tx.samples a.topic := List.mem_of_getElem? hpayload
  rw [hstores a.topic hinbound] at hsample
  obtain ⟨p, hp, hentry, hmsg⟩ := mem_accepted hsample
  obtain ⟨f, hdelivered, hf⟩ := publication_of_published hinv.account hp
  obtain ⟨-, hid, -, -, hlength, hpublished⟩ := publication_eq_some hf
  rw [hentry] at hid hlength
  refine ⟨f, hdelivered, hid.symm, hlength, ?_, seq, ?_⟩
  · obtain ⟨-, -, hlog⟩ := account_published hinv.account
    rw [hlog] at hdelivered
    obtain ⟨pieces, rest, hstream, hframes, -⟩ := (rx_sound cfg.toSerialConfig s.uart.handled).1
    rw [hframes] at hdelivered
    obtain ⟨piece, hpiece, rfl⟩ := List.mem_map.mp hdelivered
    obtain ⟨before, after, rfl⟩ := List.append_of_mem hpiece
    refine ⟨piece.flags, before.flatMap Piece.bytes ++ piece.skipped,
      after.flatMap Piece.bytes ++ rest, ?_⟩
    rw [hstream]
    simp [Piece.bytes]
  · rw [hframe, ← hpublished, hmsg, hid]

def TxConfig.echo : TxConfig where
  toSerialConfig := { SerialConfig.mocap with topics := [⟨"gnss", true, true, true, 8, 3⟩] }
  txRingSize := 64
  txMinIntervalMs := 200
  resolved := by decide

/-- A frame comes in on one interrupt, is handled and published, and goes out again with
the next scan. -/
def fixEchoed : List (ThreadEvent TxConfig.echo.topicCount) :=
  [.rxIsr (Frame.wire ⟨8, 7, [1, 2, 3]⟩ 0), .wake, .take 0] ++ List.replicate 13 .handle ++
    [.take 40, .scan, .read 1 (List.replicate 138 0)] ++ List.replicate 4 .scan

theorem echo_was_accepted_fix :
    ∃ s, Guarded.run (threadStep 128) (threadInit .echo) fixEchoed = some s ∧
      ∃ a ∈ s.whole.attempts, ∃ f ∈ s.uart.reader.link.log.delivered, f.topicId = 8 ∧
        ∃ seq, a.frame = Frame.wire ⟨f.topicId, seq, f.payload⟩ 0 := by
  obtain ⟨s, hs, hbuilt⟩ : ∃ s, Guarded.run (threadStep 128) (threadInit .echo) fixEchoed = some s ∧
      s.whole.attempts ≠ [] := Guarded.run_any _ (by decide +kernel)
  have hothers : ∀ e ∈ fixEchoed, OthersKeepOut .echo e := by
    intro e he i sample hpublish
    rw [hpublish] at he
    exact absurd he (by simp [fixEchoed])
  obtain ⟨a, ha⟩ := List.exists_mem_of_ne_nil _ hbuilt
  have hentry (i : Fin TxConfig.echo.topicCount) :
      TxConfig.echo.topics.get i = ⟨"gnss", true, true, true, 8, 3⟩ :=
    List.mem_singleton.mp (List.get_mem _ i)
  obtain ⟨f, hf, hid, -, -, hframe⟩ :=
    echo_was_accepted .echo 128 fixEchoed s hothers hs a ha (by rw [hentry])
  exact ⟨s, hs, a, ha, f, hf, by rw [hid, hentry], hframe⟩

/-! ## A port that is parked -/

/-- The sleep of `rdd2_zros_serial_pause` outlasts the poll in flight. -/
def Outlasts (s : SerialThread cfg) (e : ThreadEvent cfg.topicCount) : Prop :=
  e = .irqDisable → s.asleep = true

instance (s : SerialThread cfg) (e : ThreadEvent cfg.topicCount) : Decidable (Outlasts s e) :=
  inferInstanceAs (Decidable (_ → _))

/-- Past `uart_irq_tx_disable` nothing moves until the port is given back. -/
structure Parked (s : SerialThread cfg) : Prop where
  asleep : s.pause = .irqOff ∨ s.pause = .parked →
    s.uart.draining = false ∧ s.tx.pc = .idle ∧ s.tx.irqEnabled = false
  silent : s.pause = .parked → s.tx.ring = [] ∧ s.tx.sent = [] ∧ s.tx.attempts = []

theorem Parked.elsewhere {s : SerialThread cfg} (hoff : s.pause ≠ .irqOff)
    (hparked : s.pause ≠ .parked) : Parked s where
  asleep := fun hpause => (hpause.elim hoff hparked).elim
  silent := fun hpause => (hparked hpause).elim

theorem txStep_idle {s t : TxLink cfg} {w : TxEvent cfg.topicCount} (hidle : s.pc = .idle)
    (hpoll : ∀ nowMs, w ≠ .poll nowMs) (h : txStep s w = some t) :
    t.pc = .idle ∧ (s.irqEnabled = false → t.irqEnabled = false) ∧
      (s.ring = [] → t.ring = [] ∧ t.sent = s.sent) ∧ t.attempts = s.attempts := by
  cases w with
  | publish i sample =>
      simp only [txStep] at h
      split at h
      · cases h
        exact ⟨hidle, id, fun hring => ⟨hring, rfl⟩, rfl⟩
      · cases h
  | isr claimed written =>
      simp only [txStep, txIsr] at h
      split at h
      · cases h
        refine ⟨hidle, fun hoff => ?_, fun hring => ?_, rfl⟩
        · rw [hoff, ite_self]
        · rw [hring, List.drop_nil, List.take_nil, List.append_nil]
          exact ⟨rfl, rfl⟩
      · cases h
  | poll nowMs => exact absurd rfl (hpoll nowMs)
  | read sample stack =>
      rw [txStep, txRead, hidle] at h
      cases h
  | readFails =>
      rw [txStep, hidle] at h
      cases h
  | thread =>
      rw [txStep, txThread, hidle] at h
      cases h

theorem threadStep_parked (s : SerialThread cfg) (e : ThreadEvent cfg.topicCount)
    (t : SerialThread cfg) (houtlasts : Outlasts s e) (h : ThreadInv rxRingSize s ∧ Parked s)
    (hstep : threadStep rxRingSize s e = some t) : ThreadInv rxRingSize t ∧ Parked t := by
  refine ⟨threadStep_inv s e t h.1 hstep, ?_⟩
  have hasleep := h.2.asleep
  rcases threadStep_cases hstep with ⟨v, uart, hv, hwake, huart, rfl⟩ | ⟨w, tx, -, hpoll, htx, rfl⟩
    | ⟨nowMs, uart, tx, huart, htx, rfl⟩ | ⟨uart, huart, rfl⟩ | ⟨-, rfl⟩ | ⟨rfl, rfl⟩ | ⟨hoff, rfl⟩
    | ⟨-, rfl⟩
  · refine ⟨fun hpause => ?_, h.2.silent⟩
    obtain ⟨hdraining, hpc, hirq⟩ := hasleep hpause
    refine ⟨?_, hpc, hirq⟩
    rcases InterruptRing.step_cases _ huart with ⟨items, -, rfl⟩ | ⟨rfl, -, rfl⟩ | ⟨-, hon, -, -, rfl⟩
      | ⟨-, hon, -, -, rfl⟩ | ⟨b, rest, rfl, -, rfl⟩
    · exact hdraining
    · -- `g_paused` is set
      rcases hpause with hpause | hpause <;> rw [hwake rfl] at hpause <;> cases hpause
    · rfl
    · exact hdraining
    · exact absurd rfl hv
  · refine ⟨fun hpause => ?_, fun hpause => ?_⟩
    · obtain ⟨hdraining, hpc, hirq⟩ := hasleep hpause
      obtain ⟨hidle, hoff, -, -⟩ := txStep_idle hpc hpoll htx
      exact ⟨hdraining, hidle, hoff hirq⟩
    · obtain ⟨hring, hsent, hattempts⟩ := h.2.silent hpause
      obtain ⟨-, -, hkept, hsame⟩ := txStep_idle (hasleep (Or.inr hpause)).2.1 hpoll htx
      exact ⟨(hkept hring).1, (hkept hring).2.trans hsent, hsame.trans hattempts⟩
  · have hdraining : s.uart.draining = true := by
      rcases InterruptRing.step_cases _ huart with ⟨items, htake, -⟩ | ⟨htake, -, -⟩
        | ⟨-, hon, -, -, -⟩ | ⟨-, hon, -, -, -⟩ | ⟨b, rest, htake, -, -⟩
      · cases htake
      · cases htake
      · exact hon
      · exact hon
      · cases htake
    refine ⟨fun hpause => ?_, fun hpause => ?_⟩
    · rw [(hasleep hpause).1] at hdraining
      cases hdraining
    · rw [(hasleep (Or.inr hpause)).1] at hdraining
      cases hdraining
  · have hchunk : s.uart.chunk ≠ [] := by
      rcases InterruptRing.step_cases _ huart with ⟨items, hhandle, -⟩ | ⟨hhandle, -, -⟩
        | ⟨hhandle, -, -, -, -⟩ | ⟨hhandle, -, -, -, -⟩ | ⟨b, rest, -, hchunk, -⟩
      · cases hhandle
      · cases hhandle
      · cases hhandle
      · cases hhandle
      · rw [hchunk]
        exact List.cons_ne_nil b rest
    refine ⟨fun hpause => ?_, fun hpause => ?_⟩
    · exact absurd (h.1.account.asleep (hasleep hpause).1) hchunk
    · exact absurd (h.1.account.asleep (hasleep (Or.inr hpause)).1) hchunk
  · exact Parked.elsewhere (by simp) (by simp)
  · have hidle := houtlasts rfl
    rw [SerialThread.asleep, Bool.and_eq_true, Bool.not_eq_true', decide_eq_true_eq] at hidle
    exact ⟨fun _ => ⟨hidle.1, hidle.2, rfl⟩, fun hpause => by cases hpause⟩
  · exact ⟨fun _ => hasleep (Or.inl hoff), fun _ => ⟨rfl, rfl, rfl⟩⟩
  · exact Parked.elsewhere (by simp) (by simp)

/-- However often the port is parked, by a shell whose sleep outlasts the poll in
flight: what a session sent and what the reset threw away are the frames that found
room in it, one after the other and whole, so the next session starts at the start of a
frame; the sequence numbers run on over the resets; and while the port is parked the
transport sends nothing, holds nothing and has its interrupt off. -/
theorem sessions_of_whole_frames (cfg : TxConfig) (rxRingSize : Nat)
    (events : List (ThreadEvent cfg.topicCount)) (s : SerialThread cfg)
    (houtlasts : Guarded.Ok (threadStep rxRingSize) Outlasts (threadInit cfg) events)
    (hrun : Guarded.run (threadStep rxRingSize) (threadInit cfg) events = some s) :
    (∀ p ∈ s.past, p.sent ++ p.stranded = placedBytes p.attempts) ∧
      s.tx.sent ++ s.tx.ring = placedBytes s.tx.attempts ∧
      (∀ k a, (s.past.flatMap TxSession.attempts ++ s.tx.attempts)[k]? = some a →
        Numbered (UInt8.ofNat k) (a.topic, a.frame)) ∧
      (s.pause = .parked → s.asleep = true ∧ s.tx.irqEnabled = false ∧ s.tx.ring = [] ∧
        s.tx.sent = [] ∧ s.tx.attempts = []) := by
  obtain ⟨hinv, hparked⟩ := Guarded.ok_keeps (threadStep rxRingSize)
    (P := fun s => ThreadInv rxRingSize s ∧ Parked s) threadStep_parked
    ⟨threadInit_inv, Parked.elsewhere (by simp [threadInit]) (by simp [threadInit])⟩ houtlasts hrun
  refine ⟨hinv.past, hinv.stream, fun k a ha => ?_, fun hpause => ?_⟩
  · refine hinv.numbering.numbered k _ ?_
    have hk := (List.getElem?_eq_some_iff.mp ha).1
    rw [framesBuilt, List.getElem?_append_left (by rw [List.length_map]; exact hk),
      List.getElem?_map]
    exact congrArg (Option.map _) ha
  · obtain ⟨hdraining, hpc, hirq⟩ := hparked.asleep (Or.inr hpause)
    refine ⟨?_, hirq, hparked.silent hpause⟩
    rw [SerialThread.asleep, hdraining, hpc]
    rfl

/-- `VehicleHealth` is put, half of it is sent, and the port is parked. -/
def healthStranded : List (ThreadEvent TxConfig.smallRing.topicCount) :=
  [.publish healthTopic (List.replicate 48 1), .wake, .take 0, .scan,
    .read 1 (List.replicate 138 0)] ++ List.replicate 9 .scan ++
    [.txIsr 32 32, .pause, .irqDisable, .ringReset]

theorem sessions_of_whole_frames_stranded :
    ∃ s, Guarded.run (threadStep 128) (threadInit .smallRing) healthStranded = some s ∧
      s.tx.ring = [] ∧ ∀ p ∈ s.past, p.sent ++ p.stranded = placedBytes p.attempts := by
  obtain ⟨s, hs, hparked⟩ : ∃ s,
      Guarded.run (threadStep 128) (threadInit .smallRing) healthStranded = some s ∧
        s.pause = .parked := Guarded.run_any _ (by decide +kernel)
  have h := sessions_of_whole_frames .smallRing 128 healthStranded s (by decide +kernel) hs
  exact ⟨s, hs, (h.2.2.2 hparked).2.2.1, h.1⟩

end Rdd2
