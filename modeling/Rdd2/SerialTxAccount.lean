import Rdd2.SerialTx

/-!
# Every sample is sent or counted

What the sender has on record in any reachable state: a primed slot stands
for a frame that was built from a sample at least as new as the generation
it records; every such frame is whole; and it is in the byte stream or, if
the ring had no room for it, in `tx_dropped`.
-/

namespace Rdd2

variable {cfg : TxConfig}

/-! ## What is on record -/

/-- The frame is the whole frame of the sample it claims to hold. -/
def TxAttempt.Complete (samples : Fin cfg.topicCount → List (List UInt8))
    (a : TxAttempt cfg.topicCount) : Prop :=
  1 ≤ a.ordinal ∧ ∃ payload seq, (samples a.topic)[a.ordinal - 1]? = some payload ∧
    a.frame = Frame.wire ⟨(cfg.topics.get a.topic).id, seq, payload⟩ 0

/-- A frame with sample `n` of the topic or a later one was built. -/
def Attempted (s : TxLink cfg) (i : Fin cfg.topicCount) (n : Nat) : Prop :=
  ∃ a ∈ s.attempts, a.topic = i ∧ n ≤ a.ordinal

/-- `generation` was read when there were `n` samples. -/
def Sampled (s : TxLink cfg) (i : Fin cfg.topicCount) (generation : UInt32) (n : Nat) : Prop :=
  n ≤ (s.samples i).length ∧ generation = UInt32.ofNat n

def placedBytes (attempts : List (TxAttempt cfg.topicCount)) : List UInt8 :=
  (attempts.filter TxAttempt.placed).flatMap TxAttempt.frame

def TxPcFacts (s : TxLink cfg) : Prop :=
  match s.pc with
  | .idle | .topic _ => True
  | .read i generation n => Sampled s i generation n
  | .space i generation n sample frame =>
      Sampled s i generation n ∧ n ≤ sample ∧
        TxAttempt.Complete s.samples ⟨i, sample, frame, 0⟩
  | .put i generation n sample frame space =>
      Sampled s i generation n ∧ n ≤ sample ∧
        TxAttempt.Complete s.samples ⟨i, sample, frame, 0⟩ ∧
        frame.length ≤ space ∧ space ≤ ringSpace s
  | .irqEnable i generation n | .update i generation n =>
      Sampled s i generation n ∧ Attempted s i n

structure TxInv (s : TxLink cfg) : Prop where
  sized : ∀ i, ∀ sample ∈ s.samples i, sample.length = (cfg.topics.get i).payloadSize
  primed : ∀ i, (s.slots i).primed = true →
    Sampled s i (s.slots i).lastGeneration (s.slots i).ordinal ∧ Attempted s i (s.slots i).ordinal
  unprimed : ∀ i, (s.slots i).primed = false → (s.slots i).lastGeneration = 0
  complete : ∀ a ∈ s.attempts, a.Complete s.samples
  stream : s.sent ++ s.ring = placedBytes s.attempts
  txFrames : s.stats.txFrames = UInt32.ofNat (s.attempts.countP TxAttempt.placed)
  txDropped : s.stats.txDropped = UInt32.ofNat (s.attempts.countP fun a => !a.placed)
  facts : TxPcFacts s

theorem txInit_inv : TxInv (txInit cfg) where
  sized := fun _ _ h => by cases h
  primed := fun _ h => by cases h
  unprimed := fun _ _ => rfl
  complete := fun _ h => by cases h
  stream := rfl
  txFrames := rfl
  txDropped := rfl
  facts := trivial

/-! ## Steps -/

theorem TxAttempt.Complete.mono {samples samples' : Fin cfg.topicCount → List (List UInt8)}
    {a : TxAttempt cfg.topicCount} (h : a.Complete samples)
    (hsamples : ∀ i, samples i <+: samples' i) : a.Complete samples' := by
  obtain ⟨hpos, payload, seq, hpayload, hframe⟩ := h
  obtain ⟨later, hlater⟩ := hsamples a.topic
  refine ⟨hpos, payload, seq, ?_, hframe⟩
  rw [← hlater, List.getElem?_append_left (List.getElem?_eq_some_iff.mp hpayload).1, hpayload]

theorem Sampled.mono {s t : TxLink cfg} {i : Fin cfg.topicCount} {generation : UInt32} {n : Nat}
    (h : Sampled s i generation n) (hsamples : s.samples i <+: t.samples i) :
    Sampled t i generation n :=
  ⟨h.1.trans hsamples.length_le, h.2⟩

theorem Attempted.append {s t : TxLink cfg} {i : Fin cfg.topicCount} {n : Nat}
    {more : List (TxAttempt cfg.topicCount)} (h : Attempted s i n)
    (hattempts : t.attempts = s.attempts ++ more) : Attempted t i n := by
  obtain ⟨a, ha, htopic, hn⟩ := h
  exact ⟨a, hattempts ▸ List.mem_append_left _ ha, htopic, hn⟩

theorem Attempted.last {t : TxLink cfg} {i : Fin cfg.topicCount} {n : Nat}
    {before : List (TxAttempt cfg.topicCount)} {a : TxAttempt cfg.topicCount}
    (hattempts : t.attempts = before ++ [a]) (htopic : a.topic = i) (hn : n ≤ a.ordinal) :
    Attempted t i n := by
  refine ⟨a, ?_, htopic, hn⟩
  rw [hattempts]
  exact List.mem_append_right _ (List.mem_singleton_self a)

theorem complete_concat {samples : Fin cfg.topicCount → List (List UInt8)}
    {attempts : List (TxAttempt cfg.topicCount)} {last : TxAttempt cfg.topicCount}
    (h : ∀ a ∈ attempts, a.Complete samples) (hlast : last.Complete samples) :
    ∀ a ∈ attempts ++ [last], a.Complete samples := by
  intro a ha
  rcases List.mem_append.mp ha with ha | ha
  · exact h a ha
  · rw [List.mem_singleton] at ha
    subst ha
    exact hlast

theorem publish_inv {s : TxLink cfg} (h : TxInv s) {i : Fin cfg.topicCount}
    {sample : List UInt8} (hsample : sample.length = (cfg.topics.get i).payloadSize) :
    TxInv { s with samples := Function.update s.samples i (s.samples i ++ [sample]) } := by
  have hgrow (j : Fin cfg.topicCount) :
      s.samples j <+: Function.update s.samples i (s.samples i ++ [sample]) j := by
    by_cases hj : j = i
    · subst hj
      rw [Function.update_self]
      exact List.prefix_append _ _
    · simp only [Function.update_of_ne hj, List.prefix_rfl]
  refine ⟨?_, ?_, h.unprimed, fun a ha => (h.complete a ha).mono hgrow, h.stream, h.txFrames,
    h.txDropped, ?_⟩
  · intro j p hp
    by_cases hj : j = i
    · subst hj
      simp only [Function.update_self, List.mem_append, List.mem_singleton] at hp
      rcases hp with hp | rfl
      · exact h.sized j p hp
      · exact hsample
    · simp only [Function.update_of_ne hj] at hp
      exact h.sized j p hp
  · intro j hj
    exact ⟨(h.primed j hj).1.mono (hgrow j), (h.primed j hj).2⟩
  · have hfacts := h.facts
    unfold TxPcFacts at hfacts ⊢
    cases hpc : s.pc with
    | idle => trivial
    | topic j => trivial
    | read j generation n =>
        simp only [hpc] at hfacts ⊢
        exact hfacts.mono (hgrow j)
    | space j generation n k frame =>
        simp only [hpc] at hfacts ⊢
        exact ⟨hfacts.1.mono (hgrow j), hfacts.2.1, hfacts.2.2.mono hgrow⟩
    | put j generation n k frame space =>
        simp only [hpc] at hfacts ⊢
        obtain ⟨hsampled, hle, hcomplete, hroom⟩ := hfacts
        exact ⟨hsampled.mono (hgrow j), hle, hcomplete.mono hgrow, hroom⟩
    | irqEnable j generation n =>
        simp only [hpc] at hfacts ⊢
        exact ⟨hfacts.1.mono (hgrow j), hfacts.2⟩
    | update j generation n =>
        simp only [hpc] at hfacts ⊢
        exact ⟨hfacts.1.mono (hgrow j), hfacts.2⟩

/-- The interrupt only moves bytes on, so the ring gains room. -/
theorem isr_inv {s t : TxLink cfg} (h : TxInv s) {claimed written : Nat}
    (hstep : txIsr s claimed written = some t) : TxInv t := by
  unfold txIsr at hstep
  split at hstep
  · cases hstep
    refine ⟨h.sized, h.primed, h.unprimed, h.complete, ?_, h.txFrames, h.txDropped, ?_⟩
    · rw [List.append_assoc, List.take_append_drop]
      exact h.stream
    · have hfacts := h.facts
      unfold TxPcFacts at hfacts ⊢
      cases hpc : s.pc with
      | idle => trivial
      | topic j => trivial
      | put j generation n k frame space =>
          simp only [hpc, ringSpace, List.length_drop] at hfacts ⊢
          obtain ⟨hsampled, hle, hcomplete, hfits, hroom⟩ := hfacts
          exact ⟨hsampled, hle, hcomplete, hfits, by omega⟩
      | _ =>
          simp only [hpc] at hfacts ⊢
          exact hfacts
  · cases hstep

/-- Reading the topic builds the whole frame of a sample no older than the
generation. -/
theorem txRead_inv {s t : TxLink cfg} (h : TxInv s) {sample : Nat} {stack : List UInt8}
    (hstep : txRead s sample stack = some t) : TxInv t := by
  unfold txRead at hstep
  split at hstep
  · rename_i i generation n hpc
    split at hstep
    · cases hstep
    · rename_i payload hpayload
      split at hstep
      · rename_i hread
        obtain ⟨hle, hpos, hstack⟩ := hread
        cases hstep
        refine ⟨h.sized, h.primed, h.unprimed, h.complete, h.stream, h.txFrames, h.txDropped, ?_⟩
        have hfacts := h.facts
        simp only [TxPcFacts, hpc] at hfacts
        refine ⟨hfacts, hle, hpos, payload, s.seq, hpayload, ?_⟩
        have hsize : payload.length ≤ cfg.maxPayload := by
          rw [h.sized i payload (List.mem_of_getElem? hpayload)]
          exact cfg.resolved _ (List.get_mem _ _)
        refine txFrame_eq_wire cfg.toSerialConfig
          (f := ⟨(cfg.topics.get i).id, s.seq, payload⟩) ?_
        rw [hstack]
        show headerSize + payload.length + trailerSize ≤ cfg.frameMax
        unfold SerialConfig.frameMax
        omega
      · cases hstep
  · cases hstep

theorem placedBytes_concat (attempts : List (TxAttempt cfg.topicCount))
    (a : TxAttempt cfg.topicCount) :
    placedBytes (attempts ++ [a]) = placedBytes attempts ++ if a.placed then a.frame else [] := by
  cases ha : a.placed <;> simp [placedBytes, ha]

/-- An attempt goes on record: its frame into the ring, or one more drop. -/
theorem TxInv.attempt {s t : TxLink cfg} (h : TxInv s) {a : TxAttempt cfg.topicCount}
    (hcomplete : a.Complete s.samples) (hsamples : t.samples = s.samples)
    (hslots : t.slots = s.slots) (hattempts : t.attempts = s.attempts ++ [a])
    (hstream : t.sent ++ t.ring = s.sent ++ s.ring ++ if a.placed then a.frame else [])
    (htxFrames : t.stats.txFrames = s.stats.txFrames + if a.placed then 1 else 0)
    (htxDropped : t.stats.txDropped = s.stats.txDropped + if a.placed then 0 else 1)
    (hfacts : TxPcFacts t) : TxInv t where
  sized := hsamples ▸ h.sized
  primed := by
    intro i hi
    rw [hslots] at hi ⊢
    obtain ⟨hsampled, hattempted⟩ := h.primed i hi
    exact ⟨hsampled.mono (hsamples ▸ List.prefix_rfl), hattempted.append hattempts⟩
  unprimed := hslots ▸ h.unprimed
  complete := by
    rw [hsamples, hattempts]
    exact complete_concat h.complete hcomplete
  stream := by rw [hstream, h.stream, hattempts, placedBytes_concat]
  txFrames := by
    rw [htxFrames, h.txFrames, hattempts]
    cases ha : a.placed <;> simp [ha, UInt32.ofNat_add]
  txDropped := by
    rw [htxDropped, h.txDropped, hattempts]
    cases ha : a.placed <;> simp [ha, UInt32.ofNat_add]
  facts := hfacts

/-- Between two calls nothing is held in locals. -/
theorem TxPcFacts.nextTopic {s : TxLink cfg} {i : Fin cfg.topicCount} (h : s.pc = nextTopic i) :
    TxPcFacts s := by
  unfold TxPcFacts
  rw [h, Rdd2.nextTopic]
  by_cases hi : i.val + 1 < cfg.topicCount
  · rw [dif_pos hi]
    trivial
  · rw [dif_neg hi]
    trivial

theorem txThread_inv {s t : TxLink cfg} (h : TxInv s) (hstep : txThread s = some t) :
    TxInv t := by
  have hfacts := h.facts
  cases txThread_cases hstep with
  | due hpc =>
      exact ⟨h.sized, h.primed, h.unprimed, h.complete, h.stream, h.txFrames, h.txDropped,
        Nat.le_refl _, rfl⟩
  | @notDue i hpc =>
      exact ⟨h.sized, h.primed, h.unprimed, h.complete, h.stream, h.txFrames, h.txDropped,
        TxPcFacts.nextTopic (i := i) rfl⟩
  | @full i generation n k frame hpc hfull =>
      simp only [TxPcFacts, hpc] at hfacts
      obtain ⟨hsampled, hle, hcomplete⟩ := hfacts
      have hdropped : (⟨i, k, frame, ringSpace s⟩ : TxAttempt cfg.topicCount).placed = false := by
        simpa [TxAttempt.placed] using hfull
      exact h.attempt (a := ⟨i, k, frame, ringSpace s⟩) hcomplete rfl rfl rfl
        (by simp [hdropped]) (by simp [hdropped]) (by simp [hdropped])
        ⟨hsampled, .last rfl rfl hle⟩
  | room hpc hroom =>
      simp only [TxPcFacts, hpc] at hfacts
      obtain ⟨hsampled, hle, hcomplete⟩ := hfacts
      exact ⟨h.sized, h.primed, h.unprimed, h.complete, h.stream, h.txFrames, h.txDropped,
        hsampled, hle, hcomplete, hroom, Nat.le_refl _⟩
  | @put i generation n k frame space hpc =>
      simp only [TxPcFacts, hpc] at hfacts
      obtain ⟨hsampled, hle, hcomplete, hfits, hroom⟩ := hfacts
      have hplaced : (⟨i, k, frame, space⟩ : TxAttempt cfg.topicCount).placed = true := by
        simpa [TxAttempt.placed] using hfits
      have hwhole : frame.take (ringSpace s) = frame := List.take_of_length_le (by omega)
      exact h.attempt (a := ⟨i, k, frame, space⟩) hcomplete rfl rfl rfl
        (by simp [hplaced, hwhole]) (by simp [hplaced]) (by simp [hplaced])
        ⟨hsampled, .last rfl rfl hle⟩
  | irqEnable hpc =>
      simp only [TxPcFacts, hpc] at hfacts
      exact ⟨h.sized, h.primed, h.unprimed, h.complete, h.stream, h.txFrames, h.txDropped, hfacts⟩
  | @update i generation n hpc =>
      simp only [TxPcFacts, hpc] at hfacts
      refine ⟨h.sized, ?_, ?_, h.complete, h.stream, h.txFrames, h.txDropped,
        TxPcFacts.nextTopic (i := i) rfl⟩
      · intro j hj
        by_cases hji : j = i
        · subst hji
          simp only [Function.update_self] at hj ⊢
          exact hfacts
        · simp only [Function.update_of_ne hji] at hj ⊢
          exact h.primed j hj
      · intro j hj
        by_cases hji : j = i
        · subst hji
          simp at hj
        · simp only [Function.update_of_ne hji] at hj ⊢
          exact h.unprimed j hj

theorem txStep_inv (s : TxLink cfg) (e : TxEvent cfg.topicCount) (t : TxLink cfg) (h : TxInv s)
    (hstep : txStep s e = some t) : TxInv t := by
  cases e with
  | publish i sample =>
      simp only [txStep] at hstep
      split at hstep
      · cases hstep
        exact publish_inv h ‹_›
      · cases hstep
  | isr claimed written => exact isr_inv h hstep
  | poll nowMs =>
      simp only [txStep] at hstep
      split at hstep
      · cases hstep
        exact ⟨h.sized, h.primed, h.unprimed, h.complete, h.stream, h.txFrames, h.txDropped,
          trivial⟩
      · cases hstep
  | read sample stack => exact txRead_inv h hstep
  | readFails =>
      simp only [txStep] at hstep
      split at hstep
      · cases hstep
        exact ⟨h.sized, h.primed, h.unprimed, h.complete, h.stream, h.txFrames, h.txDropped,
          TxPcFacts.nextTopic rfl⟩
      · cases hstep
  | thread => exact txThread_inv h hstep

theorem txRun_inv {events : List (TxEvent cfg.topicCount)} {s : TxLink cfg}
    (hrun : Guarded.run txStep (txInit cfg) events = some s) : TxInv s :=
  Guarded.run_inv txStep txStep_inv txInit_inv hrun

/-! ## A due topic is attempted -/

/-- A call of `tx_topic_if_due` that will build a frame with sample `n` of
the topic or a later one. -/
def InFlight (s : TxLink cfg) (i : Fin cfg.topicCount) (n : Nat) : Prop :=
  match s.pc with
  | .read j _ m => j = i ∧ n ≤ m
  | .space j _ _ k _ | .put j _ _ k _ _ => j = i ∧ n ≤ k
  | _ => False

/-- Unless the read fails, the call in flight ends in an attempt. -/
theorem inFlight_step {i : Fin cfg.topicCount} {n : Nat} (s : TxLink cfg)
    (e : TxEvent cfg.topicCount) (t : TxLink cfg) (he : e ≠ .readFails)
    (h : InFlight s i n ∨ Attempted s i n) (hstep : txStep s e = some t) :
    InFlight t i n ∨ Attempted t i n := by
  cases e with
  | publish j sample =>
      simp only [txStep] at hstep
      split at hstep
      · cases hstep
        exact h
      · cases hstep
  | isr claimed written =>
      simp only [txStep, txIsr] at hstep
      split at hstep
      · cases hstep
        exact h
      · cases hstep
  | poll nowMs =>
      simp only [txStep] at hstep
      split at hstep
      · rename_i hidle
        cases hstep
        exact Or.inr (h.resolve_left (by simp [InFlight, hidle.1]))
      · cases hstep
  | read sample stack =>
      simp only [txStep, txRead] at hstep
      split at hstep
      · rename_i j generation m hpc
        split at hstep
        · cases hstep
        · split at hstep
          · rename_i hread
            cases hstep
            rcases h with h | h
            · simp only [InFlight, hpc] at h
              exact Or.inl ⟨h.1, h.2.trans hread.1⟩
            · exact Or.inr h
          · cases hstep
      · cases hstep
  | readFails => exact absurd rfl he
  | thread =>
      cases txThread_cases hstep with
      | due hpc | notDue hpc | irqEnable hpc | update hpc =>
          exact Or.inr (h.resolve_left (by simp [InFlight, hpc]))
      | full hpc | put hpc =>
          simp only [InFlight, hpc] at h
          rcases h with h | h
          · exact Or.inr (.last rfl h.1 h.2)
          · exact Or.inr (h.append rfl)
      | room hpc =>
          simp only [InFlight, hpc] at h
          exact h

theorem InFlight.call? {s : TxLink cfg} {i : Fin cfg.topicCount} {n : Nat}
    (h : InFlight s i n) : s.pc.call? = some i := by
  unfold InFlight at h
  split at h
  · rename_i hpc
    rw [hpc, TxPc.call?, h.1]
  · rename_i hpc
    rw [hpc, TxPc.call?, h.1]
  · rename_i hpc
    rw [hpc, TxPc.call?, h.1]
  · exact absurd h id

/-- `tx_topic_if_due` is about to look at a telemetered topic that has been
published, outside its minimum interval; and if the generation is the one
recorded, it is so because nothing was published since. -/
structure TxLook (s : TxLink cfg) (i : Fin cfg.topicCount) : Prop where
  pc : s.pc = .topic i
  tx : (cfg.topics.get i).tx = true
  published : topicGeneration s i ≠ 0
  recorded : topicGeneration s i = (s.slots i).lastGeneration →
    (s.slots i).ordinal = (s.samples i).length
  due : (s.slots i).primed = true → cfg.txMinIntervalMs ≤ s.nowMs - (s.slots i).lastSentMs

/-- After the look the newest sample is in flight, if it was not attempted
before. -/
theorem TxLook.thread {s t : TxLink cfg} {i : Fin cfg.topicCount} (hinv : TxInv s)
    (h : TxLook s i) (hstep : txStep s .thread = some t) :
    InFlight t i (s.samples i).length ∨ Attempted t i (s.samples i).length := by
  cases txThread_cases hstep with
  | due hpc =>
      obtain rfl := TxPc.topic.inj (h.pc.symm.trans hpc)
      exact Or.inl ⟨rfl, Nat.le_refl _⟩
  | notDue hpc hnot =>
      obtain rfl := TxPc.topic.inj (h.pc.symm.trans hpc)
      rw [h.tx, Bool.true_and] at hnot
      -- not due, so the recorded generation is the topic's
      have hsame : topicGeneration s i = (s.slots i).lastGeneration := by
        by_contra hne
        refine (Bool.eq_false_iff.mp hnot) ?_
        have hlate := h.due
        simp only [txDue, Bool.and_eq_true, Bool.not_eq_true', Bool.or_eq_false_iff,
          Bool.and_eq_false_iff, beq_eq_false_iff_ne, decide_eq_false_iff_not]
        refine ⟨⟨h.published, hne⟩, ?_⟩
        cases hprimed : (s.slots i).primed with
        | false => exact Or.inl rfl
        | true => exact Or.inr (Int.not_lt.mpr (hlate hprimed))
      have hprimed : (s.slots i).primed = true := by
        by_contra hunprimed
        rw [Bool.not_eq_true] at hunprimed
        exact h.published (hsame.trans (hinv.unprimed i hunprimed))
      rw [← h.recorded hsame]
      exact Or.inr (hinv.primed i hprimed).2
  | full hpc | room hpc | put hpc | irqEnable hpc | update hpc => cases h.pc.symm.trans hpc

/-! ## The account -/

structure TxAccounted (s : TxLink cfg) : Prop where
  /-- A recorded generation stands for a frame with its sample or a later
  one. -/
  primed : ∀ i, (s.slots i).primed = true →
    Sampled s i (s.slots i).lastGeneration (s.slots i).ordinal ∧ Attempted s i (s.slots i).ordinal
  /-- Frames are whole. -/
  complete : ∀ a ∈ s.attempts, a.Complete s.samples
  /-- The frames that found room are in the byte stream, all of them and in
  order. -/
  placed : s.sent ++ s.ring = placedBytes s.attempts
  /-- The others are counted. -/
  dropped : s.stats.txDropped = UInt32.ofNat (s.attempts.countP fun a => !a.placed)
  /-- Once the sender looks outside the minimum interval, the newest sample
  or a later one has its frame when the call is over. -/
  looked : ∀ i later t, TxLook s i → (∀ e ∈ later, e ≠ .readFails) →
    Guarded.run txStep s (.thread :: later) = some t → t.pc.call? ≠ some i →
    Attempted t i (s.samples i).length

/-- In every run of the sender, among publications and interrupts in any
order, every sample is accounted for. -/
theorem sample_placed_or_dropped (events : List (TxEvent cfg.topicCount)) (s : TxLink cfg)
    (hrun : Guarded.run txStep (txInit cfg) events = some s) : TxAccounted s := by
  have hinv := txRun_inv hrun
  refine ⟨hinv.primed, hinv.complete, hinv.stream, hinv.txDropped, ?_⟩
  intro i later t hlook hreads hlater hcall
  obtain ⟨m, hstep, hrest⟩ := (Guarded.run_cons txStep).mp hlater
  have hflight := Guarded.run_keeps txStep
    (P := fun s' => InFlight s' i (s.samples i).length ∨ Attempted s' i (s.samples i).length)
    (fun s e t he hs => inFlight_step s e t he hs) (hlook.thread hinv hstep) hreads hrest
  exact hflight.resolve_left fun h => hcall h.call?

/-! ## Runs -/

/-- The topics of the mocap build behind the smallest ring the build
allows. -/
def TxConfig.smallRing : TxConfig where
  toSerialConfig := .mocap
  txRingSize := 64
  txMinIntervalMs := 200
  resolved := by decide

def healthTopic : Fin TxConfig.smallRing.topicCount := ⟨0, by decide⟩

/-- `VehicleHealth`, published and polled: looked at, read, found to fit,
put, the interrupt enabled, the slot updated; then the other topics are
looked at. -/
def healthSent : List (TxEvent TxConfig.smallRing.topicCount) :=
  [.publish healthTopic (List.replicate 48 1), .poll 0, .thread, .read 1 (List.replicate 138 0)] ++
    List.replicate 9 .thread

/-- Published once more while the ring is still full, polled, and dropped. -/
def healthDropped : List (TxEvent TxConfig.smallRing.topicCount) :=
  [.publish healthTopic (List.replicate 48 2), .poll 200, .thread,
    .read 2 (List.replicate 138 0)] ++ List.replicate 7 .thread

/-- The ring drains, and the topics are polled after the interval. -/
def healthPolled : List (TxEvent TxConfig.smallRing.topicCount) :=
  [.isr 32 32, .isr 26 26, .poll 1000] ++ List.replicate 6 .thread

theorem sample_placed_or_dropped_health :
    ∃ s, Guarded.run txStep (txInit .smallRing) (healthSent ++ healthDropped) = some s ∧
      TxAccounted s := by
  have hruns : (Guarded.run txStep (txInit .smallRing) (healthSent ++ healthDropped)).isSome := by
    decide +kernel
  obtain ⟨s, hs⟩ := Option.isSome_iff_exists.mp hruns
  exact ⟨s, hs, sample_placed_or_dropped _ s hs⟩

/-- A frame with sample `n` of the topic or a later one went into the ring. -/
def Placed (s : TxLink cfg) (i : Fin cfg.topicCount) (n : Nat) : Prop :=
  ∃ a ∈ s.attempts, a.placed = true ∧ a.topic = i ∧ n ≤ a.ordinal

instance (s : TxLink cfg) (i : Fin cfg.topicCount) (n : Nat) : Decidable (Placed s i n) :=
  inferInstanceAs (Decidable (∃ a ∈ s.attempts, _))

theorem run_publishes (s : TxLink cfg) {i : Fin cfg.topicCount} (sample : List UInt8)
    (hsample : sample.length = (cfg.topics.get i).payloadSize) (k : Nat) :
    Guarded.run txStep s (List.replicate k (.publish i sample)) =
      some { s with
        samples := Function.update s.samples i (s.samples i ++ List.replicate k sample) } := by
  induction k generalizing s with
  | zero => simp [Function.update_eq_self]
  | succ k ih =>
      rw [List.replicate_succ, Guarded.run, txStep, if_pos hsample, Option.bind_some, ih]
      simp [List.replicate_succ]

/-- A topic whose generation reads 0 is passed over. -/
theorem txThread_unpublished {s : TxLink cfg} {i : Fin cfg.topicCount} (hpc : s.pc = .topic i)
    (hgeneration : topicGeneration s i = 0) :
    txStep s .thread = some { s with pc := nextTopic i } := by
  simp [txStep, txThread, hpc, txDue, hgeneration]

/-- A topic that has been published a multiple of 2 ^ 32 times looks as if
it never was. -/
theorem wrapped_topic_unsent {k : Nat} (hk : UInt32.ofNat k = 0) :
    ∃ s, Guarded.run txStep (txInit .smallRing)
        (List.replicate k (.publish healthTopic (List.replicate 48 1)) ++ [.poll 0, .thread]) =
        some s ∧
      s.pc = nextTopic healthTopic ∧ (s.samples healthTopic).length = k ∧
      ¬ Attempted s healthTopic 1 := by
  have hpublished :=
    run_publishes (txInit .smallRing) (i := healthTopic) (List.replicate 48 1) rfl k
  generalize hm : ({ txInit .smallRing with samples := _ } : TxLink .smallRing) = m at hpublished
  have hlength : (m.samples healthTopic).length = k := by
    rw [← hm]
    simp [txInit]
  have hgeneration : topicGeneration { m with pc := .topic healthTopic } healthTopic = 0 :=
    (congrArg UInt32.ofNat hlength).trans hk
  refine ⟨{ m with pc := nextTopic healthTopic }, ?_, rfl, hlength, ?_⟩
  · rw [Guarded.run_append, hpublished, Option.bind_some, Guarded.run_cons]
    refine ⟨{ m with pc := .topic healthTopic }, by rw [← hm]; rfl, ?_⟩
    rw [Guarded.run_cons]
    exact ⟨_, txThread_unpublished rfl hgeneration, rfl⟩
  · rintro ⟨a, ha, -⟩
    rw [← hm] at ha
    cases ha

/-- A frame the ring has no room for leaves the ground without the sample
its slot records, and polling after the interval does not make up for it.
Nor is the last of 2 ^ 32 samples sent, whose generation is 0. -/
theorem dropped_sample_forgotten :
    (∃ s, Guarded.run txStep (txInit .smallRing) (healthSent ++ healthDropped ++ healthPolled) =
        some s ∧
      s.pc = .idle ∧ s.ring = [] ∧ (s.slots healthTopic).primed = true ∧
      TxConfig.smallRing.txMinIntervalMs ≤ s.nowMs - (s.slots healthTopic).lastSentMs ∧
      (s.slots healthTopic).lastGeneration = 2 ∧ (s.samples healthTopic).length = 2 ∧
      ¬ Placed s healthTopic 2) ∧
    ∃ events s, Guarded.run txStep (txInit .smallRing) (events ++ [.poll 0, .thread]) = some s ∧
      s.pc = nextTopic healthTopic ∧ (s.samples healthTopic).length = 2 ^ 32 ∧
      ¬ Attempted s healthTopic 1 :=
  ⟨Guarded.run_any txStep (by decide +kernel), _, wrapped_topic_unsent rfl⟩

end Rdd2
