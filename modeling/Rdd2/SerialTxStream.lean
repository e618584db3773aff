import Rdd2.SerialTxAccount

/-!
# The outbound byte stream

What the UART took and what the ring still holds is a row of whole frames,
whatever the interrupt claims and writes. Frames are numbered when they are
built, so the invariant is about the row of all frames built so far: those
that were put or dropped, and the one `tx_topic_if_due` has in hand. Only
`zros_topic_read` makes that row longer, and it takes a sequence number for
it.
-/

namespace Rdd2

variable {cfg : TxConfig}

/-- The frame that `tx_topic_if_due` has built and neither put nor dropped,
with its topic. -/
def TxPc.frame? {n : Nat} : TxPc n → Option (Fin n × List UInt8)
  | .space i _ _ _ frame | .put i _ _ _ frame _ => some (i, frame)
  | .idle | .topic _ | .read _ _ _ | .irqEnable _ _ _ | .update _ _ _ => none

/-- Whether a call is between its `ring_buf_put` and `uart_irq_tx_enable`. -/
def TxPc.enabling {n : Nat} : TxPc n → Bool
  | .irqEnable _ _ _ => true
  | .idle | .topic _ | .read _ _ _ | .space _ _ _ _ _ | .put _ _ _ _ _ _ | .update _ _ _ => false

def framesBuilt (s : TxLink cfg) : List (Fin cfg.topicCount × List UInt8) :=
  s.attempts.map (fun a => (a.topic, a.frame)) ++ s.pc.frame?.toList

def Numbered (seq : UInt8) (built : Fin cfg.topicCount × List UInt8) : Prop :=
  ∃ payload : List UInt8, payload.length = (cfg.topics.get built.1).payloadSize ∧
    built.2 = Frame.wire ⟨(cfg.topics.get built.1).id, seq, payload⟩ 0

/-! ## Sequence numbers -/

/-- `g_tx_seq` counts the frames built, and each carries its place. -/
structure TxNumbering (s : TxLink cfg) : Prop where
  counter : s.seq = UInt8.ofNat (framesBuilt s).length
  numbered : ∀ k built, (framesBuilt s)[k]? = some built → Numbered (UInt8.ofNat k) built

/-- A step that builds no frame. -/
theorem TxNumbering.keep {s t : TxLink cfg} (h : TxNumbering s)
    (hbuilt : framesBuilt t = framesBuilt s) (hseq : t.seq = s.seq) : TxNumbering t where
  counter := by rw [hseq, hbuilt, h.counter]
  numbered := by
    rw [hbuilt]
    exact h.numbered

/-- A step that builds one. -/
theorem TxNumbering.concat {s t : TxLink cfg} (h : TxNumbering s)
    {built : Fin cfg.topicCount × List UInt8} (hbuilt : framesBuilt t = framesBuilt s ++ [built])
    (hseq : t.seq = s.seq + 1) (hnumbered : Numbered s.seq built) : TxNumbering t where
  counter := by
    rw [hseq, hbuilt, h.counter, List.length_append, List.length_singleton, UInt8.ofNat_add]
    rfl
  numbered := by
    rw [hbuilt]
    refine Guarded.history_concat (Q := fun k built => Numbered (UInt8.ofNat k) built)
      h.numbered ?_
    rw [← h.counter]
    exact hnumbered

theorem nextTopic_frame? (i : Fin cfg.topicCount) : (nextTopic i).frame? = none := by
  unfold nextTopic
  split <;> rfl

theorem framesBuilt_congr {s t : TxLink cfg} (hattempts : t.attempts = s.attempts)
    (hframe : t.pc.frame? = s.pc.frame?) : framesBuilt t = framesBuilt s := by
  rw [framesBuilt, framesBuilt, hattempts, hframe]

theorem txThread_built {s t : TxLink cfg} (hstep : txThread s = some t) :
    framesBuilt t = framesBuilt s ∧ t.seq = s.seq := by
  cases txThread_cases hstep with
  | due hpc | room hpc | irqEnable hpc => exact ⟨framesBuilt_congr rfl (by rw [hpc]; rfl), rfl⟩
  | notDue hpc | update hpc =>
      exact ⟨framesBuilt_congr rfl (by rw [hpc]; exact nextTopic_frame? _), rfl⟩
  | full hpc | put hpc =>
      -- the frame in hand goes on record
      exact ⟨by simp [framesBuilt, hpc, TxPc.frame?], rfl⟩

/-- The frame is laid out whole, under the sequence number it consumes. -/
theorem txRead_built {s t : TxLink cfg} (hinv : TxInv s) {sample : Nat} {stack : List UInt8}
    (hstep : txRead s sample stack = some t) :
    ∃ built, framesBuilt t = framesBuilt s ++ [built] ∧ t.seq = s.seq + 1 ∧
      Numbered s.seq built := by
  unfold txRead at hstep
  split at hstep
  · rename_i i generation n hpc
    split at hstep
    · cases hstep
    · rename_i payload hpayload
      split at hstep
      · rename_i hread
        obtain ⟨-, -, hstack⟩ := hread
        cases hstep
        have hsize := hinv.sized i payload (List.mem_of_getElem? hpayload)
        have hfits : payload.length ≤ cfg.maxPayload := by
          rw [hsize]
          exact cfg.resolved _ (List.get_mem _ _)
        refine ⟨(i, txFrame cfg.toSerialConfig stack (cfg.topics.get i).id s.seq payload),
          by simp [framesBuilt, hpc, TxPc.frame?], rfl, payload, hsize, ?_⟩
        refine txFrame_eq_wire cfg.toSerialConfig
          (f := ⟨(cfg.topics.get i).id, s.seq, payload⟩) ?_
        show headerSize + payload.length + trailerSize ≤ stack.length
        rw [hstack]
        unfold SerialConfig.frameMax
        omega
      · cases hstep
  · cases hstep

theorem txStep_numbering {s t : TxLink cfg} {e : TxEvent cfg.topicCount} (hinv : TxInv s)
    (h : TxNumbering s) (hstep : txStep s e = some t) : TxNumbering t := by
  cases e with
  | publish i sample =>
      simp only [txStep] at hstep
      split at hstep
      · cases hstep
        exact h.keep rfl rfl
      · cases hstep
  | isr claimed written =>
      simp only [txStep, txIsr] at hstep
      split at hstep
      · cases hstep
        exact h.keep rfl rfl
      · cases hstep
  | poll nowMs =>
      simp only [txStep] at hstep
      split at hstep
      · rename_i hidle
        cases hstep
        exact h.keep (framesBuilt_congr rfl (by rw [hidle.1]; rfl)) rfl
      · cases hstep
  | read sample stack =>
      obtain ⟨built, hbuilt, hseq, hnumbered⟩ := txRead_built hinv hstep
      exact h.concat hbuilt hseq hnumbered
  | readFails =>
      simp only [txStep] at hstep
      split at hstep
      · rename_i hpc
        cases hstep
        exact h.keep (framesBuilt_congr rfl (by rw [hpc]; exact nextTopic_frame? _)) rfl
      · cases hstep
  | thread =>
      obtain ⟨hbuilt, hseq⟩ := txThread_built hstep
      exact h.keep hbuilt hseq

/-! ## The interrupt -/

/-- Bytes in the ring are never stranded behind a disabled interrupt. -/
def TxIrq (s : TxLink cfg) : Prop := s.ring ≠ [] → s.pc.enabling = false → s.irqEnabled = true

theorem TxIrq.keep {s t : TxLink cfg} (h : TxIrq s) (hring : t.ring = s.ring)
    (hirq : t.irqEnabled = s.irqEnabled) (hpc : s.pc.enabling = false) : TxIrq t := by
  intro hne _
  rw [hirq]
  exact h (hring ▸ hne) hpc

theorem txThread_irq {s t : TxLink cfg} (h : TxIrq s) (hstep : txThread s = some t) :
    TxIrq t := by
  cases txThread_cases hstep with
  | due hpc | notDue hpc | full hpc | room hpc | update hpc =>
      exact h.keep rfl rfl (by rw [hpc]; rfl)
  | put hpc =>
      intro _ henabling
      cases henabling
  | irqEnable hpc =>
      intro _ _
      rfl

theorem txStep_irq (s : TxLink cfg) (e : TxEvent cfg.topicCount) (t : TxLink cfg) (h : TxIrq s)
    (hstep : txStep s e = some t) : TxIrq t := by
  cases e with
  | publish i sample =>
      simp only [txStep] at hstep
      split at hstep
      · cases hstep
        exact h
      · cases hstep
  | isr claimed written =>
      simp only [txStep, txIsr] at hstep
      split at hstep
      · rename_i hclaim
        cases hstep
        intro hne henabling
        have hring : s.ring ≠ [] := by
          intro hnil
          exact hne (by simp [hnil])
        -- the interrupt turns itself off only on an empty ring
        have hclaimed : claimed ≠ 0 := fun hzero => hring (hclaim.2.2.1.mp hzero)
        rw [if_neg hclaimed]
        exact h hring henabling
      · cases hstep
  | poll nowMs =>
      simp only [txStep] at hstep
      split at hstep
      · rename_i hidle
        cases hstep
        exact h.keep rfl rfl (by rw [hidle.1]; rfl)
      · cases hstep
  | read sample stack =>
      simp only [txStep, txRead] at hstep
      split at hstep
      · rename_i hpc
        split at hstep
        · cases hstep
        · split at hstep
          · cases hstep
            exact h.keep rfl rfl (by rw [hpc]; rfl)
          · cases hstep
      · cases hstep
  | readFails =>
      simp only [txStep] at hstep
      split at hstep
      · rename_i hpc
        cases hstep
        exact h.keep rfl rfl (by rw [hpc]; rfl)
      · cases hstep
  | thread => exact txThread_irq h hstep

/-! ## The stream -/

/-- What can be said of the byte stream in any reachable state. -/
structure TxStream (s : TxLink cfg) : Prop where
  /-- The bytes taken and the bytes waiting are the frames put. -/
  stream : s.sent ++ s.ring = placedBytes s.attempts
  /-- There are `tx_frames` of these; the others were dropped. -/
  counted : s.stats.txFrames = UInt32.ofNat (s.attempts.countP TxAttempt.placed) ∧
    s.stats.txDropped = UInt32.ofNat (s.attempts.countP fun a => !a.placed)
  /-- Put or dropped, the `k`th frame is whole and carries `k`. -/
  numbered : ∀ k a, s.attempts[k]? = some a → Numbered (UInt8.ofNat k) (a.topic, a.frame)
  /-- The counter is at the next number, or one on with a frame in hand. -/
  counter : s.seq = UInt8.ofNat (s.attempts.length + s.pc.frame?.toList.length)
  irq : s.ring ≠ [] → s.pc.enabling = false → s.irqEnabled = true

/-- In every run of the sender, whatever the interrupt claims and writes,
the byte stream is made of whole numbered frames and keeps moving. -/
theorem stream_of_whole_frames (events : List (TxEvent cfg.topicCount)) (s : TxLink cfg)
    (hrun : Guarded.run txStep (txInit cfg) events = some s) : TxStream s := by
  have hinv := txRun_inv hrun
  have hnumbering : TxInv s ∧ TxNumbering s := by
    refine Guarded.run_inv txStep (P := fun s => TxInv s ∧ TxNumbering s) ?_ ?_ hrun
    · rintro s e t ⟨h, hnumbering⟩ hstep
      exact ⟨txStep_inv s e t h hstep, txStep_numbering h hnumbering hstep⟩
    · refine ⟨txInit_inv, rfl, ?_⟩
      intro k built hbuilt
      cases hbuilt
  have hirq : TxIrq s := Guarded.run_inv txStep txStep_irq (fun hne => absurd rfl hne) hrun
  refine ⟨hinv.stream, ⟨hinv.txFrames, hinv.txDropped⟩, ?_, ?_, hirq⟩
  · intro k a ha
    refine hnumbering.2.numbered k _ ?_
    have hk : k < (s.attempts.map fun a => (a.topic, a.frame)).length := by
      rw [List.length_map]
      exact (List.getElem?_eq_some_iff.mp ha).1
    rw [framesBuilt, List.getElem?_append_left hk, List.getElem?_map, ha]
    rfl
  · rw [hnumbering.2.counter, framesBuilt, List.length_append, List.length_map]

theorem stream_of_whole_frames_health :
    ∃ s, Guarded.run txStep (txInit .smallRing) (healthSent ++ healthDropped) = some s ∧
      TxStream s := by
  have hruns : (Guarded.run txStep (txInit .smallRing) (healthSent ++ healthDropped)).isSome := by
    decide +kernel
  obtain ⟨s, hs⟩ := Option.isSome_iff_exists.mp hruns
  exact ⟨s, hs, stream_of_whole_frames _ s hs⟩

end Rdd2
