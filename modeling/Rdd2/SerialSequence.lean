import Rdd2.SerialRxRefine
import Rdd2.Succession

/-!
# The sequence numbers of received frames

`rx_track_sequence` over whole streams. The sender stamps one wrapping counter
across all topics, so a frame that does not carry the next number has others
missing in front of it: `rx_seq_gaps` counts these places, in whatever company of
noise and rejected candidates the frames come (`rxFeed_sequence`).
-/

namespace Rdd2

open Succession

/-- `seq` is the number after `last`, as `rx_track_sequence` has it. -/
abbrev NextSeq (last seq : UInt8) : Prop := seq = last + 1

/-- What `rx_track_sequence` remembers of the frames delivered so far. -/
structure SeqState (l : RxLink) : Prop where
  rxSeqGaps_eq : l.stats.rxSeqGaps = UInt32.ofNat (breaks NextSeq (l.log.delivered.map Frame.seq))
  haveLast_iff : l.haveLast = true ↔ l.log.delivered ≠ []
  lastSeq_eq : ∀ frames f, l.log.delivered = frames ++ [f] → l.lastSeq = f.seq

theorem SeqState.congr {l l' : RxLink} (h : SeqState l)
    (hgaps : l'.stats.rxSeqGaps = l.stats.rxSeqGaps) (hhave : l'.haveLast = l.haveLast)
    (hlast : l'.lastSeq = l.lastSeq) (hlog : l'.log.delivered = l.log.delivered) : SeqState l' where
  rxSeqGaps_eq := by rw [hgaps, h.rxSeqGaps_eq, hlog]
  haveLast_iff := by rw [hhave, h.haveLast_iff, hlog]
  lastSeq_eq := fun frames f hf => by
    rw [hlog] at hf
    rw [hlast, h.lastSeq_eq frames f hf]

/-- A frame is put on record and its number is looked at. -/
theorem SeqState.track {l : RxLink} (h : SeqState l) (f : Frame) :
    SeqState (rxTrackSequence f.seq { l with log.delivered := l.log.delivered ++ [f] }) := by
  have hdelivered : (rxTrackSequence f.seq
      { l with log.delivered := l.log.delivered ++ [f] }).log.delivered
        = l.log.delivered ++ [f] := by
    rw [rxTrackSequence_log]
  have hlast : (rxTrackSequence f.seq
      { l with log.delivered := l.log.delivered ++ [f] }).lastSeq = f.seq := by
    rw [rxTrackSequence]
  have hhave : (rxTrackSequence f.seq
      { l with log.delivered := l.log.delivered ++ [f] }).haveLast = true := by
    rw [rxTrackSequence]
  refine ⟨?_, ?_, ?_⟩
  · rw [hdelivered, List.map_append, List.map_singleton]
    rcases List.eq_nil_or_concat l.log.delivered with hnil | ⟨frames, last, hcons⟩
    · have hfirst : l.haveLast = false := by
        rw [← Bool.not_eq_true, h.haveLast_iff, hnil]
        simp
      have hzero := h.rxSeqGaps_eq
      rw [hnil] at hzero
      rw [hnil, rxTrackSequence]
      simpa [hfirst] using hzero
    · have hfirst : l.haveLast = true := h.haveLast_iff.mpr (by rw [hcons]; simp)
      have hlastSeq := h.lastSeq_eq frames last (by rw [hcons, List.concat_eq_append])
      have hgaps := h.rxSeqGaps_eq
      rw [hcons, List.concat_eq_append, List.map_append, List.map_singleton] at hgaps ⊢
      rw [breaks_concat, UInt32.ofNat_add, ← hgaps, rxTrackSequence]
      by_cases hnext : f.seq = last.seq + 1 <;> simp [hfirst, hlastSeq, hnext, NextSeq]
  · rw [hhave, hdelivered]
    simp
  · intro frames g hg
    rw [hdelivered] at hg
    have hfg : f = g := List.singleton_inj.mp (List.append_inj' hg rfl).2
    rw [hlast, hfg]

theorem SeqState.deliver {l : RxLink} (h : SeqState l) (cfg : SerialConfig) (p : RxParser) :
    SeqState (rxDeliver cfg p l) := by
  simp only [rxDeliver]
  (repeat' split) <;> exact h.congr rfl rfl rfl rfl

/-! ## Whole streams -/

theorem rxByteWith_sequence (cfg : SerialConfig) {replay : Rx → List UInt8 → Rx}
    (h : ∀ s bytes, SeqState s.link → SeqState (replay s bytes).link) {s : Rx} (hs : SeqState s.link)
    (byte : UInt8) : SeqState (rxByteWith cfg replay s byte).link := by
  simp only [rxByteWith]
  split <;> (repeat' split)
  all_goals first
    | exact hs
    | exact h _ _ (hs.congr rfl rfl rfl rfl)
    | exact (hs.track _).deliver cfg _

theorem foldl_sequence {rxByte : Rx → UInt8 → Rx}
    (h : ∀ s byte, SeqState s.link → SeqState (rxByte s byte).link) (bytes : List UInt8) {s : Rx}
    (hs : SeqState s.link) : SeqState (bytes.foldl rxByte s).link := by
  induction bytes generalizing s with
  | nil => exact hs
  | cons b bytes ih => exact ih (h s b hs)

theorem rxReplayWith_sequence {rxByte : Rx → UInt8 → Rx}
    (h : ∀ s byte, SeqState s.link → SeqState (rxByte s byte).link) (s : Rx) (bytes : List UInt8)
    (hs : SeqState s.link) : SeqState (rxReplayWith rxByte s bytes).link := by
  simp only [rxReplayWith]
  split
  · exact hs.congr rfl rfl rfl rfl
  · exact foldl_sequence h bytes hs

/-- Whatever the line carries, the counter is that of the delivered frames. -/
theorem rxFeed_sequence (cfg : SerialConfig) {s : Rx} (hs : SeqState s.link) (bytes : List UInt8) :
    SeqState (rxFeed cfg s bytes).link := by
  refine foldl_sequence (fun s byte hs => rxByteWith_sequence cfg ?_ hs byte) bytes hs
  refine rxReplayWith_sequence fun s byte hs => rxByteWith_sequence cfg ?_ hs byte
  exact rxReplayWith_sequence fun s _ hs => hs

theorem rxInit_sequence (cfg : SerialConfig) : SeqState (rxInit cfg).link where
  rxSeqGaps_eq := rfl
  haveLast_iff := by simp [rxInit]
  lastSeq_eq := fun frames f h => by simp [rxInit] at h

end Rdd2
