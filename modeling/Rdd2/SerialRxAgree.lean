import Rdd2.RescanAgree
import Rdd2.SerialDecoder
import Rdd2.SerialRxRefine

/-!
# The receiver against the reference decoder

Both ends report what the leftmost scan of the stream reports: the decoder
always, the firmware as long as its one level of rescanning drops nothing
that matters (`rx_agrees`). In particular the two agree after every byte of
a stream on which no candidate is rejected during a replay
(`rx_refines_decoder`) - up to the width of `rx_crc_errors`, which wraps
where the decoder's counter does not (`rxCrcErrors_wraps`).
-/

namespace Rdd2

open Rescan

theorem rx_agrees (cfg : SerialConfig) {stream : List UInt8}
    (h : RunSafe (liveStep (recogniser cfg.maxPayload)) (LiveSafe (recogniser cfg.maxPayload)) []
      stream []) :
    let link := (rxFeed cfg (rxInit cfg) stream).link
    let found := scan (recogniser cfg.maxPayload) stream
    link.log.delivered = found.frames ∧
      link.stats.rxCrcErrors = UInt32.ofNat (found.faults.count .badCrc) := by
  have hlink := (rxFeed_rxInit cfg stream).link
  have hagrees := liveRun_agrees h
  refine ⟨hlink.delivered_eq.trans ?_, hlink.rxCrcErrors_eq.trans ?_⟩
  · rw [hagrees.frames_eq]
    rfl
  · rw [hagrees.faults_eq]
    exact UInt32.zero_add _

theorem feedAll_new (M : Nat) (chunks : List (List UInt8)) :
    let fed := (FrameDecoder.new M).feedAll chunks
    let found := scan (recogniser M) chunks.flatten
    fed.1 = found.frames ∧ fed.2.crcErrors = found.faults.count .badCrc := by
  have hfed := feedAll_spec (FrameDecoder.new M) (new_buf_scan M) chunks
  exact ⟨hfed.frames_eq, hfed.crcErrors_eq.trans (Nat.zero_add _)⟩

theorem dropped_append (cfg : SerialConfig) (u v : List UInt8)
    (h : (rxFeed cfg (rxInit cfg) (u ++ v)).link.log.dropped = []) :
    (run (liveStep (recogniser cfg.maxPayload)) [] u).dropped = [] := by
  rw [(rxFeed_rxInit cfg (u ++ v)).link.dropped_eq, run_append] at h
  exact (List.append_eq_nil_iff.mp (List.append_eq_nil_iff.mp h).2).1

/-- On a stream with no rejection during a replay the two receivers agree
after every byte, and their counters of checksum errors agree up to the
32 bits of the firmware's. -/
theorem rx_refines_decoder (cfg : SerialConfig) (stream : List UInt8)
    (hnested : (rxFeed cfg (rxInit cfg) stream).link.log.dropped = []) (n : Nat)
    (chunks : List (List UInt8)) (hchunks : chunks.flatten = stream.take n) :
    let link := (rxFeed cfg (rxInit cfg) (stream.take n)).link
    let fed := (FrameDecoder.new cfg.maxPayload).feedAll chunks
    link.log.delivered = fed.1 ∧ link.stats.rxCrcErrors.toNat = fed.2.crcErrors % 2 ^ 32 := by
  rw [← List.take_append_drop n stream] at hnested
  have hnil := dropped_append cfg (stream.take n) (stream.drop n) hnested
  obtain ⟨hframes, hcrc⟩ := rx_agrees cfg (safe_of_harmless (Harmless.of_dropped_nil hnil))
  obtain ⟨hframes', hcrc'⟩ := feedAll_new cfg.maxPayload chunks
  rw [hchunks] at hframes' hcrc'
  refine ⟨hframes.trans hframes'.symm, ?_⟩
  rw [hcrc, hcrc', UInt32.toNat_ofNat']

/-- A candidate with a bad checksum, and a frame behind it. -/
theorem rx_refines_decoder_bad_crc :
    let stream : List UInt8 :=
      [0x53, 0x59, 1, 0, 1, 0, 0, 0, 7, 0, 0] ++ Frame.wire ⟨8, 1, [2]⟩ 0
    (rxFeed .mocap (rxInit .mocap) (stream.take 22)).link.log.delivered
      = ((FrameDecoder.new 128).feedAll [stream.take 22]).1 := by
  intro stream
  exact (rx_refines_decoder .mocap stream (by decide +kernel) 22 [stream.take 22] (by simp)).1

/-! ## The width of the counter -/

def badCandidate : List UInt8 := [0x53, 0x59, 1, 0, 1, 0, 0, 0, 7, 0, 0]

def badCandidates (n : Nat) : List UInt8 := (List.replicate n badCandidate).flatten

theorem liveRun_badCandidates (n : Nat) :
    run (liveStep (recogniser 128)) [] (badCandidates n)
      = ⟨[], List.replicate n .badCrc, [], []⟩ := by
  have hone : run (liveStep (recogniser 128)) [] badCandidate = ⟨[], [.badCrc], [], []⟩ := by
    decide +kernel
  induction n with
  | zero => rfl
  | succ n ih =>
      rw [badCandidates, List.replicate_succ, List.flatten_cons, run_append, hone]
      exact congrArg (Out.andThen _) ih

/-- `n` bad checksums, as both ends count them. -/
theorem badCandidates_counted (n : Nat) :
    let link := (rxFeed .mocap (rxInit .mocap) (badCandidates n)).link
    link.log.dropped = [] ∧ link.stats.rxCrcErrors.toNat = n % 2 ^ 32 ∧
      ((FrameDecoder.new 128).feedAll [badCandidates n]).2.crcErrors = n := by
  intro link
  have hrun := liveRun_badCandidates n
  have hlink := (rxFeed_rxInit .mocap (badCandidates n)).link
  have hdropped : (run (liveStep (recogniser 128)) [] (badCandidates n)).dropped = [] := by
    rw [hrun]
  have hfaults := (liveRun_agrees (safe_of_harmless (Harmless.of_dropped_nil hdropped))).faults_eq
  have hcount : (run (liveStep (recogniser 128)) [] (badCandidates n)).faults.count .badCrc = n := by
    rw [hrun]
    exact List.count_replicate_self
  refine ⟨hlink.dropped_eq.trans ?_, ?_, ?_⟩
  · exact hdropped
  · rw [hlink.rxCrcErrors_eq]
    simp only [SerialConfig.mocap, hcount]
    simp [rxInit]
  · rw [(feedAll_new 128 [badCandidates n]).2, List.flatten_cons, List.flatten_nil, List.append_nil,
      ← hfaults, hcount]

/-- After 2^32 bad checksums the firmware's counter is back at zero, while
the decoder has counted them all. -/
theorem rxCrcErrors_wraps :
    let link := (rxFeed .mocap (rxInit .mocap) (badCandidates (2 ^ 32))).link
    let decoder := ((FrameDecoder.new 128).feedAll [badCandidates (2 ^ 32)]).2
    link.log.dropped = [] ∧ link.stats.rxCrcErrors.toNat ≠ decoder.crcErrors := by
  obtain ⟨hdropped, hrx, hdecoder⟩ := badCandidates_counted (2 ^ 32)
  refine ⟨hdropped, ?_⟩
  rw [hrx, hdecoder]
  omega

end Rdd2
