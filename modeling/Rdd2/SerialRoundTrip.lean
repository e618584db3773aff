import Rdd2.RescanWhole
import Rdd2.SerialDecoder
import Rdd2.SerialRxRefine

/-!
# Streams of whole frames on the link

What both receivers make of a stream that is nothing but frames of the
link. Both builders lay out the same bytes; the firmware accepts exactly
the frames and is idle again, and the ground station returns exactly the
frames and holds no byte back, however the stream was cut into chunks
(`framing_round_trip`).

The firmware's side is `liveRun_whole` through the refinement. The
decoder's side needs more than its scan, since `feed` may keep a byte that
is no candidate: `feedLoop_undecided` and `feedLoop_frame` follow the
buffer itself.
-/

namespace Rdd2

open Rescan

/-! ## Frames are whole -/

theorem whole_wire {M : Nat} (hM : M ≤ 512) {f : Frame} (hf : f.Valid M) (flags : UInt8) :
    Whole (recogniser M) f (f.wire flags) := by
  have hword : f.payload.length < 65536 := by
    have := hf.2
    omega
  exact judge_wire hf hword flags

/-- A stretch of bytes with a frame on it, as `tx_topic_if_due` lays it out
in a stack buffer or as `encode_frame` returns it. -/
def Built (cfg : SerialConfig) (f : Frame) (bytes : List UInt8) : Prop :=
  (∃ buf : List UInt8, buf.length = cfg.frameMax ∧
      bytes = txFrame cfg buf f.topicId f.seq f.payload) ∨
    encodeFrame f.topicId f.payload f.seq = some bytes

theorem Built.eq_wire {cfg : SerialConfig} {f : Frame} {bytes : List UInt8}
    (hf : f.Valid cfg.maxPayload) (h : Built cfg f bytes) : bytes = f.wire 0 := by
  rcases h with ⟨buf, hbuf, rfl⟩ | h
  · have hlen := hf.2
    refine txFrame_eq_wire cfg ?_
    rw [hbuf, SerialConfig.frameMax]
    omega
  · rw [encodeFrame_eq_wire cfg.maxPayload_le hf] at h
    exact (Option.some.inj h).symm

theorem whole_built {cfg : SerialConfig} {frames : List Frame} {wires : List (List UInt8)}
    (hf : ∀ f ∈ frames, f.Valid cfg.maxPayload)
    (h : List.Forall₂ (Built cfg) frames wires) :
    List.Forall₂ (Whole (recogniser cfg.maxPayload)) frames wires := by
  induction h with
  | nil => exact .nil
  | @cons f w frames wires hfw _ ih =>
      have hv := hf f List.mem_cons_self
      rw [hfw.eq_wire hv]
      exact .cons (whole_wire cfg.maxPayload_le hv 0) (ih fun g hg => hf g (List.mem_cons_of_mem f hg))

/-! ## The firmware -/

/-- The receiver between two frames: `g_rx_state` is `RX_SYNC0`, outside of
any replay. -/
structure Rx.Idle (cfg : SerialConfig) (s : Rx) : Prop where
  sized : s.parser.Sized cfg
  state_eq : s.parser.state = .sync0
  replaying_eq : s.replaying = false

theorem Rx.Idle.wf {cfg : SerialConfig} {s : Rx} (h : s.Idle cfg) : s.parser.Wf cfg := by
  refine ⟨h.sized, ?_⟩
  rw [h.state_eq]
  trivial

theorem Rx.Idle.window {cfg : SerialConfig} {s : Rx} (h : s.Idle cfg) : s.parser.window = [] := by
  rw [RxParser.window, h.state_eq]

theorem RxParser.state_of_window {p : RxParser} (h : p.window = []) : p.state = .sync0 := by
  cases hs : p.state with
  | sync0 => rfl
  | _ =>
      rw [RxParser.window, hs] at h
      cases h

theorem RxAfter.idle {cfg : SerialConfig} {s s' : Rx} {o : Out UInt8 Frame RxFault}
    (h : RxAfter cfg s o s') (hs : s.replaying = false) (ho : o.rest = []) : s'.Idle cfg :=
  ⟨h.wf.1, RxParser.state_of_window (h.window_eq.trans ho), h.replaying_eq.trans hs⟩

/-- An idle receiver takes whole frames one by one: `rx_track_sequence` and
`rx_deliver` for each of them, and nothing else happens to the link. -/
theorem rxFeed_whole {cfg : SerialConfig} {s : Rx} (hs : s.Idle cfg) {frames : List Frame}
    {wires : List (List UInt8)}
    (h : List.Forall₂ (Whole (recogniser cfg.maxPayload)) frames wires) :
    (rxFeed cfg s wires.flatten).Idle cfg ∧
      LinkAfter cfg s.link ⟨frames, [], [], []⟩ (rxFeed cfg s wires.flatten).link := by
  have hrun := rxFeed_refines hs.wf hs.replaying_eq wires.flatten
  rw [hs.window, liveRun_whole h] at hrun
  exact ⟨hrun.idle hs.replaying_eq rfl, hrun.link⟩

/-! ## The ground station -/

theorem findSync_undecided {M : Nat} {w : List UInt8} (h : judge M w = .more) :
    (w.length ≤ 1 ∧ findSync w = none) ∨ findSync w = some 0 := by
  match w with
  | [] => exact Or.inl ⟨by simp, rfl⟩
  | [a] => exact Or.inl ⟨by simp, rfl⟩
  | a :: b :: rest =>
    simp only [judge] at h
    split at h
    · rename_i hs
      exact Or.inr (by rw [findSync, if_pos hs])
    · cases h

theorem findSync_accepted {M : Nat} {w : List UInt8} {f : Frame} {n : Nat}
    (h : judge M w = .accept f n) : findSync w = some 0 := by
  obtain ⟨flags, rest, -, -, rfl, -⟩ := judge_accept h
  simp [Frame.wire, findSync]

theorem feedLoop_at_sync (d : FrameDecoder) (frames : List Frame) (h : findSync d.buf = some 0) :
    d.feedLoop frames =
      match judge d.maxPayload d.buf with
      | .more => (frames, d)
      | .accept f n => FrameDecoder.feedLoop { d with buf := d.buf.drop n } (frames ++ [f])
      | .reject (some .badCrc) k =>
          FrameDecoder.feedLoop { d with crcErrors := d.crcErrors + 1, buf := d.buf.drop k } frames
      | .reject _ k => FrameDecoder.feedLoop { d with buf := d.buf.drop k } frames := by
  obtain ⟨-, body, hbody⟩ := scan_of_findSync_some (M := d.maxPayload) h
  rw [List.drop_zero] at hbody
  fun_cases FrameDecoder.feedLoop d frames with
  | case1 hnone =>
      rw [hnone] at h
      cases h
  | case2 start hstart buf hshort =>
      obtain rfl := Option.some.inj (hstart.symm.trans h)
      have hj : judge d.maxPayload d.buf = .more := by
        have hlen : d.buf.length < headerSize := hshort
        rw [hbody] at hlen ⊢
        exact judge_short hlen
      rw [hj]
      rfl
  | case3 start hstart buf hlong length hlen =>
      obtain rfl := Option.some.inj (hstart.symm.trans h)
      have hj : judge d.maxPayload d.buf = .reject (some .badLength) 2 :=
        (judge_at_sync hbody (Nat.le_of_not_lt hlong)).trans (if_pos hlen)
      rw [hj]
      rfl
  | case4 start hstart buf hlong length hlen total hshort =>
      obtain rfl := Option.some.inj (hstart.symm.trans h)
      have hj : judge d.maxPayload d.buf = .more :=
        (judge_at_sync hbody (Nat.le_of_not_lt hlong)).trans
          ((if_neg hlen).trans (if_pos hshort))
      rw [hj]
      rfl
  | case5 start hstart buf hlong length hlen total hfull body' want hcrc =>
      obtain rfl := Option.some.inj (hstart.symm.trans h)
      have hj : judge d.maxPayload d.buf = .reject (some .badCrc) 2 :=
        (judge_at_sync hbody (Nat.le_of_not_lt hlong)).trans
          ((if_neg hlen).trans ((if_neg hfull).trans (if_pos hcrc)))
      rw [hj]
      rfl
  | case6 start hstart buf hlong length topicId seq hlen total hfull body' want hcrc payload =>
      obtain rfl := Option.some.inj (hstart.symm.trans h)
      have hj : judge d.maxPayload d.buf
          = .accept ⟨topicId, seq, payload⟩ (headerSize + length + trailerSize) :=
        (judge_at_sync hbody (Nat.le_of_not_lt hlong)).trans
          ((if_neg hlen).trans ((if_neg hfull).trans (if_neg hcrc)))
      rw [hj]
      rfl

theorem feedLoop_undecided (d : FrameDecoder) (frames : List Frame)
    (h : judge d.maxPayload d.buf = .more) : d.feedLoop frames = (frames, d) := by
  rcases findSync_undecided h with ⟨hlen, hnone⟩ | hzero
  · have hkeep : d.buf.drop (d.buf.length - 1) = d.buf := by
      rw [Nat.sub_eq_zero_of_le hlen, List.drop_zero]
    rw [FrameDecoder.feedLoop]
    split
    · rw [hkeep]
    · rename_i start hstart
      rw [hnone] at hstart
      cases hstart
  · rw [feedLoop_at_sync d frames hzero, h]

theorem feedLoop_whole {M : Nat} (crcErrors : Nat) {fs : List Frame} {segs : List (List UInt8)}
    (h : List.Forall₂ (Whole (recogniser M)) fs segs) {w : List UInt8} (hw : judge M w = .more)
    (frames : List Frame) :
    FrameDecoder.feedLoop ⟨M, segs.flatten ++ w, crcErrors⟩ frames
      = (frames ++ fs, ⟨M, w, crcErrors⟩) := by
  induction h generalizing frames with
  | nil =>
      rw [List.append_nil]
      exact feedLoop_undecided _ frames hw
  | @cons f seg fs segs hseg _ ih =>
      have hj : judge M (seg ++ (segs.flatten ++ w)) = .accept f seg.length :=
        hseg.judge_append _
      rw [List.flatten_cons, List.append_assoc, feedLoop_at_sync _ _ (findSync_accepted hj), hj]
      simp only [List.drop_left]
      rw [ih]
      simp

/-- However a stream of whole frames is cut, the calls of `feed` return its
frames, and the decoder is as it was at the start. -/
theorem feedAll_whole {M : Nat} (crcErrors : Nat) {w : List UInt8} (hw : judge M w = .more)
    (chunks : List (List UInt8)) {fs : List Frame} {segs : List (List UInt8)}
    (h : List.Forall₂ (Whole (recogniser M)) fs segs)
    (hcut : w ++ chunks.flatten = segs.flatten) :
    FrameDecoder.feedAll ⟨M, w, crcErrors⟩ chunks = (fs, ⟨M, [], crcErrors⟩) := by
  induction chunks generalizing w fs segs with
  | nil =>
      rw [List.flatten_nil, List.append_nil] at hcut
      subst hcut
      obtain ⟨rfl, rfl⟩ := whole_undecided h hw
      rfl
  | cons chunk chunks ih =>
      rw [List.flatten_cons, ← List.append_assoc] at hcut
      obtain ⟨fs₁, fs₂, segs₁, segs₂, w', rfl, h₁, h₂, hfirst, hlater, hw'⟩ := Whole.cut h hcut
      have hfeed : FrameDecoder.feed ⟨M, w, crcErrors⟩ chunk = (fs₁, ⟨M, w', crcErrors⟩) := by
        rw [FrameDecoder.feed, hfirst]
        exact feedLoop_whole crcErrors h₁ hw' []
      rw [FrameDecoder.feedAll, hfeed, ih hw' h₂ hlater]

/-! ## The round trip -/

/-- The frames of any list, built by either end, pass through both
receivers unchanged. The builders agree byte for byte; an idle firmware
receiver accepts exactly the frames, rejects no candidate, and is idle
afterwards - what remains of the frames on the link is what
`rx_track_sequence` and `rx_deliver` make of them; and the ground station's
decoder returns exactly the frames and has nothing left in its buffer. -/
theorem framing_round_trip (cfg : SerialConfig) (frames : List Frame)
    (hframes : ∀ f ∈ frames, f.Valid cfg.maxPayload) (wires : List (List UInt8))
    (hwires : List.Forall₂ (Built cfg) frames wires) :
    (∀ f ∈ frames, ∀ buf : List UInt8, buf.length = cfg.frameMax →
      encodeFrame f.topicId f.payload f.seq
        = some (txFrame cfg buf f.topicId f.seq f.payload)) ∧
    (∀ s : Rx, s.Idle cfg →
      let s' := rxFeed cfg s wires.flatten
      s'.Idle cfg ∧
        s'.link.log.delivered = s.link.log.delivered ++ frames ∧
        s'.link.log.rejected = s.link.log.rejected ∧
        s'.link.stats.rxCrcErrors = s.link.stats.rxCrcErrors ∧
        s'.link = frames.foldl (acceptFrame cfg) s.link) ∧
    (∀ chunks : List (List UInt8), chunks.flatten = wires.flatten →
      (FrameDecoder.new cfg.maxPayload).feedAll chunks
        = (frames, FrameDecoder.new cfg.maxPayload)) := by
  have hwhole := whole_built hframes hwires
  refine ⟨fun f hf buf hbuf => ?_, fun s hs => ?_, fun chunks hchunks => ?_⟩
  · have hv := hframes f hf
    have hbuilt : Built cfg f (txFrame cfg buf f.topicId f.seq f.payload) :=
      Or.inl ⟨buf, hbuf, rfl⟩
    rw [hbuilt.eq_wire hv]
    exact encodeFrame_eq_wire cfg.maxPayload_le hv
  · obtain ⟨hidle, hlink⟩ := rxFeed_whole hs hwhole
    refine ⟨hidle, hlink.delivered_eq, ?_, ?_, hlink.of_clean rfl rfl⟩
    · rw [hlink.rejected_eq, List.append_nil]
    · rw [hlink.rxCrcErrors_eq]
      simp
  · exact feedAll_whole 0 rfl chunks hwhole hchunks

/-- A payload that begins like a frame of its own. -/
theorem framing_round_trip_sync_payload :
    let f : Frame := ⟨8, 255, [0x53, 0x59, 1, 0, 8, 0, 0, 0, 7]⟩
    (FrameDecoder.new 128).feedAll [(f.wire 0).take 9, (f.wire 0).drop 9]
      = ([f], FrameDecoder.new 128) := by
  intro f
  have hv : f.Valid SerialConfig.mocap.maxPayload := by decide
  have hbuilt : Built .mocap f (f.wire 0) := Or.inr (encodeFrame_eq_wire (by decide) hv)
  exact (framing_round_trip .mocap [f] (by simpa using hv) [f.wire 0] (.cons hbuilt .nil)).2.2 _
    (by simp)

end Rdd2
