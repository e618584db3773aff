import Rdd2.SerialRxRefine

/-!
# What the receiver may deliver

Whatever arrives on the line, the frames the receiver delivers are cut from
it: each is a contiguous stretch with the layout of the format table, and
different deliveries are disjoint stretches in the order of the stream
(`rx_sound`). This holds of frames found in a replay too, of candidates
that begin in replayed bytes and end in fresh ones, and after bytes were
dropped: `Rescan.Placed` ties the window to its place in the stream
throughout.
-/

namespace Rdd2

open Rescan

/-- A stretch of skipped bytes, and the frame behind it with its flags. -/
structure Piece where
  skipped : List UInt8
  frame : Frame
  flags : UInt8

def Piece.bytes (p : Piece) : List UInt8 := p.skipped ++ p.frame.wire p.flags

/-- Carved frames are pieces of the stream, laid end to end. -/
theorem carved_pieces {M : Nat} {frames : List Frame} {stream : List UInt8}
    (h : Carved (recogniser M) frames stream) :
    ∃ (pieces : List Piece) (rest : List UInt8),
      stream = pieces.flatMap Piece.bytes ++ rest ∧ frames = pieces.map Piece.frame ∧
        ∀ p ∈ pieces, p.frame.Valid M := by
  induction h with
  | gap s => exact ⟨[], s, rfl, rfl, nofun⟩
  | @frame f fs skipped seg rest hseg _ ih =>
      obtain ⟨pieces, tail, rfl, rfl, hvalid⟩ := ih
      obtain ⟨flags, more, hf, -, hsplit, hlen⟩ := judge_accept hseg
      have hmore : more = [] := by
        have hcount := congrArg List.length hsplit
        rw [List.length_append] at hcount
        exact List.eq_nil_of_length_eq_zero (by omega)
      rw [hmore, List.append_nil] at hsplit
      refine ⟨⟨skipped, f, flags⟩ :: pieces, tail, ?_, rfl, ?_⟩
      · simp [Piece.bytes, hsplit]
      · intro p hp
        rcases List.mem_cons.mp hp with rfl | hp
        · exact hf
        · exact hvalid p hp

/-- A frame is published only into an inbound entry of its topic, with a
publisher and a message of its length, and the message is its payload. -/
theorem publication_eq_some {cfg : SerialConfig} {f : Frame} {p : Publication}
    (h : publication cfg f = some p) :
    p.entry ∈ cfg.topics ∧ p.entry.id = f.topicId ∧ p.entry.rx = true ∧ p.entry.pub = true ∧
      f.payload.length = p.entry.payloadSize ∧ p.msg = f.payload := by
  unfold publication at h
  split at h
  · cases h
  · rename_i entry hentry
    have hmem := List.mem_of_find?_eq_some hentry
    have hid := List.find?_some hentry
    split at h
    · cases h
    · rename_i hdir
      split at h
      · cases h
      · rename_i hlen
        obtain rfl := Option.some.inj h
        simp only [not_or, Bool.not_eq_false] at hdir
        exact ⟨hmem, by simpa using hid, hdir.1, hdir.2, Decidable.not_not.mp hlen, rfl⟩

/-- For every byte stream from power-up on: the frames passed to
`rx_deliver` are disjoint stretches of the stream in stream order, each a
well-formed frame; and what is published are the payloads of those frames,
in order, whose topic is an inbound one with a publisher and whose length
is the topic's. -/
theorem rx_sound (cfg : SerialConfig) (stream : List UInt8) :
    let log := (rxFeed cfg (rxInit cfg) stream).link.log
    (∃ (pieces : List Piece) (rest : List UInt8),
      stream = pieces.flatMap Piece.bytes ++ rest ∧ log.delivered = pieces.map Piece.frame ∧
        ∀ p ∈ pieces, p.frame.Valid cfg.maxPayload) ∧
    log.published = log.delivered.filterMap (publication cfg) ∧
    ∀ f p, publication cfg f = some p →
      p.entry ∈ cfg.topics ∧ p.entry.id = f.topicId ∧ p.entry.rx = true ∧
        p.entry.pub = true ∧ f.payload.length = p.entry.payloadSize ∧ p.msg = f.payload := by
  have hlink := (rxFeed_rxInit cfg stream).link
  have hdelivered := hlink.delivered_eq
  have hpublished := hlink.published_eq
  simp only [rxInit, List.nil_append] at hdelivered hpublished
  refine ⟨?_, ?_, fun f p => publication_eq_some⟩
  · have hcarved := carved_pieces (liveRun_carved (recogniser cfg.maxPayload) stream)
    rwa [← hdelivered] at hcarved
  · rw [← hdelivered] at hpublished
    exact hpublished

end Rdd2
