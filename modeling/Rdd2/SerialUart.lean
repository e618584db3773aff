import Rdd2.InterruptRing
import Rdd2.SerialWires

/-!
# The receiver behind its interrupt

The receiving half of `uart_isr` and the loop of `rx_drain` in
`subsys/zros_serial/zros_serial.c`: the interrupt moves what the UART holds into
`g_rx_ring` and counts what does not fit, the transport thread takes the bytes out
in chunks of 64 and gives them to `rx_byte` one by one. The two run into each other
at every byte.

`g_stats` has a counter that the interrupt writes, `rx_ring_overrun`; everything
else in it belongs to the thread. `serialReader_lawful` is what that is worth: a
byte handled before or after the interrupt counts its overrun makes no difference.
-/

namespace Rdd2

open Rescan

/-! ## The two sides of the ring -/

/-- What `uart_isr` writes to `g_stats`. -/
def RxLink.overrun (l : RxLink) (lost : Nat) : RxLink :=
  { l with stats.rxRingOverrun := l.stats.rxRingOverrun + UInt32.ofNat lost }

def Rx.overrun (s : Rx) (lost : Nat) : Rx := { s with link := s.link.overrun lost }

/-- `g_rx_ring` between `uart_isr` and `rx_drain`. -/
def serialReader (cfg : SerialConfig) (rxRingSize : Nat) : InterruptRing.Reader UInt8 Rx where
  capacity := rxRingSize
  chunkMax := 64
  handle := rxByte cfg
  overrun := Rx.overrun

/-- The link as `zros_serial_init` leaves it. -/
def uartInit (cfg : SerialConfig) : InterruptRing.State UInt8 Rx := InterruptRing.init (rxInit cfg)

/-- Interrupts and steps of the thread, in any order that can happen. -/
def uartRun (cfg : SerialConfig) (rxRingSize : Nat) (events : List (InterruptRing.Event UInt8)) :
    Option (InterruptRing.State UInt8 Rx) :=
  Guarded.run (InterruptRing.step (serialReader cfg rxRingSize)) (uartInit cfg) events

/-! ## No counter has two writers -/

theorem rxTrackSequence_overrun (seq : UInt8) (l : RxLink) (lost : Nat) :
    rxTrackSequence seq (l.overrun lost) = (rxTrackSequence seq l).overrun lost := by
  simp only [rxTrackSequence]
  split <;> rename_i hleft <;> split <;> rename_i hright
  · rfl
  · exact absurd hleft hright
  · exact absurd hright hleft
  · rfl

theorem rxDeliver_overrun (cfg : SerialConfig) (p : RxParser) (l : RxLink) (lost : Nat) :
    rxDeliver cfg p (l.overrun lost) = (rxDeliver cfg p l).overrun lost := by
  simp only [rxDeliver]
  split
  · rfl
  · split
    · rfl
    · split
      · rfl
      · -- the one condition that looks at the link
        rw [show (l.overrun lost).log = l.log from rfl]
        split <;> rfl

theorem rxByteWith_overrun (cfg : SerialConfig) {replay : Rx → List UInt8 → Rx} {lost : Nat}
    (h : ∀ s bytes, replay (s.overrun lost) bytes = (replay s bytes).overrun lost) (s : Rx)
    (byte : UInt8) :
    rxByteWith cfg replay (s.overrun lost) byte = (rxByteWith cfg replay s byte).overrun lost := by
  have haccept (p q : RxParser) (seq : UInt8) (l : RxLink) (flag : Bool) :
      (Rx.mk q (rxDeliver cfg p (rxTrackSequence seq l)) flag).overrun lost
        = ⟨q, rxDeliver cfg p (rxTrackSequence seq (l.overrun lost)), flag⟩ := by
    rw [rxTrackSequence_overrun, rxDeliver_overrun]
    rfl
  have hreplay (t : Rx) (bytes : List UInt8) :
      (replay t bytes).overrun lost = replay (t.overrun lost) bytes := (h t bytes).symm
  simp only [rxByteWith, show (s.overrun lost).parser = s.parser from rfl]
  -- the side that counts last first: it names the receiver that the other side shifts
  split <;> (repeat' split) <;> symm <;>
    first
      | rfl
      | exact hreplay _ _
      | exact haccept _ _ _ _ _

theorem rxReplayWith_overrun {rxByte : Rx → UInt8 → Rx} {lost : Nat}
    (h : ∀ s byte, rxByte (s.overrun lost) byte = (rxByte s byte).overrun lost) (s : Rx)
    (bytes : List UInt8) :
    rxReplayWith rxByte (s.overrun lost) bytes = (rxReplayWith rxByte s bytes).overrun lost := by
  have hfold (bytes : List UInt8) (s : Rx) :
      bytes.foldl rxByte (s.overrun lost) = (bytes.foldl rxByte s).overrun lost :=
    List.foldl_hom (fun s => Rx.overrun s lost) h
  simp only [rxReplayWith, show (s.overrun lost).replaying = s.replaying from rfl]
  split
  · rfl
  · have hloop := hfold bytes { s with
      parser := { s.parser with state := .sync0, pos := 0 }, replaying := true }
    exact congrArg (fun s : Rx => { s with replaying := false }) hloop

theorem rxByte_overrun (cfg : SerialConfig) (s : Rx) (lost : Nat) (byte : UInt8) :
    rxByte cfg (s.overrun lost) byte = (rxByte cfg s byte).overrun lost := by
  refine rxByteWith_overrun cfg (rxReplayWith_overrun fun s byte => ?_) s byte
  exact rxByteWith_overrun cfg (rxReplayWith_overrun fun _ _ => rfl) s byte

/-- The thread and the interrupt write to different counters. -/
theorem serialReader_lawful (cfg : SerialConfig) (rxRingSize : Nat) :
    (serialReader cfg rxRingSize).Lawful where
  overrun_zero := fun s => by
    change ({ s with link := s.link.overrun 0 } : Rx) = s
    have hlink : s.link.overrun 0 = s.link := by simp [RxLink.overrun]
    rw [hlink]
  overrun_add := fun s m n => by
    change ({ s with link := (s.link.overrun m).overrun n } : Rx)
      = { s with link := s.link.overrun (m + n) }
    have hlink : (s.link.overrun m).overrun n = s.link.overrun (m + n) := by
      simp [RxLink.overrun, UInt32.ofNat_add, UInt32.add_assoc]
    rw [hlink]
  handle_overrun := fun s n byte => rxByte_overrun cfg s n byte

theorem rxDeliver_rxRingOverrun (cfg : SerialConfig) (p : RxParser) (l : RxLink) :
    (rxDeliver cfg p l).stats.rxRingOverrun = l.stats.rxRingOverrun := by
  simp only [rxDeliver]
  (repeat' split) <;> rfl

theorem rxTrackSequence_rxRingOverrun (seq : UInt8) (l : RxLink) :
    (rxTrackSequence seq l).stats.rxRingOverrun = l.stats.rxRingOverrun := by
  simp only [rxTrackSequence]
  split <;> rfl

theorem rxByteWith_rxRingOverrun (cfg : SerialConfig) {replay : Rx → List UInt8 → Rx}
    (h : ∀ s bytes, (replay s bytes).link.stats.rxRingOverrun = s.link.stats.rxRingOverrun)
    (s : Rx) (byte : UInt8) :
    (rxByteWith cfg replay s byte).link.stats.rxRingOverrun = s.link.stats.rxRingOverrun := by
  have haccept (p : RxParser) (seq : UInt8) (l : RxLink) :
      (rxDeliver cfg p (rxTrackSequence seq l)).stats.rxRingOverrun = l.stats.rxRingOverrun := by
    rw [rxDeliver_rxRingOverrun, rxTrackSequence_rxRingOverrun]
  simp only [rxByteWith]
  split <;> (repeat' split) <;> first | rfl | exact h _ _ | exact haccept _ _ _

theorem foldl_rxRingOverrun {rxByte : Rx → UInt8 → Rx}
    (h : ∀ s byte, (rxByte s byte).link.stats.rxRingOverrun = s.link.stats.rxRingOverrun)
    (s : Rx) (bytes : List UInt8) :
    (bytes.foldl rxByte s).link.stats.rxRingOverrun = s.link.stats.rxRingOverrun := by
  induction bytes generalizing s with
  | nil => rfl
  | cons b bytes ih => exact (ih (rxByte s b)).trans (h s b)

theorem rxReplayWith_rxRingOverrun {rxByte : Rx → UInt8 → Rx}
    (h : ∀ s byte, (rxByte s byte).link.stats.rxRingOverrun = s.link.stats.rxRingOverrun)
    (s : Rx) (bytes : List UInt8) :
    (rxReplayWith rxByte s bytes).link.stats.rxRingOverrun = s.link.stats.rxRingOverrun := by
  simp only [rxReplayWith]
  split
  · rfl
  · exact foldl_rxRingOverrun h _ bytes

theorem rxFeed_rxRingOverrun (cfg : SerialConfig) (s : Rx) (bytes : List UInt8) :
    (rxFeed cfg s bytes).link.stats.rxRingOverrun = s.link.stats.rxRingOverrun := by
  refine foldl_rxRingOverrun (rxByteWith_rxRingOverrun cfg ?_) s bytes
  refine rxReplayWith_rxRingOverrun (rxByteWith_rxRingOverrun cfg ?_)
  exact rxReplayWith_rxRingOverrun fun _ _ => rfl

/-! ## Every byte accounted for -/

/-- However the interrupt and the thread run into each other: the bytes that were
stored are those handled, in the chunk and in the ring, in order, and none but
bytes of the line in their order; the receiver is as it is after the handled bytes
alone, and `rx_ring_overrun` counts the bytes of the line that were never
stored. -/
theorem uart_bytes_accounted (cfg : SerialConfig) (rxRingSize : Nat)
    (events : List (InterruptRing.Event UInt8)) (s : InterruptRing.State UInt8 Rx)
    (hrun : uartRun cfg rxRingSize events = some s) :
    s.stored = s.handled ++ s.chunk ++ s.ring ∧ s.stored.Sublist s.offered ∧
      s.ring.length ≤ rxRingSize ∧
      s.reader.parser = (rxFeed cfg (rxInit cfg) s.handled).parser ∧
      s.reader.link.log = (rxFeed cfg (rxInit cfg) s.handled).link.log ∧
      s.reader.link.msg = (rxFeed cfg (rxInit cfg) s.handled).link.msg ∧
      s.reader.link.stats = { (rxFeed cfg (rxInit cfg) s.handled).link.stats with
        rxRingOverrun := UInt32.ofNat (s.offered.length - s.stored.length) } := by
  have h := InterruptRing.run_account (serialReader_lawful cfg rxRingSize) (rxInit cfg) hrun
  have hreader : s.reader = (rxFeed cfg (rxInit cfg) s.handled).overrun
      (s.offered.length - s.stored.length) := h.reader_eq
  refine ⟨h.stored_eq, h.stored_sublist, h.ring_le, ?_, ?_, ?_, ?_⟩
  · rw [hreader]
    rfl
  · rw [hreader]
    rfl
  · rw [hreader]
    rfl
  · have hzero : (rxFeed cfg (rxInit cfg) s.handled).link.stats.rxRingOverrun = 0 :=
      rxFeed_rxRingOverrun cfg (rxInit cfg) s.handled
    rw [hreader, Rx.overrun, RxLink.overrun, hzero, UInt32.zero_add]

/-- Two bytes at a ring of one. -/
theorem uart_bytes_accounted_overrun :
    ∃ s, uartRun .mocap 1 [.wake, .offer [0x53, 0x59], .take, .handle] = some s ∧
      s.stored = s.handled ++ s.chunk ++ s.ring ∧ s.reader.link.stats.rxRingOverrun = 1 := by
  have hrun : (uartRun .mocap 1 [.wake, .offer [0x53, 0x59], .take, .handle]).isSome = true := by
    decide
  obtain ⟨s, hs⟩ := Option.isSome_iff_exists.mp hrun
  have h := uart_bytes_accounted .mocap 1 _ s hs
  have hlost : ∀ t, uartRun .mocap 1 [.wake, .offer [0x53, 0x59], .take, .handle] = some t →
      t.offered.length - t.stored.length = 1 := by
    intro t ht
    cases ht
    rfl
  refine ⟨s, hs, h.1, ?_⟩
  rw [h.2.2.2.2.2.2, hlost s hs]
  rfl

/-! ## A line of frames -/

/-- While no more bytes arrive between two looks at an empty ring than it holds,
nothing is lost: of the frames on the line exactly those are delivered whose last
byte has been handled, each once and in order, with no candidate rejected on the
way; and once the thread is asleep with nothing in the ring, these are all that
have arrived. -/
theorem uart_delivers_frames (cfg : SerialConfig) (rxRingSize : Nat)
    (fs : List (Frame × UInt8)) (hvalid : ∀ p ∈ fs, p.1.Valid cfg.maxPayload)
    (events : List (InterruptRing.Event UInt8)) (s : InterruptRing.State UInt8 Rx)
    (hfits : Guarded.Ok (InterruptRing.step (serialReader cfg rxRingSize))
      (InterruptRing.BurstFits (serialReader cfg rxRingSize)) (uartInit cfg) events)
    (hrun : uartRun cfg rxRingSize events = some s) (hline : s.offered <+: wires fs) :
    (∃ k ≤ fs.length, s.reader.link = ((fs.take k).map Prod.fst).foldl (acceptFrame cfg) {} ∧
        s.reader.link.log.delivered = (fs.take k).map Prod.fst ∧
        startOf fs k ≤ s.handled.length ∧
        ∀ l, k < l → l ≤ fs.length → s.handled.length < startOf fs l) ∧
      (s.draining = false → s.ring = [] → s.handled = s.offered) := by
  have hR := serialReader_lawful cfg rxRingSize
  have h := InterruptRing.run_account hR (rxInit cfg) hrun
  have hstored : s.stored = s.offered := InterruptRing.run_lossless hR (rxInit cfg) hfits hrun
  have hreader : s.reader = rxFeed cfg (rxInit cfg) s.handled := by
    have hlost := h.reader_eq
    rw [hstored, Nat.sub_self, hR.overrun_zero] at hlost
    exact hlost
  refine ⟨?_, fun hasleep hring => (h.handled_of_idle (h.asleep hasleep) hring).trans hstored⟩
  obtain ⟨later, hlater⟩ := hline
  have hcut : s.handled ++ (s.chunk ++ s.ring ++ later)
      = (fs.map fun p => p.1.wire p.2).flatten := by
    rw [← wires_eq_flatten, ← hlater, ← hstored, h.stored_eq]
    simp
  obtain ⟨k, w, hk, hcutRun, hle, hpending⟩ :=
    liveRun_prefix (whole_wires cfg.maxPayload_le hvalid) hcut
  have hlink := (rxFeed_rxInit cfg s.handled).link
  rw [hcutRun, ← hreader, ← List.map_take] at hlink
  rw [List.length_map] at hk hpending
  refine ⟨k, hk, hlink.of_clean rfl rfl, hlink.delivered_eq, ?_, fun l hl hlen => ?_⟩
  · rw [startOf_eq]
    exact hle
  · rw [startOf_eq]
    exact hpending l hl hlen

/-- A frame that arrives in two interrupts, and a sleep after it: it is delivered, and
nothing else is. -/
theorem uart_delivers_frames_fix :
    let f : Frame := ⟨8, 7, [1, 2, 3]⟩
    ∃ s, uartRun .mocap 16
        ([.offer ((f.wire 0).take 9), .wake, .take] ++ List.replicate 9 .handle
          ++ [.offer ((f.wire 0).drop 9), .take] ++ List.replicate 4 .handle ++ [.take]) = some s ∧
      s.handled = s.offered ∧ s.reader.link.log.delivered = [f] := by
  intro f
  let events : List (InterruptRing.Event UInt8) :=
    [.offer ((f.wire 0).take 9), .wake, .take] ++ List.replicate 9 .handle
      ++ [.offer ((f.wire 0).drop 9), .take] ++ List.replicate 4 .handle ++ [.take]
  obtain ⟨s, hs, hoffered, hasleep, hring⟩ : ∃ s, uartRun .mocap 16 events = some s ∧
      s.offered = f.wire 0 ∧ s.draining = false ∧ s.ring = [] :=
    Guarded.run_any _ (by decide +kernel)
  refine ⟨s, hs, ?_⟩
  have hline : s.offered <+: wires [(f, 0)] := by
    rw [hoffered]
    exact List.prefix_rfl
  obtain ⟨⟨k, hk, -, hdelivered, -, hpending⟩, hall⟩ :=
    uart_delivers_frames .mocap 16 [(f, 0)] (by decide) _ s (by decide +kernel) hs hline
  have hhandled := hall hasleep hring
  refine ⟨hhandled, ?_⟩
  rcases Nat.lt_or_ge k 1 with hnone | hone
  · -- the whole frame has been handled, so it is not pending
    have hless := hpending 1 hnone (by decide)
    rw [hhandled, hoffered] at hless
    exact absurd hless (by decide +kernel)
  · rw [hdelivered, List.take_of_length_le hone]
    rfl

end Rdd2
