import Rdd2.SerialScan
import Rdd2.SerialRx

/-!
# The receiver as a bounded rescan

`rx_byte` refines `Rescan.liveStep` over the link's recogniser. The
abstraction is `window`: the bytes of the candidate in progress, put
together from the receiver's state and buffers. `RxParser.Wf` says that
the buffers have their sizes, the position is inside the buffer the state
writes to, and the length and topic are those of the stored header.

`rxByteWith_spec` is the one place where the state machine is taken
apart: it states what a byte does to a well-formed receiver by the
verdict on the window and the byte, and leaves the two calls of
`rx_replay` open. The nested and the live receiver then follow the nested
and the live reader of `Rescan`, byte by byte (`rxByte_refines`) and over
whole streams (`rxFeed_refines`).
-/

namespace Rdd2

open Rescan

/-! ## The abstraction -/

/-- The bytes of the candidate in progress, sync word included. -/
def RxParser.window (p : RxParser) : List UInt8 :=
  match p.state with
  | .sync0 => []
  | .sync1 => [Rdd2.sync0]
  | .header => Rdd2.sync0 :: Rdd2.sync1 :: p.header.take p.pos
  | .payload => Rdd2.sync0 :: Rdd2.sync1 :: (p.header ++ p.payload.take p.pos)
  | .crc => Rdd2.sync0 :: Rdd2.sync1 :: (p.header ++ p.payload.take p.len ++ p.crc.take p.pos)

structure RxParser.Sized (cfg : SerialConfig) (p : RxParser) : Prop where
  header_length : p.header.length = headerTail
  payload_length : p.payload.length = cfg.maxPayload
  crc_length : p.crc.length = trailerSize

/-- `g_rx_len` and `g_rx_topic_id` are those of the stored header, and the
length is one the link carries. -/
structure RxParser.Admitted (cfg : SerialConfig) (p : RxParser) : Prop where
  len_eq : p.len = (getLe16 (p.header.getD 0 0) (p.header.getD 1 0)).toNat
  topicId_eq : p.topicId = getLe16 (p.header.getD 2 0) (p.header.getD 3 0)
  len_pos : 1 ≤ p.len
  len_le : p.len ≤ cfg.maxPayload

def RxParser.Wf (cfg : SerialConfig) (p : RxParser) : Prop :=
  p.Sized cfg ∧
    match p.state with
    | .sync0 => True
    | .sync1 => True
    | .header => p.pos < headerTail
    | .payload => p.pos < p.len ∧ p.Admitted cfg
    | .crc => p.pos < trailerSize ∧ p.Admitted cfg

theorem rxInit_wf (cfg : SerialConfig) : (rxInit cfg).parser.Wf cfg :=
  ⟨⟨List.length_replicate, List.length_replicate, List.length_replicate⟩, trivial⟩

def acceptFrame (cfg : SerialConfig) (l : RxLink) (f : Frame) : RxLink :=
  rxDeliver cfg
    { state := .crc, header := [], payload := f.payload, pos := 0, len := f.payload.length,
      topicId := f.topicId, crc := [] }
    (rxTrackSequence f.seq { l with log.delivered := l.log.delivered ++ [f] })

def RxLink.countFault (l : RxLink) : RxFault → RxLink
  | .badLength => { l with
      stats.rxBadLength := l.stats.rxBadLength + 1
      log.rejected := l.log.rejected ++ [.badLength] }
  | .badCrc => { l with
      stats.rxCrcErrors := l.stats.rxCrcErrors + 1
      log.rejected := l.log.rejected ++ [.badCrc] }

theorem rxDeliver_congr (cfg : SerialConfig) {p q : RxParser} (hid : p.topicId = q.topicId)
    (hlen : p.len = q.len) (hpay : p.payload.take p.len = q.payload.take q.len) (l : RxLink) :
    rxDeliver cfg p l = rxDeliver cfg q l := by
  simp only [rxDeliver, hid, hpay]
  rw [hlen]

/-! ## Window arithmetic -/

theorem scan_singleton (M : Nat) (b : UInt8) :
    scan (recogniser M) [b] = .silent (if b = sync0 then [b] else []) := by
  by_cases hb : b = sync0
  · have hj : (recogniser M).judge [b] = .more := by simp [recogniser, judge, hb]
    rw [scan_of_more _ hj, if_pos hb]
  · have hj : (recogniser M).judge [b] = .reject none 1 := by simp [recogniser, judge, hb]
    rw [scan_of_reject _ hj, Out.fault_none, if_neg hb]
    exact scan_nil _

theorem header_cases {header : List UInt8} (h : header.length = headerTail) :
    ∃ l0 l1 i0 i1 seq flags, header = [l0, l1, i0, i1, seq, flags] := by
  match header, h with
  | [l0, l1, i0, i1, seq, flags], _ => exact ⟨l0, l1, i0, i1, seq, flags, rfl⟩

/-! ## One byte -/

/-- What a byte does to a receiver whose window is `w`, by the verdict on
`w ++ [byte]`. The three harmless verdicts change the parser and, for a
frame, the link; a fault is counted and handed to `rx_replay`. -/
inductive ByteSpec (cfg : SerialConfig) (replay : Rx → List UInt8 → Rx) (s : Rx)
    (w : List UInt8) : Verdict Frame RxFault → Rx → Prop where
  | more (p : RxParser) (hwf : p.Wf cfg) (hw : p.window = w) :
      ByteSpec cfg replay s w .more { s with parser := p }
  | accept (p : RxParser) (hwf : p.Wf cfg) (hw : p.window = []) (f : Frame) (n : Nat) :
      ByteSpec cfg replay s w (.accept f n)
        { s with parser := p, link := acceptFrame cfg s.link f }
  | skip (p : RxParser) (hwf : p.Wf cfg) (k : Nat)
      (hscan : scan (recogniser cfg.maxPayload) (w.drop k) = .silent p.window) :
      ByteSpec cfg replay s w (.reject none k) { s with parser := p }
  | fault (p : RxParser) (hp : p.Sized cfg) (e : RxFault) (k : Nat) :
      ByteSpec cfg replay s w (.reject (some e) k)
        (replay { s with parser := p, link := s.link.countFault e } (w.drop k))

abbrev StepSpec (cfg : SerialConfig) (replay : Rx → List UInt8 → Rx) (s : Rx) (b : UInt8) : Prop :=
  ByteSpec cfg replay s (s.parser.window ++ [b]) (judge cfg.maxPayload (s.parser.window ++ [b]))
    (rxByteWith cfg replay s b)

theorem rxByteWith_sync0 (cfg : SerialConfig) (replay : Rx → List UInt8 → Rx) {s : Rx}
    (hstate : s.parser.state = .sync0) (hp : s.parser.Sized cfg) (b : UInt8) :
    StepSpec cfg replay s b := by
  have hw : s.parser.window = [] := by rw [RxParser.window, hstate]
  by_cases hb : b = Rdd2.sync0
  · have hj : judge cfg.maxPayload (s.parser.window ++ [b]) = .more := by simp [hw, judge, hb]
    have hs : rxByteWith cfg replay s b
        = { s with parser := { s.parser with state := .sync1 } } := by
      simp [rxByteWith, hstate, hb]
    rw [StepSpec, hj, hs]
    refine .more { s.parser with state := .sync1 } ⟨⟨hp.1, hp.2, hp.3⟩, ?_⟩ ?_
    · trivial
    · rw [hw, hb]
      rfl
  · have hj : judge cfg.maxPayload (s.parser.window ++ [b]) = .reject none 1 := by
      simp [hw, judge, hb]
    have hs : rxByteWith cfg replay s b = { s with parser := s.parser } := by
      simp [rxByteWith, hstate, hb]
    rw [StepSpec, hj, hs]
    exact .skip _ ⟨hp, by rw [hstate]; trivial⟩ 1 (by rw [hw]; exact scan_nil _)

theorem rxByteWith_sync1 (cfg : SerialConfig) (replay : Rx → List UInt8 → Rx) {s : Rx}
    (hstate : s.parser.state = .sync1) (hp : s.parser.Sized cfg) (b : UInt8) :
    StepSpec cfg replay s b := by
  have hw : s.parser.window = [Rdd2.sync0] := by rw [RxParser.window, hstate]
  by_cases h1 : b = Rdd2.sync1
  · have hj : judge cfg.maxPayload (s.parser.window ++ [b]) = .more := by
      simp [hw, judge, h1, judgeBody]
    have hs : rxByteWith cfg replay s b
        = { s with parser := { s.parser with state := .header, pos := 0 } } := by
      simp [rxByteWith, hstate, h1]
    rw [StepSpec, hj, hs]
    exact .more { s.parser with state := .header, pos := 0 }
      ⟨⟨hp.1, hp.2, hp.3⟩, Nat.zero_lt_succ _⟩ (by rw [hw, h1]; rfl)
  · have hj : judge cfg.maxPayload (s.parser.window ++ [b]) = .reject none 1 := by
      simp [hw, judge, h1]
    have hdrop : (s.parser.window ++ [b]).drop 1 = [b] := by rw [hw]; rfl
    by_cases h0 : b = Rdd2.sync0
    · have hs : rxByteWith cfg replay s b = { s with parser := s.parser } := by
        have hne : Rdd2.sync0 ≠ Rdd2.sync1 := by decide
        simp [rxByteWith, hstate, h0, hne]
      rw [StepSpec, hj, hs]
      refine .skip _ ⟨hp, by rw [hstate]; trivial⟩ 1 ?_
      rw [hdrop, scan_singleton, if_pos h0, hw, h0]
    · have hs : rxByteWith cfg replay s b
          = { s with parser := { s.parser with state := .sync0 } } := by
        simp [rxByteWith, hstate, h1, h0]
      rw [StepSpec, hj, hs]
      refine .skip { s.parser with state := .sync0 } ⟨⟨hp.1, hp.2, hp.3⟩, trivial⟩ 1 ?_
      rw [hdrop, scan_singleton, if_neg h0]
      rfl

/-- The header's last byte decides on the length. -/
theorem rxByteWith_header_last (cfg : SerialConfig) (replay : Rx → List UInt8 → Rx) {s : Rx}
    (hstate : s.parser.state = .header) (hp : s.parser.Sized cfg)
    {b l0 l1 i0 i1 seq flags : UInt8} (hlast : ¬ s.parser.pos + 1 < headerTail)
    (hheader : s.parser.header.set s.parser.pos b = [l0, l1, i0, i1, seq, flags])
    (hw : s.parser.window ++ [b]
      = Rdd2.sync0 :: Rdd2.sync1 :: [l0, l1, i0, i1, seq, flags]) : StepSpec cfg replay s b := by
  by_cases hbad : (getLe16 l0 l1).toNat = 0 ∨ cfg.maxPayload < (getLe16 l0 l1).toNat
  · have hj : judge cfg.maxPayload (s.parser.window ++ [b]) = .reject (some .badLength) 2 := by
      rw [hw]
      simp [judge, judgeBody, hbad]
    rw [StepSpec, hj]
    have hspec := @ByteSpec.fault cfg replay s (s.parser.window ++ [b])
      { s.parser with
        header := [l0, l1, i0, i1, seq, flags]
        pos := s.parser.pos + 1
        len := (getLe16 l0 l1).toNat
        topicId := getLe16 i0 i1 } ⟨rfl, hp.2, hp.3⟩ .badLength 2
    have hdrop : (s.parser.window ++ [b]).drop 2 = [l0, l1, i0, i1, seq, flags] := by
      rw [hw]
      rfl
    rw [hdrop] at hspec
    have hbad' : (getLe16 l0 l1).toNat = 0 ∨ (getLe16 l0 l1).toNat > cfg.maxPayload := hbad
    simpa [rxByteWith, hstate, hlast, hheader, hbad', RxLink.countFault] using hspec
  · have hj : judge cfg.maxPayload (s.parser.window ++ [b]) = .more := by
      rw [hw]
      simp [judge, judgeBody, hbad]
    have hs : rxByteWith cfg replay s b = { s with parser := { s.parser with
        header := [l0, l1, i0, i1, seq, flags]
        len := (getLe16 l0 l1).toNat
        topicId := getLe16 i0 i1
        pos := 0
        state := .payload } } := by
      have hbad' : ¬ ((getLe16 l0 l1).toNat = 0 ∨ (getLe16 l0 l1).toNat > cfg.maxPayload) :=
        hbad
      simp [rxByteWith, hstate, hlast, hheader, hbad']
    rw [StepSpec, hj, hs]
    refine .more _ ⟨⟨rfl, hp.2, hp.3⟩, ?_, ⟨rfl, rfl, ?_, ?_⟩⟩ ?_
    · simp only
      omega
    · simp only
      omega
    · simp only
      omega
    · rw [hw]
      simp [RxParser.window]

/-- Until then the candidate grows. -/
theorem rxByteWith_header (cfg : SerialConfig) (replay : Rx → List UInt8 → Rx) {s : Rx}
    (hstate : s.parser.state = .header) (hp : s.parser.Sized cfg)
    (hpos : s.parser.pos < headerTail) (b : UInt8) : StepSpec cfg replay s b := by
  have hset : (s.parser.header.set s.parser.pos b).take (s.parser.pos + 1)
      = s.parser.header.take s.parser.pos ++ [b] :=
    take_set_succ (by rw [hp.1]; exact hpos) b
  have hw : s.parser.window ++ [b] = Rdd2.sync0 :: Rdd2.sync1
      :: (s.parser.header.set s.parser.pos b).take (s.parser.pos + 1) := by
    rw [RxParser.window, hstate, hset]
    rfl
  have hlen : (s.parser.header.set s.parser.pos b).length = headerTail := by
    rw [List.length_set, hp.1]
  by_cases hmore : s.parser.pos + 1 < headerTail
  · have hj : judge cfg.maxPayload (s.parser.window ++ [b]) = .more := by
      rw [hw]
      simp only [judge, and_self, if_true]
      have hshort : ((s.parser.header.set s.parser.pos b).take (s.parser.pos + 1)).length < 6 := by
        rw [List.length_take, hlen]
        simp only [headerTail, headerSize, crcStart] at hmore ⊢
        omega
      revert hshort
      rcases (s.parser.header.set s.parser.pos b).take (s.parser.pos + 1) with
        _ | ⟨_, _ | ⟨_, _ | ⟨_, _ | ⟨_, _ | ⟨_, _ | ⟨_, _⟩⟩⟩⟩⟩⟩
      any_goals exact fun _ => rfl
      intro hshort
      simp only [List.length_cons] at hshort
      omega
    have hs : rxByteWith cfg replay s b = { s with parser := { s.parser with
        header := s.parser.header.set s.parser.pos b, pos := s.parser.pos + 1 } } := by
      simp [rxByteWith, hstate, hmore]
    rw [StepSpec, hj, hs]
    refine .more _ ⟨⟨hlen, hp.2, hp.3⟩, ?_⟩ ?_
    · simp only [hstate]
      exact hmore
    · rw [hw, RxParser.window]
      simp only [hstate]
  · have hfull : (s.parser.header.set s.parser.pos b).take (s.parser.pos + 1)
        = s.parser.header.set s.parser.pos b :=
      List.take_of_length_le (by rw [hlen]; omega)
    obtain ⟨l0, l1, i0, i1, seq, flags, hheader⟩ := header_cases hlen
    refine rxByteWith_header_last cfg replay hstate hp hmore hheader ?_
    rw [hw, hfull, hheader]

/-- Where the payload and the checksum are collected, the recogniser is in
the payload of a header it has let through. -/
theorem judge_admitted {cfg : SerialConfig} {p : RxParser} (hp : p.Sized cfg)
    (ha : p.Admitted cfg) (rest : List UInt8) :
    judge cfg.maxPayload (Rdd2.sync0 :: Rdd2.sync1 :: (p.header ++ rest)) =
      match rest.drop p.len with
      | c0 :: c1 :: _ =>
          if crc16CcittFalse (p.header ++ rest.take p.len) crcSeed = getLe16 c0 c1
          then .accept ⟨p.topicId, p.header.getD 4 0, rest.take p.len⟩
            (headerSize + p.len + trailerSize)
          else .reject (some .badCrc) 2
      | _ => .more := by
  obtain ⟨l0, l1, i0, i1, seq, flags, hheader⟩ := header_cases hp.1
  have hlen := ha.len_eq
  have htopic := ha.topicId_eq
  have hok : ¬ (p.len = 0 ∨ cfg.maxPayload < p.len) := by
    have := ha.len_pos
    have := ha.len_le
    omega
  rw [hheader] at hlen htopic ⊢
  simp only [List.getD_cons_zero, List.getD_cons_succ] at hlen htopic
  rw [hlen] at hok
  have hbody : judge cfg.maxPayload (Rdd2.sync0 :: Rdd2.sync1 :: ([l0, l1, i0, i1, seq, flags]
      ++ rest)) = judgeBody cfg.maxPayload (l0 :: l1 :: i0 :: i1 :: seq :: flags :: rest) := by
    simp [judge]
  rw [hbody, hlen, htopic]
  exact if_neg hok

/-- A payload byte never decides. -/
theorem rxByteWith_payload (cfg : SerialConfig) (replay : Rx → List UInt8 → Rx) {s : Rx}
    (hstate : s.parser.state = .payload) (hp : s.parser.Sized cfg)
    (hpos : s.parser.pos < s.parser.len) (ha : s.parser.Admitted cfg) (b : UInt8) :
    StepSpec cfg replay s b := by
  have hle := ha.len_le
  have hset : (s.parser.payload.set s.parser.pos b).take (s.parser.pos + 1)
      = s.parser.payload.take s.parser.pos ++ [b] :=
    take_set_succ (by rw [hp.2]; omega) b
  have hw : s.parser.window ++ [b] = Rdd2.sync0 :: Rdd2.sync1 :: (s.parser.header
      ++ (s.parser.payload.set s.parser.pos b).take (s.parser.pos + 1)) := by
    rw [RxParser.window, hstate, hset]
    simp
  have hj : judge cfg.maxPayload (s.parser.window ++ [b]) = .more := by
    rw [hw, judge_admitted hp ha, List.drop_eq_nil_of_le]
    rw [List.length_take]
    omega
  rw [StepSpec, hj]
  by_cases hend : s.parser.pos + 1 ≥ s.parser.len
  · have hs : rxByteWith cfg replay s b = { s with parser := { s.parser with
        payload := s.parser.payload.set s.parser.pos b, pos := 0, state := .crc } } := by
      simp [rxByteWith, hstate, hend]
    have heq : s.parser.pos + 1 = s.parser.len := by omega
    rw [hs]
    refine .more _ ⟨⟨hp.1, by rw [List.length_set, hp.2], hp.3⟩, Nat.zero_lt_succ _,
      ⟨ha.1, ha.2, ha.3, ha.4⟩⟩ ?_
    rw [hw, heq]
    simp [RxParser.window]
  · have hs : rxByteWith cfg replay s b = { s with parser := { s.parser with
        payload := s.parser.payload.set s.parser.pos b, pos := s.parser.pos + 1 } } := by
      simp [rxByteWith, hstate, hend]
    rw [hs]
    refine .more _ ⟨⟨hp.1, by rw [List.length_set, hp.2], hp.3⟩, ?_⟩ ?_
    · simp only [hstate]
      exact ⟨by omega, ha.1, ha.2, ha.3, ha.4⟩
    · rw [hw, RxParser.window]
      simp only [hstate]

/-- The second checksum byte decides between delivery and a rescan. The
firmware checks header and payload in two calls, the recogniser in one. -/
theorem rxByteWith_crc_last (cfg : SerialConfig) (replay : Rx → List UInt8 → Rx) {s : Rx}
    (hstate : s.parser.state = .crc) (hp : s.parser.Sized cfg) (ha : s.parser.Admitted cfg)
    {b c0 c1 : UInt8} (hlast : ¬ s.parser.pos + 1 < trailerSize)
    (hc : s.parser.crc.set s.parser.pos b = [c0, c1])
    (hw : s.parser.window ++ [b] = Rdd2.sync0 :: Rdd2.sync1 :: (s.parser.header
      ++ (s.parser.payload.take s.parser.len ++ [c0, c1]))) : StepSpec cfg replay s b := by
  have hle := ha.len_le
  have htake : (s.parser.payload.take s.parser.len).length = s.parser.len := by
    rw [List.length_take, hp.2]
    omega
  have hverdict := judge_admitted hp ha (s.parser.payload.take s.parser.len ++ [c0, c1])
  rw [List.drop_left' htake, List.take_left' htake] at hverdict
  have hcrc : cfg.crc16ItuT (cfg.crc16ItuT crcSeed s.parser.header)
      (s.parser.payload.take s.parser.len)
      = crc16CcittFalse (s.parser.header ++ s.parser.payload.take s.parser.len) crcSeed := by
    rw [cfg.crc16ItuT_eq, cfg.crc16ItuT_eq, crc16CcittFalse_append]
  have hj := (congrArg (judge cfg.maxPayload) hw).trans hverdict
  rw [StepSpec, hj]
  by_cases hok : crc16CcittFalse (s.parser.header ++ s.parser.payload.take s.parser.len)
      crcSeed = getLe16 c0 c1
  · have hs : rxByteWith cfg replay s b = { s with
        parser := { s.parser with crc := [c0, c1], pos := 0, state := .sync0 }
        link := acceptFrame cfg s.link ⟨s.parser.topicId, s.parser.header.getD 4 0,
          s.parser.payload.take s.parser.len⟩ } := by
      simp only [rxByteWith, hstate, hc, if_neg hlast, hcrc, List.getD_cons_zero,
        List.getD_cons_succ, if_pos hok, acceptFrame]
      have hsame : ∀ l, rxDeliver cfg
          { s.parser with state := .crc, crc := [c0, c1], pos := s.parser.pos + 1 } l
          = rxDeliver cfg
            { state := .crc
              header := []
              payload := s.parser.payload.take s.parser.len
              pos := 0
              len := (s.parser.payload.take s.parser.len).length
              topicId := s.parser.topicId
              crc := [] } l :=
        rxDeliver_congr cfg rfl htake.symm (List.take_length).symm
      rw [← hsame]
    simp only [if_pos hok, hs]
    exact .accept { s.parser with crc := [c0, c1], pos := 0, state := .sync0 }
      ⟨⟨hp.1, hp.2, rfl⟩, trivial⟩ rfl _ _
  · have hspec := @ByteSpec.fault cfg replay s (s.parser.window ++ [b])
      { s.parser with crc := [c0, c1], pos := s.parser.pos + 1 } ⟨hp.1, hp.2, rfl⟩ .badCrc 2
    have hscan : (s.parser.window ++ [b]).drop 2
        = s.parser.header ++ s.parser.payload.take s.parser.len ++ [c0, c1] := by
      rw [hw]
      simp
    rw [hscan] at hspec
    simp only [if_neg hok]
    simpa [rxByteWith, hstate, hc, hlast, hcrc, hok, RxLink.countFault] using hspec

theorem rxByteWith_crc (cfg : SerialConfig) (replay : Rx → List UInt8 → Rx) {s : Rx}
    (hstate : s.parser.state = .crc) (hp : s.parser.Sized cfg)
    (hpos : s.parser.pos < trailerSize) (ha : s.parser.Admitted cfg) (b : UInt8) :
    StepSpec cfg replay s b := by
  have hset : (s.parser.crc.set s.parser.pos b).take (s.parser.pos + 1)
      = s.parser.crc.take s.parser.pos ++ [b] :=
    take_set_succ (by rw [hp.3]; exact hpos) b
  have hlen : (s.parser.crc.set s.parser.pos b).length = trailerSize := by
    rw [List.length_set, hp.3]
  have hw : s.parser.window ++ [b] = Rdd2.sync0 :: Rdd2.sync1 :: (s.parser.header
      ++ (s.parser.payload.take s.parser.len
        ++ (s.parser.crc.set s.parser.pos b).take (s.parser.pos + 1))) := by
    rw [RxParser.window, hstate, hset]
    simp
  by_cases hmore : s.parser.pos + 1 < trailerSize
  · have hle := ha.len_le
    have htake : (s.parser.payload.take s.parser.len).length = s.parser.len := by
      rw [List.length_take, hp.2]
      omega
    have hj : judge cfg.maxPayload (s.parser.window ++ [b]) = .more := by
      rw [hw, judge_admitted hp ha, List.drop_left' htake]
      have hone : ((s.parser.crc.set s.parser.pos b).take (s.parser.pos + 1)).length < 2 := by
        rw [List.length_take]
        simp only [trailerSize] at hmore
        omega
      revert hone
      rcases (s.parser.crc.set s.parser.pos b).take (s.parser.pos + 1) with _ | ⟨_, _ | ⟨_, _⟩⟩
      any_goals exact fun _ => rfl
      intro hone
      simp only [List.length_cons] at hone
      omega
    have hs : rxByteWith cfg replay s b = { s with parser := { s.parser with
        crc := s.parser.crc.set s.parser.pos b, pos := s.parser.pos + 1 } } := by
      simp [rxByteWith, hstate, hmore]
    rw [StepSpec, hj, hs]
    refine .more _ ⟨⟨hp.1, hp.2, hlen⟩, ?_⟩ ?_
    · simp only [hstate]
      exact ⟨hmore, ha.1, ha.2, ha.3, ha.4⟩
    · rw [hw, RxParser.window]
      simp [hstate]
  · have hfull : (s.parser.crc.set s.parser.pos b).take (s.parser.pos + 1)
        = s.parser.crc.set s.parser.pos b :=
      List.take_of_length_le (by rw [hlen]; omega)
    obtain ⟨c0, c1, hc⟩ : ∃ c0 c1, s.parser.crc.set s.parser.pos b = [c0, c1] :=
      List.length_eq_two.mp hlen
    refine rxByteWith_crc_last cfg replay hstate hp ha hmore hc ?_
    rw [hw, hfull, hc]

theorem rxByteWith_spec (cfg : SerialConfig) (replay : Rx → List UInt8 → Rx) {s : Rx}
    (hwf : s.parser.Wf cfg) (b : UInt8) : StepSpec cfg replay s b := by
  obtain ⟨hp, hstate⟩ := hwf
  cases h : s.parser.state <;> rw [h] at hstate
  case sync0 => exact rxByteWith_sync0 cfg replay h hp b
  case sync1 => exact rxByteWith_sync1 cfg replay h hp b
  case header => exact rxByteWith_header cfg replay h hp hstate b
  case payload => exact rxByteWith_payload cfg replay h hp hstate.1 hstate.2 b
  case crc => exact rxByteWith_crc cfg replay h hp hstate.1 hstate.2 b

/-! ## The link after a stretch of the stream

The link does not see bytes, only the frames and faults found in them. -/

def publication (cfg : SerialConfig) (f : Frame) : Option Publication :=
  match topicById cfg f.topicId with
  | none => none
  | some entry =>
      if entry.rx = false ∨ entry.pub = false then none
      else if f.payload.length ≠ entry.payloadSize then none
      else some ⟨entry, f.payload⟩

/-- `l'` is the link `l` after the frames and faults of `o`. -/
structure LinkAfter (cfg : SerialConfig) (l : RxLink) (o : Out UInt8 Frame RxFault)
    (l' : RxLink) : Prop where
  delivered_eq : l'.log.delivered = l.log.delivered ++ o.frames
  published_eq : l'.log.published = l.log.published ++ o.frames.filterMap (publication cfg)
  rejected_eq : l'.log.rejected = l.log.rejected ++ o.faults
  dropped_eq : l'.log.dropped = l.log.dropped ++ o.dropped
  rxCrcErrors_eq :
    l'.stats.rxCrcErrors = l.stats.rxCrcErrors + UInt32.ofNat (o.faults.count .badCrc)
  of_clean : o.faults = [] → o.dropped = [] → l' = o.frames.foldl (acceptFrame cfg) l

theorem LinkAfter.silent (cfg : SerialConfig) (l : RxLink) (w : List UInt8) :
    LinkAfter cfg l (.silent w) l where
  delivered_eq := (List.append_nil _).symm
  published_eq := (List.append_nil _).symm
  rejected_eq := (List.append_nil _).symm
  dropped_eq := (List.append_nil _).symm
  rxCrcErrors_eq := by simp
  of_clean := fun _ _ => rfl

theorem LinkAfter.andThen {cfg : SerialConfig} {l l' l'' : RxLink}
    {a b : Out UInt8 Frame RxFault} (ha : LinkAfter cfg l a l') (hb : LinkAfter cfg l' b l'') :
    LinkAfter cfg l (a.andThen b) l'' where
  delivered_eq := by simp [hb.delivered_eq, ha.delivered_eq]
  published_eq := by simp [hb.published_eq, ha.published_eq]
  rejected_eq := by simp [hb.rejected_eq, ha.rejected_eq]
  dropped_eq := by simp [hb.dropped_eq, ha.dropped_eq]
  rxCrcErrors_eq := by
    rw [hb.rxCrcErrors_eq, ha.rxCrcErrors_eq, Out.andThen_faults, List.count_append,
      UInt32.ofNat_add, UInt32.add_assoc]
  of_clean := by
    intro hfaults hdropped
    obtain ⟨hfa, hfb⟩ := List.append_eq_nil_iff.mp hfaults
    obtain ⟨hda, hdb⟩ := List.append_eq_nil_iff.mp hdropped
    rw [hb.of_clean hfb hdb, ha.of_clean hfa hda, Out.andThen_frames, List.foldl_append]

theorem rxTrackSequence_log (seq : UInt8) (l : RxLink) : (rxTrackSequence seq l).log = l.log := by
  simp only [rxTrackSequence]
  split <;> rfl

theorem rxTrackSequence_rxCrcErrors (seq : UInt8) (l : RxLink) :
    (rxTrackSequence seq l).stats.rxCrcErrors = l.stats.rxCrcErrors := by
  simp only [rxTrackSequence]
  split <;> rfl

theorem rxDeliver_keeps (cfg : SerialConfig) (p : RxParser) (l : RxLink) :
    (rxDeliver cfg p l).log.delivered = l.log.delivered
      ∧ (rxDeliver cfg p l).log.rejected = l.log.rejected
      ∧ (rxDeliver cfg p l).log.dropped = l.log.dropped
      ∧ (rxDeliver cfg p l).stats.rxCrcErrors = l.stats.rxCrcErrors := by
  simp only [rxDeliver]
  (repeat' split) <;> exact ⟨rfl, rfl, rfl, rfl⟩

/-- `rx_deliver` publishes the payload it was given, and only into an
inbound topic whose message has its length. -/
theorem rxDeliver_published (cfg : SerialConfig) {p : RxParser} {f : Frame}
    (hid : p.topicId = f.topicId) (hlen : p.len = f.payload.length)
    (hpay : p.payload.take p.len = f.payload) (l : RxLink) :
    (rxDeliver cfg p l).log.published = l.log.published ++ (publication cfg f).toList := by
  simp only [rxDeliver, publication, hid]
  cases topicById cfg f.topicId with
  | none => simp
  | some entry =>
      simp only
      split
      · simp
      · rw [hlen] at hpay ⊢
        split
        · simp
        · rw [hpay]
          split <;> simp

theorem LinkAfter.frame (cfg : SerialConfig) (l : RxLink) (f : Frame) :
    LinkAfter cfg l ⟨[f], [], [], []⟩ (acceptFrame cfg l f) where
  delivered_eq := by
    rw [acceptFrame, (rxDeliver_keeps ..).1, rxTrackSequence_log]
  published_eq := by
    rw [acceptFrame, rxDeliver_published cfg rfl rfl List.take_length, rxTrackSequence_log]
    cases h : publication cfg f <;> simp [h]
  rejected_eq := by
    rw [acceptFrame, (rxDeliver_keeps ..).2.1, rxTrackSequence_log, List.append_nil]
  dropped_eq := by
    rw [acceptFrame, (rxDeliver_keeps ..).2.2.1, rxTrackSequence_log, List.append_nil]
  rxCrcErrors_eq := by
    rw [acceptFrame, (rxDeliver_keeps ..).2.2.2, rxTrackSequence_rxCrcErrors]
    simp
  of_clean := fun _ _ => rfl

theorem LinkAfter.countFault (cfg : SerialConfig) (l : RxLink) (e : RxFault) (w : List UInt8) :
    LinkAfter cfg l ((Out.silent w).fault (some e)) (l.countFault e) := by
  cases e with
  | badLength =>
      exact ⟨(List.append_nil _).symm, (List.append_nil _).symm, rfl, (List.append_nil _).symm,
        by simp [RxLink.countFault], by simp⟩
  | badCrc =>
      exact ⟨(List.append_nil _).symm, (List.append_nil _).symm, rfl, (List.append_nil _).symm,
        by simp [RxLink.countFault], by simp⟩

theorem LinkAfter.drop (cfg : SerialConfig) (l : RxLink) (bytes w : List UInt8) :
    LinkAfter cfg l ⟨[], [], w, [bytes]⟩
      { l with log.dropped := l.log.dropped ++ [bytes] } where
  delivered_eq := (List.append_nil _).symm
  published_eq := (List.append_nil _).symm
  rejected_eq := (List.append_nil _).symm
  dropped_eq := rfl
  rxCrcErrors_eq := by simp
  of_clean := by simp

/-! ## Refinement -/

/-- The receiver `s'` is `s` after reading what the reader made `o` of. -/
structure RxAfter (cfg : SerialConfig) (s : Rx) (o : Out UInt8 Frame RxFault) (s' : Rx) :
    Prop where
  wf : s'.parser.Wf cfg
  window_eq : s'.parser.window = o.rest
  replaying_eq : s'.replaying = s.replaying
  link : LinkAfter cfg s.link o s'.link

theorem RxAfter.andThen {cfg : SerialConfig} {s s' s'' : Rx} {a b : Out UInt8 Frame RxFault}
    (ha : RxAfter cfg s a s') (hb : RxAfter cfg s' b s'') : RxAfter cfg s (a.andThen b) s'' :=
  ⟨hb.wf, hb.window_eq, hb.replaying_eq.trans ha.replaying_eq, ha.link.andThen hb.link⟩

/-- A receiver that follows a reader byte by byte, as long as `replaying`
stays `flag`, follows it over a stretch. -/
theorem foldl_refines (cfg : SerialConfig) {byte : Rx → UInt8 → Rx}
    {step : List UInt8 → UInt8 → Out UInt8 Frame RxFault} {flag : Bool}
    (h : ∀ {s : Rx}, s.parser.Wf cfg → s.replaying = flag → ∀ b,
      RxAfter cfg s (step s.parser.window b) (byte s b))
    {s : Rx} (hwf : s.parser.Wf cfg) (hflag : s.replaying = flag) (bs : List UInt8) :
    RxAfter cfg s (run step s.parser.window bs) (bs.foldl byte s) := by
  induction bs generalizing s with
  | nil => exact ⟨hwf, rfl, rfl, .silent cfg s.link _⟩
  | cons b bs ih =>
      have hb := h hwf hflag b
      have hbs := ih hb.wf (hb.replaying_eq.trans hflag)
      rw [hb.window_eq] at hbs
      exact hb.andThen hbs

theorem RxParser.Sized.reset {cfg : SerialConfig} {p : RxParser} (hp : p.Sized cfg) :
    RxParser.Wf cfg { p with state := .sync0, pos := 0 } :=
  ⟨⟨hp.1, hp.2, hp.3⟩, trivial⟩

theorem rxReplay_drops {cfg : SerialConfig} (byte : Rx → UInt8 → Rx) {s : Rx}
    (hp : s.parser.Sized cfg) (hs : s.replaying = true) (bytes : List UInt8) :
    RxAfter cfg s ⟨[], [], [], [bytes]⟩ (rxReplayWith byte s bytes) := by
  have heq : rxReplayWith byte s bytes = { s with
      parser := { s.parser with state := .sync0, pos := 0 }
      link.log.dropped := s.link.log.dropped ++ [bytes] } := by
    simp only [rxReplayWith, hs, if_true]
  rw [heq]
  exact ⟨hp.reset, rfl, rfl, .drop cfg s.link bytes []⟩

/-- Inside a replay the receiver is the nested reader. -/
theorem rxByteNested_refines {cfg : SerialConfig} {s : Rx} (hwf : s.parser.Wf cfg)
    (hs : s.replaying = true) (b : UInt8) :
    RxAfter cfg s (nestedStep (recogniser cfg.maxPayload) s.parser.window b)
      (rxByteNested cfg s b) := by
  have hspec := rxByteWith_spec cfg (rxReplayWith fun s _ => s) hwf b
  simp only [StepSpec] at hspec
  simp only [nestedStep, rxByteNested, recogniser]
  generalize judge cfg.maxPayload (s.parser.window ++ [b]) = verdict at hspec
  generalize rxByteWith cfg (rxReplayWith fun s _ => s) s b = s' at hspec
  cases hspec with
  | more p hp hw => exact ⟨hp, hw, rfl, .silent cfg s.link _⟩
  | accept p hp hw f n => exact ⟨hp, hw, rfl, .frame cfg s.link f⟩
  | skip p hp k hscan =>
      simp only [recogniser] at hscan ⊢
      rw [hscan]
      exact ⟨hp, rfl, rfl, .silent cfg s.link _⟩
  | fault p hp e k =>
      have hdrop := rxReplay_drops (fun s _ => s)
        (s := { s with parser := p, link := s.link.countFault e }) hp hs
        ((s.parser.window ++ [b]).drop k)
      exact ⟨hdrop.wf, hdrop.window_eq, hdrop.replaying_eq,
        (LinkAfter.countFault cfg s.link e []).andThen hdrop.link⟩

/-- `rx_replay` runs the nested reader over the bytes it is given. -/
theorem rxReplay_refines {cfg : SerialConfig} {s : Rx} (hp : s.parser.Sized cfg)
    (hs : s.replaying = false) (bytes : List UInt8) :
    RxAfter cfg s (run (nestedStep (recogniser cfg.maxPayload)) [] bytes)
      (rxReplay cfg s bytes) := by
  have hrun := foldl_refines cfg rxByteNested_refines (s := { s with
    parser := { s.parser with state := .sync0, pos := 0 }
    replaying := true }) hp.reset rfl bytes
  have heq : rxReplay cfg s bytes = { bytes.foldl (rxByteNested cfg) { s with
      parser := { s.parser with state := .sync0, pos := 0 }
      replaying := true } with replaying := false } := by
    simp [rxReplay, rxReplayWith, hs]
  rw [heq]
  exact ⟨hrun.wf, hrun.window_eq, hs.symm, hrun.link⟩

/-- The receiver on the line is the live reader: one level of rescan. -/
theorem rxByte_refines {cfg : SerialConfig} {s : Rx} (hwf : s.parser.Wf cfg)
    (hs : s.replaying = false) (b : UInt8) :
    RxAfter cfg s (liveStep (recogniser cfg.maxPayload) s.parser.window b) (rxByte cfg s b) := by
  have hspec := rxByteWith_spec cfg (rxReplay cfg) hwf b
  simp only [StepSpec] at hspec
  rw [liveStep, rxByte]
  simp only [show (recogniser cfg.maxPayload).judge = judge cfg.maxPayload from rfl]
  generalize judge cfg.maxPayload (s.parser.window ++ [b]) = verdict at hspec
  generalize rxByteWith cfg (rxReplay cfg) s b = s' at hspec
  cases hspec with
  | more p hp hw => exact ⟨hp, hw, rfl, .silent cfg s.link _⟩
  | accept p hp hw f n => exact ⟨hp, hw, rfl, .frame cfg s.link f⟩
  | skip p hp k hscan =>
      simp only
      rw [hscan]
      exact ⟨hp, rfl, rfl, .silent cfg s.link _⟩
  | fault p hp e k =>
      have hreplay := rxReplay_refines
        (s := { s with parser := p, link := s.link.countFault e }) hp hs
        ((s.parser.window ++ [b]).drop k)
      exact ⟨hreplay.wf, hreplay.window_eq, hreplay.replaying_eq,
        (LinkAfter.countFault cfg s.link e []).andThen hreplay.link⟩

theorem rxFeed_refines {cfg : SerialConfig} {s : Rx} (hwf : s.parser.Wf cfg)
    (hs : s.replaying = false) (bytes : List UInt8) :
    RxAfter cfg s (run (liveStep (recogniser cfg.maxPayload)) s.parser.window bytes)
      (rxFeed cfg s bytes) :=
  foldl_refines cfg rxByte_refines hwf hs bytes

theorem rxFeed_rxInit (cfg : SerialConfig) (bytes : List UInt8) :
    RxAfter cfg (rxInit cfg) (run (liveStep (recogniser cfg.maxPayload)) [] bytes)
      (rxFeed cfg (rxInit cfg) bytes) :=
  rxFeed_refines (rxInit_wf cfg) rfl bytes

end Rdd2
