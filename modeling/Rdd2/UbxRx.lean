import Rdd2.UbxFrame

/-!
# The onboard GNSS reader

`rx_byte` and `frame_complete` of `subsys/gnss_source/gnss_onboard.c`: a state
machine over file-scope globals, fed one byte at a time by `gnss_thread`.

The machine never looks at a byte twice. It still reads the stream as the
leftmost scan of `judge` does (`feed_refines`): whatever it gives up, it gives
up whole, so nothing of it is left to look at. The abstraction is `window`,
the bytes of the candidate in progress, put together from the state and the
buffers.

What `publish_nav_pvt` makes of a fix is not looked at here; `Link.published`
has the 92 bytes of every call, and `Link.passed` the frames that got past the
checksum. No branch reads either.
-/

namespace Rdd2.Ubx

open Rescan

/-! ## State -/

inductive RxState where
  | sync1
  | sync2
  | header
  | payload
  | checksum
  deriving DecidableEq, Repr

/-- `CONFIG_RDD2_GNSS_UBX_MAX_PAYLOAD` with its Kconfig range. -/
structure Config where
  maxPayload : Nat
  maxPayload_ge : navPvtSize ≤ maxPayload
  maxPayload_le : maxPayload ≤ 1024

def Config.standard : Config := ⟨128, by decide, by decide⟩

/-- The counters of `struct rdd2_gnss_onboard_stats` that framing writes. -/
structure Stats where
  frames : UInt32 := 0
  otherFrames : UInt32 := 0
  checksumErrors : UInt32 := 0
  badLength : UInt32 := 0
  oversize : UInt32 := 0
  deriving DecidableEq, Repr

/-- What the reader has made of the bytes so far. -/
structure Link where
  stats : Stats := {}
  passed : List Frame := []
  published : List (List UInt8) := []
  deriving DecidableEq, Repr

/-- The reader's globals: `g_state`, the three buffers, the position in the
one being filled, the length of the header, and the counters. -/
structure Rx where
  state : RxState
  header : List UInt8
  payload : List UInt8
  checksum : List UInt8
  pos : Nat
  len : UInt16
  link : Link
  deriving DecidableEq, Repr

def rxInit (cfg : Config) : Rx where
  state := .sync1
  header := List.replicate 4 0
  payload := List.replicate cfg.maxPayload 0
  checksum := List.replicate checksumSize 0
  pos := 0
  len := 0
  link := {}

/-! ## The state machine -/

def Rx.frame (s : Rx) : Frame :=
  ⟨s.header.getD 0 0, s.header.getD 1 0, s.payload.take s.len.toNat,
    take_length_lt s.len s.payload⟩

def publishNavPvt (pvt : List UInt8) (l : Link) : Link :=
  { l with published := l.published ++ [pvt] }

def frameComplete (s : Rx) : Rx :=
  let ck := Ubx.checksum s.header (0, 0)
  let ck := Ubx.checksum (s.payload.take s.len.toNat) ck
  if ck.1 ≠ s.checksum.getD 0 0 ∨ ck.2 ≠ s.checksum.getD 1 0 then
    { s with link.stats.checksumErrors := s.link.stats.checksumErrors + 1 }
  else
    let s := { s with
      link.stats.frames := s.link.stats.frames + 1
      link.passed := s.link.passed ++ [s.frame] }
    if s.header.getD 0 0 ≠ classIdNav ∨ s.header.getD 1 0 ≠ navPvtId then
      { s with link.stats.otherFrames := s.link.stats.otherFrames + 1 }
    else if s.len.toNat ≠ navPvtSize then
      { s with link.stats.badLength := s.link.stats.badLength + 1 }
    else { s with link := publishNavPvt (s.payload.take navPvtSize) s.link }

def rxByte (cfg : Config) (s : Rx) (byte : UInt8) : Rx :=
  match s.state with
  | .sync1 => if byte = syncChar1 then { s with state := .sync2 } else s
  | .sync2 =>
      if byte = syncChar2 then { s with state := .header, pos := 0 }
      else if byte ≠ syncChar1 then { s with state := .sync1 }
      else s
  | .header =>
      let s := { s with header := s.header.set s.pos byte, pos := s.pos + 1 }
      if s.pos < 4 then s
      else
        let s := { s with len := getLe16 (s.header.getD 2 0) (s.header.getD 3 0) }
        if s.len.toNat > cfg.maxPayload then
          -- the position stays behind; the next sync word resets it
          { s with link.stats.oversize := s.link.stats.oversize + 1, state := .sync1 }
        else { s with pos := 0, state := if s.len = 0 then .checksum else .payload }
  | .payload =>
      let s := { s with payload := s.payload.set s.pos byte, pos := s.pos + 1 }
      if s.pos ≥ s.len.toNat then { s with pos := 0, state := .checksum } else s
  | .checksum =>
      let s := { s with checksum := s.checksum.set s.pos byte, pos := s.pos + 1 }
      if s.pos < checksumSize then s
      else { frameComplete s with state := .sync1, pos := 0 }

/-- `gnss_thread`: the bytes of the ring, one after the other. -/
def feed (cfg : Config) (s : Rx) (bytes : List UInt8) : Rx := bytes.foldl (rxByte cfg) s

/-! ## What a stretch of the stream does to the counters -/

def Link.acceptFrame (l : Link) (f : Frame) : Link :=
  let l := { l with stats.frames := l.stats.frames + 1, passed := l.passed ++ [f] }
  if f.cls ≠ classIdNav ∨ f.id ≠ navPvtId then
    { l with stats.otherFrames := l.stats.otherFrames + 1 }
  else if f.payload.length ≠ navPvtSize then
    { l with stats.badLength := l.stats.badLength + 1 }
  else publishNavPvt f.payload l

def Link.countFault (l : Link) : Fault → Link
  | .oversize => { l with stats.oversize := l.stats.oversize + 1 }
  | .checksum => { l with stats.checksumErrors := l.stats.checksumErrors + 1 }

def Link.after (l : Link) (out : Out UInt8 Frame Fault) : Link :=
  out.faults.foldl Link.countFault (out.frames.foldl Link.acceptFrame l)

theorem Link.acceptFrame_countFault (l : Link) (f : Frame) (e : Fault) :
    (l.acceptFrame f).countFault e = (l.countFault e).acceptFrame f := by
  cases e <;> simp only [acceptFrame, countFault] <;> split_ifs <;> rfl

/-- A frame and a fault are counted in different places, so their order does
not show. -/
theorem Link.frames_faults_comm (l : Link) (fs : List Frame) (es : List Fault) :
    fs.foldl acceptFrame (es.foldl countFault l) = es.foldl countFault (fs.foldl acceptFrame l) := by
  refine List.foldl_hom (fun l => es.foldl countFault l) fun l f => ?_
  exact (List.foldl_hom (fun l => acceptFrame l f)
    fun l e => (acceptFrame_countFault l f e)).symm

theorem Link.after_andThen (l : Link) (a b : Out UInt8 Frame Fault) :
    l.after (a.andThen b) = (l.after a).after b := by
  simp only [after, Out.andThen_faults, Out.andThen_frames, List.foldl_append,
    frames_faults_comm]

theorem Link.passed_acceptFrame (l : Link) (f : Frame) :
    (l.acceptFrame f).passed = l.passed ++ [f] := by
  simp only [acceptFrame]
  split_ifs <;> rfl

theorem Link.published_acceptFrame (l : Link) (f : Frame) :
    (l.acceptFrame f).published = l.published ++ if f.IsNavPvt then [f.payload] else [] := by
  by_cases hother : f.cls ≠ classIdNav ∨ f.id ≠ navPvtId
  · have hnot : ¬ f.IsNavPvt := fun h => hother.elim (· h.1) (· h.2.1)
    simp [acceptFrame, hother, hnot]
  · obtain ⟨hcls, hid⟩ := not_or.mp hother
    by_cases hlen : f.payload.length = navPvtSize
    · have hpvt : f.IsNavPvt := ⟨not_not.mp hcls, not_not.mp hid, hlen⟩
      simp [acceptFrame, hother, hlen, hpvt, publishNavPvt]
    · have hnot : ¬ f.IsNavPvt := fun h => hlen h.2.2
      simp [acceptFrame, hother, hlen, hnot]

theorem Link.foldl_countFault (l : Link) (es : List Fault) :
    (es.foldl countFault l).published = l.published ∧ (es.foldl countFault l).passed = l.passed := by
  induction es generalizing l with
  | nil => exact ⟨rfl, rfl⟩
  | cons e es ih =>
      obtain ⟨hpublished, hpassed⟩ := ih (l.countFault e)
      rw [List.foldl_cons, hpublished, hpassed]
      cases e <;> exact ⟨rfl, rfl⟩

theorem Link.passed_after (l : Link) (out : Out UInt8 Frame Fault) :
    (l.after out).passed = l.passed ++ out.frames := by
  rw [after, (foldl_countFault _ _).2]
  generalize out.frames = fs
  induction fs generalizing l with
  | nil => simp
  | cons f fs ih =>
      rw [List.foldl_cons, ih, passed_acceptFrame]
      simp

/-- The calls of `publish_nav_pvt` are those for the NAV-PVT frames, each with
its payload. -/
theorem Link.published_after (l : Link) (out : Out UInt8 Frame Fault) :
    (l.after out).published = l.published ++ (out.frames.filter (·.IsNavPvt)).map (·.payload) := by
  rw [after, (foldl_countFault _ _).1]
  generalize out.frames = fs
  induction fs generalizing l with
  | nil => simp
  | cons f fs ih =>
      rw [List.foldl_cons, ih, published_acceptFrame]
      by_cases hf : f.IsNavPvt <;> simp [hf]

/-! ## The abstraction -/

/-- The bytes of the candidate in progress, sync word included. -/
def Rx.window (s : Rx) : List UInt8 :=
  match s.state with
  | .sync1 => []
  | .sync2 => [syncChar1]
  | .header => syncChar1 :: syncChar2 :: s.header.take s.pos
  | .payload => syncChar1 :: syncChar2 :: (s.header ++ s.payload.take s.pos)
  | .checksum =>
      syncChar1 :: syncChar2
        :: (s.header ++ (s.payload.take s.len.toNat ++ s.checksum.take s.pos))

structure Rx.Sized (cfg : Config) (s : Rx) : Prop where
  header_length : s.header.length = 4
  payload_length : s.payload.length = cfg.maxPayload
  checksum_length : s.checksum.length = checksumSize

/-- `g_len` is that of the stored header, and the payload fits. -/
structure Rx.Admitted (cfg : Config) (s : Rx) : Prop where
  len_eq : s.len = getLe16 (s.header.getD 2 0) (s.header.getD 3 0)
  len_le : s.len.toNat ≤ cfg.maxPayload

def Rx.Wf (cfg : Config) (s : Rx) : Prop :=
  s.Sized cfg ∧
    match s.state with
    | .sync1 => True
    | .sync2 => True
    | .header => s.pos < 4
    | .payload => s.pos < s.len.toNat ∧ s.Admitted cfg
    | .checksum => s.pos < checksumSize ∧ s.Admitted cfg

theorem rxInit_wf (cfg : Config) : (rxInit cfg).Wf cfg :=
  ⟨⟨List.length_replicate, List.length_replicate, List.length_replicate⟩, trivial⟩

/-- A reader that has seen one more byte, by the scan of its window and the
byte. -/
structure Scanned (cfg : Config) (s : Rx) (byte : UInt8) (s' : Rx) : Prop where
  wf : s'.Wf cfg
  window : s'.window = (scan (recogniser cfg.maxPayload) (s.window ++ [byte])).rest
  link : s'.link = s.link.after (scan (recogniser cfg.maxPayload) (s.window ++ [byte]))

theorem Scanned.of_more {cfg : Config} {s s' : Rx} {b : UInt8}
    (hj : judge cfg.maxPayload (s.window ++ [b]) = .more) (hwf : s'.Wf cfg)
    (hwindow : s'.window = s.window ++ [b]) (hlink : s'.link = s.link) : Scanned cfg s b s' := by
  have hscan := scan_of_more (recogniser cfg.maxPayload) hj
  exact ⟨hwf, by rw [hscan, hwindow]; rfl, by rw [hscan, hlink]; rfl⟩

/-- A byte that skips to `out`. -/
theorem Scanned.of_scan {cfg : Config} {s s' : Rx} {b : UInt8} {out : Out UInt8 Frame Fault}
    (hscan : scan (recogniser cfg.maxPayload) (s.window ++ [b]) = out) (hwf : s'.Wf cfg)
    (hwindow : s'.window = out.rest) (hlink : s'.link = s.link.after out) :
    Scanned cfg s b s' := by
  subst hscan
  exact ⟨hwf, hwindow, hlink⟩

theorem rxByte_sync1 (cfg : Config) {s : Rx} (hstate : s.state = .sync1) (hs : s.Sized cfg)
    (b : UInt8) : Scanned cfg s b (rxByte cfg s b) := by
  have hw : s.window = [] := by rw [Rx.window, hstate]
  by_cases hb : b = syncChar1
  · have hnext : rxByte cfg s b = { s with state := .sync2 } := by simp [rxByte, hstate, hb]
    rw [hnext]
    refine .of_more ?_ ⟨⟨hs.1, hs.2, hs.3⟩, trivial⟩ ?_ rfl
    · simp [hw, judge, hb]
    · rw [hw, hb]
      rfl
  · have hnext : rxByte cfg s b = s := by simp [rxByte, hstate, hb]
    have hj : judge cfg.maxPayload [b] = .reject none 1 := by simp [judge, hb]
    have hscan : scan (recogniser cfg.maxPayload) (s.window ++ [b]) = .silent [] := by
      rw [hw, List.nil_append, scan_of_reject _ hj]
      exact scan_nil (recogniser cfg.maxPayload)
    rw [hnext]
    exact .of_scan hscan ⟨hs, by rw [hstate]; trivial⟩ hw rfl

theorem rxByte_sync2 (cfg : Config) {s : Rx} (hstate : s.state = .sync2) (hs : s.Sized cfg)
    (b : UInt8) : Scanned cfg s b (rxByte cfg s b) := by
  have hw : s.window = [syncChar1] := by rw [Rx.window, hstate]
  by_cases h2 : b = syncChar2
  · have hnext : rxByte cfg s b = { s with state := .header, pos := 0 } := by
      simp [rxByte, hstate, h2]
    rw [hnext]
    refine .of_more ?_ ⟨⟨hs.1, hs.2, hs.3⟩, Nat.zero_lt_succ _⟩ ?_ rfl
    · simp [hw, judge, h2, judgeBody]
    · rw [hw, h2]
      rfl
  · have hj : judge cfg.maxPayload [syncChar1, b] = .reject none 1 := by simp [judge, h2]
    by_cases h1 : b = syncChar1
    · have hnext : rxByte cfg s b = s := by
        have hne : syncChar1 ≠ syncChar2 := by decide
        simp [rxByte, hstate, h1, hne]
      have hmore : judge cfg.maxPayload [b] = .more := by simp [judge, h1]
      have hscan : scan (recogniser cfg.maxPayload) (s.window ++ [b]) = .silent [b] := by
        rw [hw, List.singleton_append, scan_of_reject _ hj, Out.fault_none]
        exact scan_of_more _ hmore
      rw [hnext]
      exact .of_scan hscan ⟨hs, by rw [hstate]; trivial⟩ (by rw [hw, h1]; rfl) rfl
    · have hnext : rxByte cfg s b = { s with state := .sync1 } := by
        simp [rxByte, hstate, h1, h2]
      have hskip : judge cfg.maxPayload [b] = .reject none 1 := by simp [judge, h1]
      have hscan : scan (recogniser cfg.maxPayload) (s.window ++ [b]) = .silent [] := by
        rw [hw, List.singleton_append, scan_of_reject _ hj, Out.fault_none, List.drop_one,
          List.tail_cons, scan_of_reject _ hskip]
        exact scan_nil (recogniser cfg.maxPayload)
      rw [hnext]
      exact .of_scan hscan ⟨⟨hs.1, hs.2, hs.3⟩, trivial⟩ rfl rfl

theorem header_cases {header : List UInt8} (h : header.length = 4) :
    ∃ cls id l0 l1, header = [cls, id, l0, l1] := by
  match header, h with
  | [cls, id, l0, l1], _ => exact ⟨cls, id, l0, l1, rfl⟩

/-- The header's last byte decides on the length. -/
theorem rxByte_header_last (cfg : Config) {s : Rx} (hstate : s.state = .header)
    (hs : s.Sized cfg) {b cls id l0 l1 : UInt8} (hlast : ¬ s.pos + 1 < 4)
    (hheader : s.header.set s.pos b = [cls, id, l0, l1])
    (hcand : s.window ++ [b] = candidate cls id l0 l1 []) :
    Scanned cfg s b (rxByte cfg s b) := by
  by_cases hbig : cfg.maxPayload < (getLe16 l0 l1).toNat
  · have hnext : rxByte cfg s b = { s with
        header := [cls, id, l0, l1]
        pos := s.pos + 1
        len := getLe16 l0 l1
        link.stats.oversize := s.link.stats.oversize + 1
        state := .sync1 } := by
      simp [rxByte, hstate, hlast, hheader, hbig]
    have hj : judge cfg.maxPayload (candidate cls id l0 l1 [])
        = .reject (some .oversize) headerSize :=
      (Reading.oversize cls id l0 l1 [] hbig).judge_eq
    have hscan : scan (recogniser cfg.maxPayload) (s.window ++ [b])
        = (Out.silent []).fault (some .oversize) := by
      rw [hcand, scan_of_reject _ hj]
      exact congrArg _ (scan_nil (recogniser cfg.maxPayload))
    rw [hnext]
    exact .of_scan hscan ⟨⟨rfl, hs.2, hs.3⟩, trivial⟩ rfl rfl
  · have hadmitted : (getLe16 l0 l1).toNat ≤ cfg.maxPayload := by omega
    have hj : judge cfg.maxPayload (s.window ++ [b]) = .more := by
      rw [hcand]
      refine judge_candidate_more cls id l0 l1 hadmitted ?_
      simp [checksumSize]
    have hnext : rxByte cfg s b = { s with
        header := [cls, id, l0, l1]
        len := getLe16 l0 l1
        pos := 0
        state := if getLe16 l0 l1 = 0 then .checksum else .payload } := by
      simp [rxByte, hstate, hlast, hheader, hbig]
    rw [hnext]
    by_cases hzero : getLe16 l0 l1 = 0
    · refine .of_more hj ⟨⟨rfl, hs.2, hs.3⟩, ?_⟩ ?_ rfl
      · simp only [hzero, if_true]
        exact ⟨Nat.zero_lt_succ _, hzero.symm, Nat.zero_le _⟩
      · rw [hcand]
        simp [Rx.window, hzero, candidate]
    · refine .of_more hj ⟨⟨rfl, hs.2, hs.3⟩, ?_⟩ ?_ rfl
      · simp only [hzero, if_false]
        refine ⟨?_, rfl, hadmitted⟩
        rw [Nat.pos_iff_ne_zero]
        exact fun h => hzero (UInt16.toNat_inj.mp h)
      · rw [hcand]
        simp [Rx.window, hzero, candidate]

/-- Until then the candidate grows. -/
theorem rxByte_header (cfg : Config) {s : Rx} (hstate : s.state = .header) (hs : s.Sized cfg)
    (hpos : s.pos < 4) (b : UInt8) : Scanned cfg s b (rxByte cfg s b) := by
  have hset : (s.header.set s.pos b).take (s.pos + 1) = s.header.take s.pos ++ [b] :=
    take_set_succ (by rw [hs.1]; exact hpos) b
  have hw : s.window ++ [b]
      = syncChar1 :: syncChar2 :: (s.header.set s.pos b).take (s.pos + 1) := by
    rw [Rx.window, hstate, hset]
    rfl
  have hlen : (s.header.set s.pos b).length = 4 := by rw [List.length_set, hs.1]
  by_cases hmore : s.pos + 1 < 4
  · have hnext : rxByte cfg s b
        = { s with header := s.header.set s.pos b, pos := s.pos + 1 } := by
      simp [rxByte, hstate, hmore]
    rw [hnext]
    refine .of_more ?_ ⟨⟨hlen, hs.2, hs.3⟩, by simp only [hstate]; exact hmore⟩ ?_ rfl
    · rw [hw]
      have hshort : ((s.header.set s.pos b).take (s.pos + 1)).length < 4 := by
        rw [List.length_take, hlen]
        omega
      match (s.header.set s.pos b).take (s.pos + 1), hshort with
      | [_, _, _], _ | [_, _], _ | [_], _ | [], _ => simp [judge, judgeBody]
    · rw [hw, Rx.window]
      simp only [hstate]
  · have hfull : (s.header.set s.pos b).take (s.pos + 1) = s.header.set s.pos b :=
      List.take_of_length_le (by rw [hlen]; omega)
    obtain ⟨cls, id, l0, l1, hheader⟩ := header_cases hlen
    refine rxByte_header_last cfg hstate hs hmore hheader ?_
    rw [hw, hfull, hheader]
    rfl

theorem rxByte_payload (cfg : Config) {s : Rx} (hstate : s.state = .payload) (hs : s.Sized cfg)
    (hpos : s.pos < s.len.toNat) (ha : s.Admitted cfg) (b : UInt8) :
    Scanned cfg s b (rxByte cfg s b) := by
  obtain ⟨hlen, hle⟩ := ha
  have hset : (s.payload.set s.pos b).take (s.pos + 1) = s.payload.take s.pos ++ [b] :=
    take_set_succ (by rw [hs.2]; omega) b
  have hw : s.window ++ [b]
      = syncChar1 :: syncChar2 :: (s.header ++ (s.payload.set s.pos b).take (s.pos + 1)) := by
    rw [Rx.window, hstate, hset]
    simp
  have hj : judge cfg.maxPayload (s.window ++ [b]) = .more := by
    obtain ⟨cls, id, l0, l1, hheader⟩ := header_cases hs.1
    rw [hheader] at hlen hw
    simp only [List.getD_cons_zero, List.getD_cons_succ] at hlen
    rw [hw]
    simp only [List.cons_append, List.nil_append]
    refine judge_candidate_more cls id l0 l1 (hlen ▸ hle) ?_
    rw [List.length_take, ← hlen, checksumSize]
    omega
  have hset_length : (s.payload.set s.pos b).length = cfg.maxPayload := by
    rw [List.length_set, hs.2]
  by_cases hend : s.pos + 1 ≥ s.len.toNat
  · have hnext : rxByte cfg s b
        = { s with payload := s.payload.set s.pos b, pos := 0, state := .checksum } := by
      simp [rxByte, hstate, hend]
    have heq : s.pos + 1 = s.len.toNat := by omega
    rw [hnext]
    refine .of_more hj ⟨⟨hs.1, hset_length, hs.3⟩, Nat.zero_lt_succ _, hlen, hle⟩ ?_ rfl
    rw [hw, heq]
    simp [Rx.window]
  · have hnext : rxByte cfg s b
        = { s with payload := s.payload.set s.pos b, pos := s.pos + 1 } := by
      simp [rxByte, hstate, hend]
    rw [hnext]
    refine .of_more hj ⟨⟨hs.1, hset_length, hs.3⟩, ?_⟩ ?_ rfl
    · simp only [hstate]
      exact ⟨by omega, hlen, hle⟩
    · rw [hw, Rx.window]
      simp only [hstate]

theorem frameComplete_eq {s : Rx} {cls id l0 l1 ckA ckB : UInt8}
    (hheader : s.header = [cls, id, l0, l1]) (hchecksum : s.checksum = [ckA, ckB])
    (hlen : (s.payload.take s.len.toNat).length = s.len.toNat) :
    frameComplete s =
      if Ubx.checksum ([cls, id, l0, l1] ++ s.payload.take s.len.toNat) (0, 0) = (ckA, ckB)
      then { s with link := s.link.acceptFrame ⟨cls, id, s.payload.take s.len.toNat,
        take_length_lt s.len s.payload⟩ }
      else { s with link := s.link.countFault .checksum } := by
  rw [checksum_append]
  by_cases hsum : Ubx.checksum (s.payload.take s.len.toNat)
      (Ubx.checksum [cls, id, l0, l1] (0, 0)) = (ckA, ckB)
  · have hpass : Rx.frame s = ⟨cls, id, s.payload.take s.len.toNat,
        take_length_lt s.len s.payload⟩ := by
      simp [Rx.frame, hheader]
    rw [if_pos hsum]
    simp only [frameComplete, hheader, hchecksum, hsum, List.getD_cons_zero,
      List.getD_cons_succ, ne_eq, not_true_eq_false, or_self, if_false, hpass, Link.acceptFrame,
      hlen]
    split_ifs with hother hsize
    · rfl
    · rw [← hsize]
    · rfl
  · have hfail : ¬ ((Ubx.checksum (s.payload.take s.len.toNat)
        (Ubx.checksum [cls, id, l0, l1] (0, 0))).1 = ckA
          ∧ (Ubx.checksum (s.payload.take s.len.toNat)
            (Ubx.checksum [cls, id, l0, l1] (0, 0))).2 = ckB) :=
      fun h => hsum (Prod.ext h.1 h.2)
    rw [if_neg hsum]
    simp only [frameComplete, hheader, hchecksum, List.getD_cons_zero, List.getD_cons_succ,
      ne_eq, if_pos (not_and_or.mp hfail)]
    rfl

/-- The last checksum byte decides, one way or the other. -/
theorem rxByte_checksum (cfg : Config) {s : Rx} (hstate : s.state = .checksum)
    (hs : s.Sized cfg) (hpos : s.pos < checksumSize) (ha : s.Admitted cfg) (b : UInt8) :
    Scanned cfg s b (rxByte cfg s b) := by
  obtain ⟨hlen, hle⟩ := ha
  have htake : (s.payload.take s.len.toNat).length = s.len.toNat := by
    rw [List.length_take, hs.2]
    omega
  have hset : (s.checksum.set s.pos b).take (s.pos + 1) = s.checksum.take s.pos ++ [b] :=
    take_set_succ (by rw [hs.3]; exact hpos) b
  have hset_length : (s.checksum.set s.pos b).length = checksumSize := by
    rw [List.length_set, hs.3]
  obtain ⟨cls, id, l0, l1, hheader⟩ := header_cases hs.1
  have hfield : s.len = getLe16 l0 l1 := by rw [hlen, hheader]; rfl
  have hw : s.window ++ [b] = candidate cls id l0 l1
      (s.payload.take s.len.toNat ++ (s.checksum.set s.pos b).take (s.pos + 1)) := by
    rw [Rx.window, hstate, hset, hheader]
    simp [candidate]
  by_cases hmore : s.pos + 1 < checksumSize
  · have hnext : rxByte cfg s b
        = { s with checksum := s.checksum.set s.pos b, pos := s.pos + 1 } := by
      simp [rxByte, hstate, hmore]
    rw [hnext]
    refine .of_more ?_ ⟨⟨hs.1, hs.2, hset_length⟩, ?_⟩ ?_ rfl
    · rw [hw]
      refine judge_candidate_more cls id l0 l1 (hfield ▸ hle) ?_
      rw [List.length_append, htake, ← hfield, List.length_take]
      omega
    · simp only [hstate]
      exact ⟨hmore, hlen, hle⟩
    · rw [hw, Rx.window]
      simp only [hstate, hheader]
      rfl
  · have hfull : (s.checksum.set s.pos b).take (s.pos + 1) = s.checksum.set s.pos b :=
      List.take_of_length_le (by rw [hset_length]; omega)
    obtain ⟨ckA, ckB, hck⟩ : ∃ ckA ckB, s.checksum.set s.pos b = [ckA, ckB] :=
      List.length_eq_two.mp hset_length
    have hj := judge_candidate cls id l0 l1 (htake.trans (congrArg _ hfield))
      (htake.trans_le hle) (take_length_lt s.len s.payload) ckA ckB []
    rw [hfull, hck] at hw
    have hnext : rxByte cfg s b = { frameComplete { s with
        checksum := [ckA, ckB], pos := s.pos + 1 } with state := .sync1, pos := 0 } := by
      simp [rxByte, hstate, hmore, hck]
    have heq := frameComplete_eq (s := { s with checksum := [ckA, ckB], pos := s.pos + 1 })
      hheader rfl htake
    simp only at heq
    rw [hnext, heq]
    have hdrop : (candidate cls id l0 l1 (s.payload.take s.len.toNat ++ [ckA, ckB])).drop
        (headerSize + (s.payload.take s.len.toNat).length + checksumSize) = [] := by
      refine List.drop_eq_nil_of_le ?_
      simp [candidate, headerSize, checksumSize]
      omega
    split_ifs at hj ⊢ with hsum
    · have hscan : scan (recogniser cfg.maxPayload) (s.window ++ [b])
          = ⟨[⟨cls, id, s.payload.take s.len.toNat, take_length_lt s.len s.payload⟩],
            [], [], []⟩ := by
        rw [hw, scan_of_accept _ hj, hdrop, scan_nil]
        rfl
      exact .of_scan hscan ⟨⟨hs.1, hs.2, rfl⟩, trivial⟩ rfl rfl
    · have hscan : scan (recogniser cfg.maxPayload) (s.window ++ [b])
          = (Out.silent []).fault (some .checksum) := by
        rw [hw, scan_of_reject _ hj, hdrop]
        exact congrArg _ (scan_nil (recogniser cfg.maxPayload))
      exact .of_scan hscan ⟨⟨hs.1, hs.2, rfl⟩, trivial⟩ rfl rfl

/-! ## The reader is the scan -/

theorem rxByte_scanned (cfg : Config) {s : Rx} (h : s.Wf cfg) (b : UInt8) :
    Scanned cfg s b (rxByte cfg s b) := by
  obtain ⟨hs, hstate⟩ := h
  cases hst : s.state with
  | sync1 => exact rxByte_sync1 cfg hst hs b
  | sync2 => exact rxByte_sync2 cfg hst hs b
  | header =>
      rw [hst] at hstate
      exact rxByte_header cfg hst hs hstate b
  | payload =>
      rw [hst] at hstate
      exact rxByte_payload cfg hst hs hstate.1 hstate.2 b
  | checksum =>
      rw [hst] at hstate
      exact rxByte_checksum cfg hst hs hstate.1 hstate.2 b

/-- The candidate in progress is always an undecided one. -/
def Rx.Pending (cfg : Config) (s : Rx) : Prop :=
  s.Wf cfg ∧ judge cfg.maxPayload s.window = .more

theorem rxInit_pending (cfg : Config) : (rxInit cfg).Pending cfg := ⟨rxInit_wf cfg, rfl⟩

/-- Feeding a stretch of the stream is scanning it behind the window: the
candidate left over, the counters and the calls are those of the scan. -/
theorem feed_refines (cfg : Config) {s : Rx} (h : s.Pending cfg) (bytes : List UInt8) :
    (feed cfg s bytes).Pending cfg ∧
    (feed cfg s bytes).window = (scan (recogniser cfg.maxPayload) (s.window ++ bytes)).rest ∧
    (feed cfg s bytes).link
      = s.link.after (scan (recogniser cfg.maxPayload) (s.window ++ bytes)) := by
  induction bytes generalizing s with
  | nil =>
      have hscan := scan_of_more (recogniser cfg.maxPayload) (w := s.window) h.2
      rw [List.append_nil, hscan]
      exact ⟨h, rfl, rfl⟩
  | cons b bytes ih =>
      have hstep := rxByte_scanned cfg h.1 b
      have hnext : (rxByte cfg s b).Pending cfg :=
        ⟨hstep.wf, by rw [hstep.window]; exact judge_scan_rest (recogniser cfg.maxPayload) _⟩
      obtain ⟨hpending, hwindow, hlink⟩ := ih hnext
      have happ : s.window ++ b :: bytes = (s.window ++ [b]) ++ bytes := by simp
      have hfeed : feed cfg s (b :: bytes) = feed cfg (rxByte cfg s b) bytes := rfl
      rw [happ, scan_append, hfeed, ← hstep.window]
      refine ⟨hpending, hwindow, ?_⟩
      rw [hlink, hstep.link, Link.after_andThen]

end Rdd2.Ubx
