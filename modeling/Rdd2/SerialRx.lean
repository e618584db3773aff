import Rdd2.SerialFrame

/-!
# The firmware receiver

`rx_byte` and what it calls in `subsys/zros_serial/zros_serial.c`: a state
machine over file-scope globals, fed one byte at a time, that rescans a
rejected candidate by calling itself.

`rx_byte` and `rx_replay` are mutually recursive in the source, and the
`replaying` flag is what bounds the recursion. Each is written here with
the callee as an argument (`rxByteWith`, `rxReplayWith`) and the knot is
tied two levels deep; `rxByte_fix` is the source's recursive equation,
which shows that two levels are all there are.

`RxLog` records what the receiver did. No branch reads it.
-/

namespace Rdd2

/-! ## State -/

inductive RxState where
  | sync0
  | sync1
  | header
  | payload
  | crc
  deriving DecidableEq, Repr

/-- The receive frame assembly: `g_rx_state`, the three buffers, and what
is known of the candidate in progress. -/
structure RxParser where
  state : RxState
  header : List UInt8
  payload : List UInt8
  pos : Nat
  len : Nat
  topicId : UInt16
  crc : List UInt8
  deriving DecidableEq, Repr

/-- A call of `zros_pub_update`: the entry, and what `entry->msg` held. -/
structure Publication where
  entry : SerialTopic
  msg : List UInt8
  deriving DecidableEq, Repr

/-- The history of a receiver: the frames `rx_deliver` was called for, the
calls of `zros_pub_update`, why candidates were rejected, and the bytes of
those rejected while a replay was in progress. -/
structure RxLog where
  delivered : List Frame := []
  published : List Publication := []
  rejected : List RxFault := []
  dropped : List (List UInt8) := []
  deriving DecidableEq, Repr

/-- What a received frame can change: the counters, the statics of
`rx_track_sequence`, and the messages of the inbound entries by topic id. -/
structure RxLink where
  stats : SerialStats := {}
  haveLast : Bool := false
  lastSeq : UInt8 := 0
  msg : UInt16 → List UInt8 := fun _ => []
  log : RxLog := {}

structure Rx where
  parser : RxParser
  link : RxLink
  replaying : Bool

def rxInit (cfg : SerialConfig) : Rx where
  parser :=
    { state := .sync0
      header := List.replicate headerTail 0
      payload := List.replicate cfg.maxPayload 0
      pos := 0
      len := 0
      topicId := 0
      crc := List.replicate trailerSize 0 }
  link := {}
  replaying := false

/-! ## A frame that passed its checksum -/

def topicById (cfg : SerialConfig) (id : UInt16) : Option SerialTopic :=
  cfg.topics.find? fun entry => entry.id = id

def rxDeliver (cfg : SerialConfig) (p : RxParser) (l : RxLink) : RxLink :=
  match topicById cfg p.topicId with
  | none => { l with stats.rxUnknownTopic := l.stats.rxUnknownTopic + 1 }
  | some entry =>
      if entry.rx = false ∨ entry.pub = false then
        { l with stats.rxWrongDirection := l.stats.rxWrongDirection + 1 }
      else if p.len ≠ entry.payloadSize then
        { l with stats.rxBadLength := l.stats.rxBadLength + 1 }
      else
        let msg := Function.update l.msg entry.id (p.payload.take p.len)
        let rc := cfg.pubUpdate l.log.published.length
        let publication : Publication := ⟨entry, msg entry.id⟩
        let l := { l with
          msg := msg
          log.published := l.log.published ++ [publication] }
        if rc ≠ 0 then { l with stats.rxBadLength := l.stats.rxBadLength + 1 }
        else { l with stats.rxFrames := l.stats.rxFrames + 1 }

def rxTrackSequence (seq : UInt8) (l : RxLink) : RxLink :=
  let l :=
    if l.haveLast ∧ seq ≠ l.lastSeq + 1 then
      { l with stats.rxSeqGaps := l.stats.rxSeqGaps + 1 }
    else l
  { l with lastSeq := seq, haveLast := true }

/-! ## The state machine -/

/-- `rx_byte`, with `rx_replay` as an argument. -/
def rxByteWith (cfg : SerialConfig) (rxReplay : Rx → List UInt8 → Rx) (s : Rx) (byte : UInt8) :
    Rx :=
  let p := s.parser
  match p.state with
  | .sync0 =>
      if byte = Rdd2.sync0 then { s with parser.state := .sync1 } else s
  | .sync1 =>
      if byte = Rdd2.sync1 then { s with parser.state := .header, parser.pos := 0 }
      else if byte ≠ Rdd2.sync0 then { s with parser.state := .sync0 }
      else s
  | .header =>
      let p := { p with header := p.header.set p.pos byte, pos := p.pos + 1 }
      if p.pos < headerTail then { s with parser := p }
      else
        let p := { p with
          len := (getLe16 (p.header.getD 0 0) (p.header.getD 1 0)).toNat
          topicId := getLe16 (p.header.getD 2 0) (p.header.getD 3 0) }
        if p.len = 0 ∨ p.len > cfg.maxPayload then
          let s := { s with
            parser := p
            link.stats.rxBadLength := s.link.stats.rxBadLength + 1
            link.log.rejected := s.link.log.rejected ++ [.badLength] }
          rxReplay s p.header
        else { s with parser := { p with pos := 0, state := .payload } }
  | .payload =>
      let p := { p with payload := p.payload.set p.pos byte, pos := p.pos + 1 }
      if p.pos ≥ p.len then { s with parser := { p with pos := 0, state := .crc } }
      else { s with parser := p }
  | .crc =>
      let p := { p with crc := p.crc.set p.pos byte, pos := p.pos + 1 }
      if p.pos < trailerSize then { s with parser := p }
      else
        let crc := cfg.crc16ItuT crcSeed p.header
        let crc := cfg.crc16ItuT crc (p.payload.take p.len)
        if crc = getLe16 (p.crc.getD 0 0) (p.crc.getD 1 0) then
          let frame : Frame := ⟨p.topicId, p.header.getD 4 0, p.payload.take p.len⟩
          let l := { s.link with log.delivered := s.link.log.delivered ++ [frame] }
          let l := rxDeliver cfg p (rxTrackSequence (p.header.getD 4 0) l)
          { s with parser := { p with state := .sync0, pos := 0 }, link := l }
        else
          let s := { s with
            parser := p
            link.stats.rxCrcErrors := s.link.stats.rxCrcErrors + 1
            link.log.rejected := s.link.log.rejected ++ [.badCrc] }
          rxReplay s (p.header ++ p.payload.take p.len ++ p.crc)

/-- `rx_replay`, with `rx_byte` as an argument. -/
def rxReplayWith (rxByte : Rx → UInt8 → Rx) (s : Rx) (bytes : List UInt8) : Rx :=
  let s := { s with parser.state := .sync0, parser.pos := 0 }
  if s.replaying then { s with link.log.dropped := s.link.log.dropped ++ [bytes] }
  else
    let s := bytes.foldl rxByte { s with replaying := true }
    { s with replaying := false }

/-- `rx_byte` as a replay calls it. Its own calls of `rx_replay` find
`replaying` set and return, so what they would call does not matter. -/
def rxByteNested (cfg : SerialConfig) : Rx → UInt8 → Rx :=
  rxByteWith cfg (rxReplayWith fun s _ => s)

def rxReplay (cfg : SerialConfig) : Rx → List UInt8 → Rx := rxReplayWith (rxByteNested cfg)

def rxByte (cfg : SerialConfig) : Rx → UInt8 → Rx := rxByteWith cfg (rxReplay cfg)

/-- Bytes from the line, one after the other: the loop of `rx_drain`. -/
def rxFeed (cfg : SerialConfig) (s : Rx) (bytes : List UInt8) : Rx :=
  bytes.foldl (rxByte cfg) s

/-! ## The source's recursive equation -/

theorem rxByteWith_replaying (cfg : SerialConfig) {replay : Rx → List UInt8 → Rx}
    (h : ∀ s bytes, (replay s bytes).replaying = s.replaying) (s : Rx) (byte : UInt8) :
    (rxByteWith cfg replay s byte).replaying = s.replaying := by
  simp only [rxByteWith]
  split <;> (repeat' split) <;> first | rfl | exact h _ _

theorem rxReplayWith_replaying (rxByte : Rx → UInt8 → Rx) (s : Rx) (bytes : List UInt8) :
    (rxReplayWith rxByte s bytes).replaying = s.replaying := by
  simp only [rxReplayWith]
  split
  · rfl
  · simp_all

/-- With the flag set, `rx_replay` does not get to its loop. -/
theorem rxReplayWith_of_replaying {rxByte rxByte' : Rx → UInt8 → Rx} {s : Rx}
    (h : s.replaying = true) (bytes : List UInt8) :
    rxReplayWith rxByte s bytes = rxReplayWith rxByte' s bytes := by
  simp only [rxReplayWith, h, if_true]

theorem rxByteWith_congr (cfg : SerialConfig) {replay replay' : Rx → List UInt8 → Rx} {s : Rx}
    (h : ∀ t bytes, t.replaying = s.replaying → replay t bytes = replay' t bytes)
    (byte : UInt8) : rxByteWith cfg replay s byte = rxByteWith cfg replay' s byte := by
  simp only [rxByteWith]
  split <;> (repeat' split) <;> first | rfl | exact h _ _ rfl

theorem rxByteNested_replaying (cfg : SerialConfig) (s : Rx) (byte : UInt8) :
    (rxByteNested cfg s byte).replaying = s.replaying :=
  rxByteWith_replaying cfg (rxReplayWith_replaying _) s byte

theorem rxByte_of_replaying (cfg : SerialConfig) {s : Rx} (h : s.replaying = true)
    (byte : UInt8) : rxByte cfg s byte = rxByteNested cfg s byte :=
  rxByteWith_congr cfg (fun _ bytes ht => rxReplayWith_of_replaying (ht.trans h) bytes) byte

theorem foldl_rxByte_of_replaying (cfg : SerialConfig) (bytes : List UInt8) {s : Rx}
    (h : s.replaying = true) :
    bytes.foldl (rxByte cfg) s = bytes.foldl (rxByteNested cfg) s := by
  induction bytes generalizing s with
  | nil => rfl
  | cons b bytes ih =>
      rw [List.foldl_cons, List.foldl_cons, rxByte_of_replaying cfg h]
      exact ih ((rxByteNested_replaying cfg s b).trans h)

/-- `rx_byte` calls `rx_replay`, which calls `rx_byte`: the two levels
satisfy the equation of the source. -/
theorem rxByte_fix (cfg : SerialConfig) (s : Rx) (byte : UInt8) :
    rxByte cfg s byte = rxByteWith cfg (rxReplayWith (rxByte cfg)) s byte := by
  refine rxByteWith_congr cfg (fun t bytes _ => ?_) byte
  simp only [rxReplay, rxReplayWith]
  split
  · rfl
  · rw [foldl_rxByte_of_replaying cfg bytes rfl]

end Rdd2
