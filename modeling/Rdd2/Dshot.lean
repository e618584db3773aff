import Mathlib.Data.Fintype.Card
import Rdd2.Flags

/-!
# The DShot driver

`nxp_flexio_dshot.c` over the registers it reads back: the timer status
flags and the shift buffers. What it only configures (pins, `TIMCTL`,
shifter and timer modes, interrupt enables) is left out. Each channel has a
shifter and a timer that the FlexIO parent hands out, in any order, and the
driver works with flag words of both kinds.

Reads of the timer flags go through `hw`, which says what the register holds
at each access: `fun _ x => x` is a register whose flags stay as they were
left, and any other function is hardware that raises flags on the way. The
timer loop has no bound of its own and is given up after `fuel` tests.
-/

namespace Rdd2

open Flags

/-- `uint32_t` -/
abbrev Word : Type := BitVec 32

inductive DshotState where
  | start
  | fifo12Bit
  | transferred12Bit
  | transmitComplete
  | receive
  | receiveComplete
  deriving DecidableEq, Repr

/-- What the devicetree and the FlexIO parent fix: the shifter and the timer
of each channel, and which channels are bidirectional. -/
structure DshotConfig (n : Nat) where
  shifterIndex : Fin n → Fin 32
  timerIndex : Fin n → Fin 32
  bdshot : Fin n → Bool
  shifter_injective : Function.Injective shifterIndex
  timer_injective : Function.Injective timerIndex

/-- `struct nxp_flexio_dshot_channel_config` -/
structure DshotChannel where
  init : Bool := false
  dataSeg1 : Word := 0
  irqData : Word := 0
  state : DshotState := .start
  rawResponse : Word := 0
  erpm : BitVec 16 := 0
  crcErrorCnt : Word := 0
  frameErrorCnt : Word := 0
  noResponseCnt : Word := 0
  lastNoResponseCnt : Word := 0
  deriving DecidableEq, Repr

/-- `struct nxp_flexio_dshot_data`, its channels, and the registers. -/
structure DshotData (n : Nat) where
  channels : Fin n → DshotChannel
  dshotMask : Word
  dshotTimerMask : Word
  bdshotRecvMask : Word
  bdshotParsedRecvMask : Word
  timerStatus : Word
  shiftBuf : Fin 32 → Word

section Driver

variable {n : Nat}

theorem DshotConfig.channel_lt (cfg : DshotConfig n) (c : Fin n) : c.val < 32 := by
  have hcard := Fintype.card_le_of_injective cfg.shifterIndex cfg.shifter_injective
  simp only [Fintype.card_fin] at hcard
  omega

/-- The channel number where the driver uses it as a bit or as an index of
the hardware. -/
def DshotConfig.number (cfg : DshotConfig n) (c : Fin n) : Fin 32 := ⟨c.val, cfg.channel_lt c⟩

theorem number_inj {cfg : DshotConfig n} {c k : Fin n} : cfg.number c = cfg.number k ↔ c = k := by
  simp [DshotConfig.number, Fin.ext_iff]

def DshotData.setChannel (d : DshotData n) (c : Fin n) (channel : DshotChannel) : DshotData n :=
  { d with channels := Function.update d.channels c channel }

@[simp] theorem setChannel_same (d : DshotData n) (c : Fin n) (channel : DshotChannel) :
    (d.setChannel c channel).channels c = channel := by
  simp [DshotData.setChannel]

@[simp] theorem setChannel_other (d : DshotData n) {c k : Fin n} (h : k ≠ c)
    (channel : DshotChannel) : (d.setChannel c channel).channels k = d.channels k := by
  simp [DshotData.setChannel, h]

/-- `FLEXIO_ClearTimerStatusFlags` -/
def DshotData.clearTimerStatus (d : DshotData n) (mask : Word) : DshotData n :=
  { d with timerStatus := d.timerStatus &&& ~~~mask }

/-- `nxp_flexio_dshot_init` on fresh data. -/
def dshotInit (cfg : DshotConfig n) : DshotData n where
  channels := fun _ => { init := true }
  dshotMask := ofIndices cfg.shifterIndex
  dshotTimerMask := ofIndices cfg.timerIndex
  bdshotRecvMask := 0
  bdshotParsedRecvMask := 0
  timerStatus := 0
  shiftBuf := fun _ => 0

/-! ## Sending -/

/-- The loop of `nxp_flexio_dshot_expand_data` with `bits` bits to go. -/
def expandFrom (packet : BitVec 16) : Nat → Nat → BitVec 64 → BitVec 64
  | 0, _, expanded => expanded
  | bits + 1, index, expanded =>
      let chips : BitVec 64 := if packet &&& (1#16 <<< bits) ≠ 0 then 3 else 1
      expandFrom packet bits (index + 3) (expanded ||| chips <<< index)

/-- `nxp_flexio_dshot_expand_data` -/
def expandData (packet : BitVec 16) : BitVec 64 := expandFrom packet 16 0 0

/-- `x & 0x0F` -/
def nibble (x : BitVec 16) : BitVec 16 := x &&& 0xF

/-- The XOR of the three nibbles above the lowest. -/
def dshotChecksum (csumData : BitVec 16) : BitVec 16 :=
  nibble (csumData >>> 4) ^^^ nibble (csumData >>> 8) ^^^ nibble (csumData >>> 12)

/-- `packet` of `nxp_flexio_dshot_hw_data_set` -/
def dshotPacket (bdshot : Bool) (throttle : BitVec 16) (telemetry : Bool) : BitVec 16 :=
  let telemetry : BitVec 16 := if telemetry then 1 else 0
  let packet := (throttle <<< 5) ||| (telemetry <<< 4)
  let checksum := dshotChecksum (if bdshot then ~~~packet else packet)
  packet ||| nibble checksum

/-- `nxp_flexio_dshot_hw_data_set` -/
def dataSet (cfg : DshotConfig n) (d : DshotData n) (channel : Nat) (throttle : BitVec 16)
    (telemetry : Bool) : DshotData n :=
  if h : channel < n then
    let c : Fin n := ⟨channel, h⟩
    if (d.channels c).init then
      let expanded := expandData (dshotPacket (cfg.bdshot c) throttle telemetry)
      let d := d.setChannel c { d.channels c with
        dataSeg1 := (expanded &&& 0xFFFFFF).setWidth 32
        irqData := (expanded >>> 24).setWidth 32
        state := .start }
      if cfg.bdshot c then d.clearTimerStatus d.dshotTimerMask else d
    else d
  else d

/-- What the trigger makes of a missing reply. -/
def countNoResponse (cfg : DshotConfig n) (d : DshotData n) (c : Fin n) : DshotData n :=
  if cfg.bdshot c ∧ d.bdshotRecvMask &&& bit (cfg.number c) = 0 then
    d.setChannel c { d.channels c with noResponseCnt := (d.channels c).noResponseCnt + 1 }
  else d

def triggerTurn (cfg : DshotConfig n) (d : DshotData n) (c : Fin n) : DshotData n :=
  let d := countNoResponse cfg d c
  if (d.channels c).init ∧ (d.channels c).dataSeg1 ≠ 0 then
    { d with shiftBuf := Function.update d.shiftBuf (cfg.shifterIndex c) (d.channels c).dataSeg1 }
  else d

/-- `nxp_flexio_dshot_hw_trigger` -/
def trigger (cfg : DshotConfig n) (d : DshotData n) : DshotData n :=
  let d := Fin.foldl n (triggerTurn cfg) (d.clearTimerStatus d.dshotTimerMask)
  let d := { d with bdshotRecvMask := 0 }
  d.clearTimerStatus d.dshotTimerMask

/-! ## Interrupts -/

def isrShifterTurn (cfg : DshotConfig n) (flags : Word) (shiftBufBis : Fin 32 → Word)
    (d : DshotData n) (c : Fin n) : DshotData n :=
  if flags &&& bit (cfg.shifterIndex c) ≠ 0 then
    match (d.channels c).state with
    | .start =>
        let d := d.setChannel c { d.channels c with state := .fifo12Bit }
        { d with
          shiftBuf := Function.update d.shiftBuf (cfg.shifterIndex c) (d.channels c).irqData }
    | .receive =>
        let d := d.setChannel c { d.channels c with
          state := .receiveComplete
          rawResponse := shiftBufBis (cfg.number c) }
        { d with bdshotRecvMask := d.bdshotRecvMask ||| bit (cfg.shifterIndex c) }
    | .fifo12Bit | .transferred12Bit | .transmitComplete | .receiveComplete => d
  else d

/-- The shifter loop; it has no turn at all with no flag set. -/
def isrShifterLoop (cfg : DshotConfig n) (flags : Word) (shiftBufBis : Fin 32 → Word)
    (d : DshotData n) : DshotData n :=
  if flags = 0 then d else Fin.foldl n (isrShifterTurn cfg flags shiftBufBis) d

/-- What a timer flag does to its channel. -/
def DshotChannel.timerExpired (bdshot : Bool) (channel : DshotChannel) : DshotChannel :=
  match channel.state with
  | .fifo12Bit => { channel with state := .transferred12Bit }
  | .transferred12Bit => { channel with state := if bdshot then .receive else .transmitComplete }
  | .start | .transmitComplete | .receive | .receiveComplete => channel

/-- A turn of the timer loop, `flags` being what it read. -/
def isrTimerTurn (cfg : DshotConfig n) (flags : Word) (d : DshotData n) (c : Fin n) :
    DshotData n :=
  if flags &&& bit (cfg.timerIndex c) ≠ 0 then
    let d := d.clearTimerStatus (bit (cfg.timerIndex c))
    d.setChannel c ((d.channels c).timerExpired (cfg.bdshot c))
  else d

/-- `(channel + 1) % dshot_channel_count` -/
def nextChannel (c : Fin n) : Fin n :=
  ⟨(c.val + 1) % n, Nat.mod_lt _ (Nat.lt_of_le_of_lt (Nat.zero_le _) c.isLt)⟩

/-- `FLEXIO_GetTimerStatusFlags` -/
def DshotData.readTimerStatus (d : DshotData n) (hw : Nat → Word → Word) (access : Nat) :
    DshotData n :=
  { d with timerStatus := hw access d.timerStatus }

/-- The timer loop of `nxp_flexio_dshot_isr` between two turns: how often
the flags have been read, and what was read last. -/
structure TimerLoop (n : Nat) where
  access : Nat
  channel : Fin n
  flags : Word
  data : DshotData n

/-- `flags & data->dshot_mask` -/
def TimerLoop.cond (s : TimerLoop n) : Bool := decide (s.flags &&& s.data.dshotMask ≠ 0)

def TimerLoop.turn (cfg : DshotConfig n) (hw : Nat → Word → Word) (s : TimerLoop n) :
    TimerLoop n :=
  let d := s.data.readTimerStatus hw s.access
  { access := s.access + 1
    channel := nextChannel s.channel
    flags := d.timerStatus
    data := isrTimerTurn cfg d.timerStatus d s.channel }

def TimerLoop.enter (d : DshotData n) (h : 0 < n) : TimerLoop n := ⟨1, ⟨0, h⟩, d.timerStatus, d⟩

def isrTimers (cfg : DshotConfig n) (hw : Nat → Word → Word) (fuel : Nat) (d : DshotData n) :
    Option (DshotData n) :=
  let d := d.readTimerStatus hw 0
  if h : 0 < n then
    (Loops.whileLoop TimerLoop.cond (TimerLoop.turn cfg hw) fuel (.enter d h)).map TimerLoop.data
  else some d

/-- `nxp_flexio_dshot_isr` -/
def isr (cfg : DshotConfig n) (shifterFlags : Word) (shiftBufBis : Fin 32 → Word)
    (hw : Nat → Word → Word) (fuel : Nat) (d : DshotData n) : Option (DshotData n) :=
  isrTimers cfg hw fuel (isrShifterLoop cfg shifterFlags shiftBufBis d)

/-! ## Masks -/

/-- The masks are those that `nxp_flexio_dshot_init` set. -/
structure DshotData.Attached (cfg : DshotConfig n) (d : DshotData n) : Prop where
  dshotMask : d.dshotMask = ofIndices cfg.shifterIndex
  dshotTimerMask : d.dshotTimerMask = ofIndices cfg.timerIndex

theorem dshotInit_attached (cfg : DshotConfig n) (pending : Word) :
    DshotData.Attached cfg { dshotInit cfg with timerStatus := pending } := ⟨rfl, rfl⟩

/-- What the timer loop looks at is not touched before it. -/
theorem isrShifterTurn_frame (cfg : DshotConfig n) (flags : Word) (shiftBufBis : Fin 32 → Word)
    (d : DshotData n) (c : Fin n) :
    (isrShifterTurn cfg flags shiftBufBis d c).timerStatus = d.timerStatus ∧
      (isrShifterTurn cfg flags shiftBufBis d c).dshotMask = d.dshotMask ∧
      (isrShifterTurn cfg flags shiftBufBis d c).dshotTimerMask = d.dshotTimerMask := by
  unfold isrShifterTurn
  split
  · split <;> exact ⟨rfl, rfl, rfl⟩
  · exact ⟨rfl, rfl, rfl⟩

theorem isrShifterLoop_frame (cfg : DshotConfig n) (flags : Word) (shiftBufBis : Fin 32 → Word)
    (d : DshotData n) :
    (isrShifterLoop cfg flags shiftBufBis d).timerStatus = d.timerStatus ∧
      (isrShifterLoop cfg flags shiftBufBis d).dshotMask = d.dshotMask ∧
      (isrShifterLoop cfg flags shiftBufBis d).dshotTimerMask = d.dshotTimerMask := by
  unfold isrShifterLoop
  split
  · exact ⟨rfl, rfl, rfl⟩
  · refine Loops.foldl_inv (P := fun _ (d' : DshotData n) => d'.timerStatus = d.timerStatus ∧
      d'.dshotMask = d.dshotMask ∧ d'.dshotTimerMask = d.dshotTimerMask) _ ⟨rfl, rfl, rfl⟩ ?_
    rintro c d' ⟨hstatus, hmask, htimers⟩
    obtain ⟨h1, h2, h3⟩ := isrShifterTurn_frame cfg flags shiftBufBis d' c
    exact ⟨h1.trans hstatus, h2.trans hmask, h3.trans htimers⟩

theorem isrTimerTurn_masks (cfg : DshotConfig n) (flags : Word) (d : DshotData n) (c : Fin n) :
    (isrTimerTurn cfg flags d c).dshotMask = d.dshotMask ∧
      (isrTimerTurn cfg flags d c).dshotTimerMask = d.dshotTimerMask := by
  unfold isrTimerTurn
  split <;> exact ⟨rfl, rfl⟩

end Driver

/-- One bidirectional channel on shifter 0 and timer 0. -/
def DshotConfig.sameIndex : DshotConfig 1 where
  shifterIndex := fun _ => 0
  timerIndex := fun _ => 0
  bdshot := fun _ => true
  shifter_injective := fun _ _ _ => Subsingleton.elim _ _
  timer_injective := fun _ _ _ => Subsingleton.elim _ _

/-- One channel whose timer is not the one with its shifter's index,
because another FlexIO child has that. -/
def DshotConfig.shifted : DshotConfig 1 where
  shifterIndex := fun _ => 0
  timerIndex := fun _ => 1
  bdshot := fun _ => true
  shifter_injective := fun _ _ _ => Subsingleton.elim _ _
  timer_injective := fun _ _ _ => Subsingleton.elim _ _

/-- One bidirectional channel on shifter 1. -/
def DshotConfig.secondShifter : DshotConfig 1 where
  shifterIndex := fun _ => 1
  timerIndex := fun _ => 0
  bdshot := fun _ => true
  shifter_injective := fun _ _ _ => Subsingleton.elim _ _
  timer_injective := fun _ _ _ => Subsingleton.elim _ _

end Rdd2
