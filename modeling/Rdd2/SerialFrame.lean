import Mathlib.Data.List.Basic
import Mathlib.Data.Nat.Bitwise
import Mathlib.Tactic.Common

/-!
# The compact synapse serial frame

The wire format of the radio link (`subsys/zros_serial`) and its two
builders: the one laid out in place by the firmware's `tx_topic_if_due`
and the ground station's `encode_frame`. Definitions have their source's
names in camel case, constants without their prefix.

```
off  size  field
  0     2   sync      0x53 0x59
  2     2   len       payload byte count, little-endian
  4     2   topic_id  little-endian
  6     1   seq
  7     1   flags
  8     N   payload
8+N     2   crc16     over bytes [2, 8+N), little-endian
```

`crc16_itu_t` belongs to Zephyr and is a parameter of the link's
configuration; all that is known of it is that it is the bitwise
CRC-16/CCITT the ground station spells out.
-/

namespace Rdd2

/-! ## Constants of the link -/

def sync0 : UInt8 := 0x53
def sync1 : UInt8 := 0x59
def headerSize : Nat := 8
def trailerSize : Nat := 2
def crcSeed : UInt16 := 0xffff
def crcStart : Nat := 2
/-- `HEADER_TAIL`: the header without its sync word. -/
def headerTail : Nat := headerSize - crcStart

/-! ## Little-endian words -/

/-- `get_le16` on the two bytes it reads. -/
def getLe16 (lo hi : UInt8) : UInt16 := lo.toUInt16 ||| (hi.toUInt16 <<< 8)

/-- The bytes `put_le16` stores, in buffer order. -/
def putLe16 (value : UInt16) : List UInt8 :=
  [(value &&& 0xff).toUInt8, ((value >>> 8) &&& 0xff).toUInt8]

theorem getLe16_toNat (lo hi : UInt8) :
    (getLe16 lo hi).toNat = lo.toNat + 256 * hi.toNat := by
  have hlo := lo.toNat_lt
  have hhi := hi.toNat_lt
  have hor := Nat.two_pow_add_eq_or_of_lt (i := 8) hlo hi.toNat
  simp only [Nat.reducePow] at hlo hhi hor
  rw [getLe16, UInt16.toNat_or, UInt8.toNat_toUInt16, UInt16.toNat_shiftLeft,
    UInt8.toNat_toUInt16, Nat.shiftLeft_eq]
  simp only [UInt16.toNat_ofNat, Nat.reducePow, Nat.reduceMod]
  rw [Nat.mod_eq_of_lt (by omega), Nat.or_comm, Nat.mul_comm, ← hor]
  omega

theorem putLe16_lo_toNat (v : UInt16) : (v &&& 0xff).toUInt8.toNat = v.toNat % 256 := by
  have hand : v.toNat &&& 255 = v.toNat % 256 := Nat.and_two_pow_sub_one_eq_mod v.toNat 8
  simp only [UInt16.toNat_toUInt8, UInt16.toNat_and, UInt16.reduceToNat, hand]
  omega

theorem putLe16_hi_toNat (v : UInt16) :
    ((v >>> 8) &&& 0xff).toUInt8.toNat = v.toNat / 256 := by
  have hlt := v.toNat_lt
  have hshift : v.toNat >>> 8 = v.toNat / 256 := Nat.shiftRight_eq_div_pow _ 8
  have hand : v.toNat / 256 &&& 255 = v.toNat / 256 % 256 :=
    Nat.and_two_pow_sub_one_eq_mod _ 8
  simp only [UInt16.toNat_toUInt8, UInt16.toNat_and, UInt16.toNat_shiftRight,
    UInt16.reduceToNat, Nat.reduceMod, hshift, hand]
  omega

theorem getLe16_putLe16 (v : UInt16) :
    getLe16 (v &&& 0xff).toUInt8 ((v >>> 8) &&& 0xff).toUInt8 = v := by
  apply UInt16.toNat_inj.mp
  rw [getLe16_toNat, putLe16_lo_toNat, putLe16_hi_toNat]
  omega

theorem putLe16_getLe16 (lo hi : UInt8) : putLe16 (getLe16 lo hi) = [lo, hi] := by
  have hlo := lo.toNat_lt
  have hhi := hi.toNat_lt
  have h1 : ((getLe16 lo hi) &&& 0xff).toUInt8 = lo := by
    apply UInt8.toNat_inj.mp
    rw [putLe16_lo_toNat, getLe16_toNat]
    omega
  have h2 : (((getLe16 lo hi) >>> 8) &&& 0xff).toUInt8 = hi := by
    apply UInt8.toNat_inj.mp
    rw [putLe16_hi_toNat, getLe16_toNat]
    omega
  rw [putLe16, h1, h2]

@[simp] theorem putLe16_length (v : UInt16) : (putLe16 v).length = 2 := rfl

theorem take_set_succ {α : Type} {l : List α} {i : Nat} (h : i < l.length) (a : α) :
    (l.set i a).take (i + 1) = l.take i ++ [a] := by
  rw [List.take_succ_eq_append_getElem (by simpa using h), List.take_set_of_le (Nat.le_refl i)]
  simp

/-! ## The checksum -/

def crcBit (crc : UInt16) : UInt16 :=
  if crc &&& 0x8000 ≠ 0 then (crc <<< 1) ^^^ 0x1021 else crc <<< 1

def crcByte (crc : UInt16) (byte : UInt8) : UInt16 :=
  Nat.repeat crcBit 8 (crc ^^^ (byte.toUInt16 <<< 8))

/-- `crc16_ccitt_false` of the ground station. -/
def crc16CcittFalse (data : List UInt8) (seed : UInt16) : UInt16 :=
  data.foldl crcByte seed

/-- The checksum is chainable through its seed. -/
theorem crc16CcittFalse_append (a b : List UInt8) (seed : UInt16) :
    crc16CcittFalse (a ++ b) seed = crc16CcittFalse b (crc16CcittFalse a seed) :=
  List.foldl_append

-- the check value both ends document
example : crc16CcittFalse [0x31, 0x32, 0x33, 0x34, 0x35, 0x36, 0x37, 0x38, 0x39] crcSeed
    = 0x29b1 := by decide +kernel

/-! ## Configuration -/

/-- `struct serial_topic` after `topics_resolve`: what the link carries. -/
structure SerialTopic where
  key : String
  /-- Streamed out as telemetry. -/
  tx : Bool
  /-- Accepted inbound. -/
  rx : Bool
  /-- Whether `pub` is non-NULL. -/
  pub : Bool
  id : UInt16
  payloadSize : Nat
  deriving DecidableEq, Repr

/-- What the build and the rest of the system fix for the link: the Kconfig
payload limit with its range, the resolved topic table, Zephyr's
`crc16_itu_t`, and what the n-th call of `zros_pub_update` returns. -/
structure SerialConfig where
  maxPayload : Nat
  maxPayload_ge : 8 ≤ maxPayload
  maxPayload_le : maxPayload ≤ 512
  topics : List SerialTopic
  crc16ItuT : UInt16 → List UInt8 → UInt16
  crc16ItuT_eq : ∀ seed data, crc16ItuT seed data = crc16CcittFalse data seed
  pubUpdate : Nat → Int

/-- `g_topics` of a build whose ground station injects the GNSS fix, with
the catalog's ids and sizes and the default payload limit. -/
def SerialConfig.mocap : SerialConfig where
  maxPayload := 128
  maxPayload_ge := by decide
  maxPayload_le := by decide
  topics :=
    [⟨"health", true, false, false, 1, 48⟩, ⟨"att", true, false, false, 11, 40⟩,
      ⟨"att_sp", true, false, false, 19, 48⟩, ⟨"pwm", true, false, false, 25, 48⟩,
      ⟨"loop", true, false, false, 26, 24⟩, ⟨"gnss", true, true, true, 8, 64⟩]
  crc16ItuT := fun seed data => crc16CcittFalse data seed
  crc16ItuT_eq := fun _ _ => rfl
  pubUpdate := fun _ => 0

def SerialConfig.frameMax (cfg : SerialConfig) : Nat :=
  headerSize + cfg.maxPayload + trailerSize

/-- `struct rdd2_zros_serial_stats`: wrapping 32-bit counters. -/
structure SerialStats where
  rxFrames : UInt32 := 0
  rxCrcErrors : UInt32 := 0
  rxUnknownTopic : UInt32 := 0
  rxWrongDirection : UInt32 := 0
  rxBadLength : UInt32 := 0
  rxRingOverrun : UInt32 := 0
  rxSeqGaps : UInt32 := 0
  txFrames : UInt32 := 0
  txDropped : UInt32 := 0
  deriving DecidableEq, Repr

/-! ## Frames and their builders -/

/-- What a frame tells its receiver. -/
structure Frame where
  topicId : UInt16
  seq : UInt8
  payload : List UInt8
  deriving DecidableEq, Repr

/-- Every frame the link can carry: a payload of 1 to `MAX_PAYLOAD` bytes. -/
def Frame.Valid (maxPayload : Nat) (f : Frame) : Prop :=
  1 ≤ f.payload.length ∧ f.payload.length ≤ maxPayload

instance (maxPayload : Nat) (f : Frame) : Decidable (f.Valid maxPayload) :=
  inferInstanceAs (Decidable (_ ∧ _))

/-- Why a candidate behind a sync word is no frame. -/
inductive RxFault where
  | badLength
  | badCrc
  deriving DecidableEq, Repr

/-- `encode_frame` of the ground station. `struct.pack` raises when the
length does not fit its field. -/
def encodeFrame (topicId : UInt16) (payload : List UInt8) (seq : UInt8) :
    Option (List UInt8) :=
  if payload.length < 65536 then
    let body := putLe16 (UInt16.ofNat payload.length) ++ putLe16 topicId ++ [seq, 0] ++ payload
    some ([sync0, sync1] ++ body ++ putLe16 (crc16CcittFalse body crcSeed))
  else
    none

def writeAt (buf : List UInt8) (off : Nat) (bytes : List UInt8) : List UInt8 :=
  buf.take off ++ bytes ++ buf.drop (off + bytes.length)

/-- The frame `tx_topic_if_due` lays out in its `frame` buffer, whatever
the stack held there before: `zros_topic_read` stores the sample, the
header is written around it, the checksum behind it. -/
def txFrame (cfg : SerialConfig) (buf : List UInt8) (id : UInt16) (seq : UInt8)
    (sample : List UInt8) : List UInt8 :=
  let len := sample.length
  let frame := writeAt buf headerSize sample
  let frame := writeAt frame 0 [sync0]
  let frame := writeAt frame 1 [sync1]
  let frame := writeAt frame 2 (putLe16 (UInt16.ofNat len))
  let frame := writeAt frame 4 (putLe16 id)
  let frame := writeAt frame 6 [seq]
  let frame := writeAt frame 7 [0]
  let crc := cfg.crc16ItuT crcSeed ((frame.drop crcStart).take (headerTail + len))
  let frame := writeAt frame (headerSize + len) (putLe16 crc)
  frame.take (headerSize + len + trailerSize)

/-! ## The layout -/

/-- The bytes the checksum covers. -/
def Frame.body (f : Frame) (flags : UInt8) : List UInt8 :=
  putLe16 (UInt16.ofNat f.payload.length) ++ putLe16 f.topicId ++ [f.seq, flags] ++ f.payload

/-- The whole frame, as the format table has it. -/
def Frame.wire (f : Frame) (flags : UInt8) : List UInt8 :=
  [sync0, sync1] ++ f.body flags ++ putLe16 (crc16CcittFalse (f.body flags) crcSeed)

theorem Frame.body_length (f : Frame) (flags : UInt8) :
    (f.body flags).length = headerTail + f.payload.length := by
  simp [Frame.body, headerTail, headerSize, crcStart]
  omega

theorem Frame.wire_length (f : Frame) (flags : UInt8) :
    (f.wire flags).length = headerSize + f.payload.length + trailerSize := by
  simp [Frame.wire, Frame.body_length, headerTail, headerSize, crcStart, trailerSize]
  omega

theorem encodeFrame_eq_wire {f : Frame} {maxPayload : Nat} (hmax : maxPayload ≤ 512)
    (hf : f.Valid maxPayload) : encodeFrame f.topicId f.payload f.seq = some (f.wire 0) := by
  have hlen : f.payload.length < 65536 := by
    have := hf.2
    omega
  rw [encodeFrame, if_pos hlen]
  rfl

theorem writeAt_append {a b c bytes : List UInt8} (h : bytes.length = b.length) :
    writeAt (a ++ b ++ c) a.length bytes = a ++ bytes ++ c := by
  simp [writeAt, h]

/-- In a buffer long enough, the firmware's stores at fixed offsets give
exactly the frame of the format table. -/
theorem txFrame_eq_wire (cfg : SerialConfig) {buf : List UInt8} {f : Frame}
    (hbuf : headerSize + f.payload.length + trailerSize ≤ buf.length) :
    txFrame cfg buf f.topicId f.seq f.payload = f.wire 0 := by
  obtain ⟨head, tail, rfl, hhead⟩ : ∃ head tail, buf = head ++ tail ∧ head.length = 8 :=
    ⟨buf.take 8, buf.drop 8, by simp, by simp [headerSize] at hbuf ⊢; omega⟩
  obtain ⟨old, tail, rfl, hold⟩ :
      ∃ old tail', tail = old ++ tail' ∧ old.length = f.payload.length :=
    ⟨tail.take f.payload.length, tail.drop f.payload.length, by simp, by
      simp [headerSize, hhead] at hbuf ⊢; omega⟩
  obtain ⟨crc, tail, rfl, hcrc⟩ : ∃ crc tail', tail = crc ++ tail' ∧ crc.length = 2 :=
    ⟨tail.take 2, tail.drop 2, by simp, by
      simp [headerSize, trailerSize, hhead, hold] at hbuf ⊢; omega⟩
  match head, hhead with
  | [b0, b1, b2, b3, b4, b5, b6, b7], _ =>
    have hsample : writeAt ([b0, b1, b2, b3, b4, b5, b6, b7] ++ (old ++ (crc ++ tail)))
        headerSize f.payload = [b0, b1, b2, b3, b4, b5, b6, b7] ++ f.payload ++ (crc ++ tail) := by
      rw [← List.append_assoc]
      exact writeAt_append (a := [b0, b1, b2, b3, b4, b5, b6, b7]) hold.symm
    have hheader : ∀ rest : List UInt8,
        writeAt (writeAt (writeAt (writeAt (writeAt (writeAt
          ([b0, b1, b2, b3, b4, b5, b6, b7] ++ rest) 0 [sync0]) 1 [sync1])
          2 (putLe16 (UInt16.ofNat f.payload.length))) 4 (putLe16 f.topicId)) 6 [f.seq]) 7 [0]
        = [sync0, sync1] ++ (putLe16 (UInt16.ofNat f.payload.length) ++ putLe16 f.topicId
          ++ [f.seq, 0] ++ rest) := by
      intro rest
      simp [writeAt, putLe16]
    have hbody : [sync0, sync1] ++ (putLe16 (UInt16.ofNat f.payload.length)
        ++ putLe16 f.topicId ++ [f.seq, 0] ++ (f.payload ++ (crc ++ tail)))
        = ([sync0, sync1] ++ f.body 0) ++ crc ++ tail := by
      simp [Frame.body]
    have hcover : ((([sync0, sync1] ++ f.body 0) ++ crc ++ tail).drop crcStart).take
        (headerTail + f.payload.length) = f.body 0 := by
      rw [← f.body_length 0]
      simp [crcStart]
    have hoff : headerSize + f.payload.length = ([sync0, sync1] ++ f.body 0).length := by
      simp [Frame.body_length, headerTail, headerSize, crcStart]
      omega
    simp only [txFrame]
    rw [hsample, List.append_assoc, hheader, hbody, hcover, cfg.crc16ItuT_eq, hoff,
      writeAt_append (by simp [hcrc]), trailerSize]
    exact List.take_left' (by simp)

end Rdd2
