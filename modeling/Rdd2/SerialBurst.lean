import Mathlib.Data.Int.Bitwise
import Rdd2.Crc
import Rdd2.RescanPlaces
import Rdd2.SerialCorruption

/-!
# Bursts of errors on the link

The checksum of the frame as a cyclic redundancy check over the bits of
the bytes: `crc16_ccitt_false` is `Crc.run` with the polynomial 0x1021
(`crc16CcittFalse_eq_run`), so it detects every burst of at most 16 bits,
for every message and every seed (`crc16CcittFalseInt_detects`). The ground
station computes it on Python's unbounded integers, where a seed may be
anything; from the first byte on only its low 16 bits count
(`crc16CcittFalseInt_eq`).

For a frame on the wire this settles what the decoder can say about it: a
burst behind the length leaves the length readable and the checksum wrong
(`judge_burst`).
-/

/-! ## The low bits of an integer

Bitwise operations on unbounded integers, negative ones in two's complement, seen
through their low `w` bits: `BitVec.ofInt w` turns each operation into the one on
words, and a mask that fits `w` bits sees nothing else (`land_mask`). -/

namespace IntBits

variable {w : Nat}

theorem getLsbD_ofInt (x : Int) (i : Nat) :
    (BitVec.ofInt w x).getLsbD i = (decide (i < w) && x.testBit i) := by
  cases x with
  | ofNat n => simp [Int.testBit, BitVec.getLsbD_ofNat]
  | negSucc n =>
      simp only [Int.testBit, BitVec.ofInt_negSucc_eq_not_ofNat, BitVec.getLsbD_not,
        BitVec.getLsbD_ofNat]
      cases decide (i < w) <;> simp

theorem ofInt_xor (x y : Int) :
    BitVec.ofInt w (Int.xor x y) = BitVec.ofInt w x ^^^ BitVec.ofInt w y := by
  apply BitVec.eq_of_getLsbD_eq
  intro i hi
  rw [BitVec.getLsbD_xor, getLsbD_ofInt, getLsbD_ofInt, getLsbD_ofInt, Int.testBit_lxor]
  simp [hi]

theorem ofInt_shiftLeft (x : Int) (n : Nat) :
    BitVec.ofInt w (x <<< n) = BitVec.ofInt w x <<< n := by
  rw [Int.shiftLeft_eq, BitVec.ofInt_mul, BitVec.shiftLeft_eq_mul_twoPow]
  congr 1
  apply BitVec.eq_of_toNat_eq
  rw [BitVec.toNat_twoPow, BitVec.toNat_ofInt]
  norm_cast

/-- A mask of `w` bits sees the low `w` bits only. -/
theorem land_mask (x : Int) {n : Nat} (h : n < 2 ^ w) :
    Int.land x n = ((BitVec.ofInt w x).toNat &&& n : Nat) := by
  have hbits : ∀ i, Int.testBit (Int.land x n) i
      = ((BitVec.ofInt w x).toNat &&& n).testBit i := by
    intro i
    rw [Int.testBit_land, Nat.testBit_and, ← BitVec.getLsbD, getLsbD_ofInt]
    by_cases hi : i < w
    · simp [hi, Int.testBit]
    · have hhigh : n.testBit i = false :=
        Nat.testBit_lt_two_pow (h.trans_le (Nat.pow_le_pow_right (by decide) (Nat.le_of_not_lt hi)))
      simp [Int.testBit, hhigh]
  obtain ⟨m, hm⟩ : ∃ m : Nat, Int.land x n = m := by
    cases x <;> exact ⟨_, rfl⟩
  rw [hm] at hbits ⊢
  exact congrArg _ (Nat.eq_of_testBit_eq hbits)

end IntBits

namespace Rdd2

open Rescan

/-! ## The checksum on Python's integers -/

def crcBitInt (crc : Int) : Int :=
  if Int.land crc 0x8000 ≠ 0 then Int.land (Int.xor (crc <<< (1 : Nat)) 0x1021) 0xFFFF
  else Int.land (crc <<< (1 : Nat)) 0xFFFF

def crcByteInt (crc : Int) (byte : UInt8) : Int :=
  Nat.repeat crcBitInt 8 (Int.xor crc ((byte.toNat : Int) <<< (8 : Nat)))

/-- `crc16_ccitt_false`, its seed any integer. -/
def crc16CcittFalseInt (data : List UInt8) (seed : Int) : Int :=
  data.foldl crcByteInt seed

def low16 (x : Int) : UInt16 := ⟨BitVec.ofInt 16 x⟩

@[simp] theorem low16_toNat (v : UInt16) : low16 (v.toNat : Int) = v := by
  apply UInt16.toBitVec_inj.mp
  apply BitVec.eq_of_toNat_eq
  simp [low16]

theorem low16_xor (x y : Int) : low16 (Int.xor x y) = low16 x ^^^ low16 y :=
  UInt16.toBitVec_inj.mp (IntBits.ofInt_xor x y)

theorem low16_shiftLeft_one (x : Int) : low16 (x <<< (1 : Nat)) = low16 x <<< 1 :=
  UInt16.toBitVec_inj.mp (IntBits.ofInt_shiftLeft x 1)

theorem low16_byte (b : UInt8) : low16 ((b.toNat : Int) <<< (8 : Nat)) = b.toUInt16 <<< 8 := by
  have hword : BitVec.ofInt 16 (b.toNat : Int) = b.toUInt16.toBitVec := by
    apply BitVec.eq_of_toNat_eq
    rw [BitVec.ofInt_natCast, BitVec.toNat_ofNat, UInt16.toNat_toBitVec, UInt8.toNat_toUInt16]
    exact Nat.mod_eq_of_lt (b.toNat_lt.trans (by decide))
  apply UInt16.toBitVec_inj.mp
  refine (IntBits.ofInt_shiftLeft (w := 16) (b.toNat : Int) 8).trans ?_
  rw [hword]
  rfl

theorem land_low16 (x : Int) : Int.land x 0xFFFF = (low16 x).toNat := by
  refine (IntBits.land_mask (w := 16) x (n := 0xFFFF) (by decide)).trans ?_
  have hmask : (BitVec.ofInt 16 x).toNat &&& 0xFFFF = (BitVec.ofInt 16 x).toNat % 2 ^ 16 :=
    Nat.and_two_pow_sub_one_eq_mod _ 16
  rw [hmask, Nat.mod_eq_of_lt (BitVec.isLt _)]
  rfl

theorem land_top (x : Int) : Int.land x 0x8000 ≠ 0 ↔ low16 x &&& 0x8000 ≠ 0 := by
  have hland : Int.land x 0x8000 = ((low16 x &&& 0x8000).toNat : Int) :=
    (IntBits.land_mask (w := 16) x (n := 0x8000) (by decide)).trans (by rfl)
  rw [hland, Ne, Int.natCast_eq_zero, ← UInt16.toNat_zero, UInt16.toNat_inj]

/-- The masks bring every turn back to 16 bits. -/
theorem crcBitInt_eq (crc : Int) : crcBitInt crc = (crcBit (low16 crc)).toNat := by
  simp only [crcBitInt, crcBit, land_top, land_low16, low16_xor, low16_shiftLeft_one]
  split <;> rfl

theorem crcByteInt_eq (crc : Int) (byte : UInt8) :
    crcByteInt crc byte = (crcByte (low16 crc) byte).toNat := by
  simp only [crcByteInt, crcByte, Nat.repeat, crcBitInt_eq, low16_toNat, low16_xor, low16_byte]

/-- From the first byte on the seed is its low 16 bits. -/
theorem crc16CcittFalseInt_eq {data : List UInt8} (h : data ≠ []) (seed : Int) :
    crc16CcittFalseInt data seed = (crc16CcittFalse data (low16 seed)).toNat := by
  have hword : ∀ (data : List UInt8) (v : UInt16),
      crc16CcittFalseInt data v.toNat = (crc16CcittFalse data v).toNat := by
    intro data
    induction data with
    | nil => intro v; rfl
    | cons b data ih =>
        intro v
        simp only [crc16CcittFalseInt, crc16CcittFalse, List.foldl_cons, crcByteInt_eq,
          low16_toNat]
        exact ih _
  cases data with
  | nil => exact absurd rfl h
  | cons b data =>
      simp only [crc16CcittFalseInt, crc16CcittFalse, List.foldl_cons, crcByteInt_eq]
      exact hword data _

/-! ## The checksum bit by bit -/

/-- The bits of a byte, most significant first. -/
def byteBits (b : UInt8) : List Bool := (List.range 8).map b.toBitVec.getMsbD

def bitsOf (bytes : List UInt8) : List Bool := bytes.flatMap byteBits

/-- The bytes of two strings added modulo 2. -/
def xorBytes (d e : List UInt8) : List UInt8 := List.zipWith (· ^^^ ·) d e

theorem byteBits_length (b : UInt8) : (byteBits b).length = 8 := by simp [byteBits]

theorem byteBits_xor (a b : UInt8) :
    byteBits (a ^^^ b) = List.zipWith xor (byteBits a) (byteBits b) := by
  simp [byteBits, List.range_succ, BitVec.getMsbD_xor]

theorem bitsOf_append (a b : List UInt8) : bitsOf (a ++ b) = bitsOf a ++ bitsOf b :=
  List.flatMap_append

theorem bitsOf_zeros (n : Nat) : bitsOf (List.replicate n 0) = List.replicate (8 * n) false := by
  induction n with
  | zero => rfl
  | succ n ih =>
      rw [List.replicate_succ, bitsOf, List.flatMap_cons, ← bitsOf, ih]
      have hzero : byteBits 0 = List.replicate 8 false := by decide
      rw [hzero, List.replicate_append_replicate]
      congr 1
      omega

theorem bitsOf_length (bytes : List UInt8) : (bitsOf bytes).length = 8 * bytes.length := by
  induction bytes with
  | nil => rfl
  | cons b bytes ih =>
      rw [bitsOf, List.flatMap_cons, List.length_append, ← bitsOf, ih, byteBits_length,
        List.length_cons]
      omega

theorem bitsOf_xor {d e : List UInt8} (h : d.length = e.length) :
    bitsOf (xorBytes d e) = List.zipWith xor (bitsOf d) (bitsOf e) := by
  induction d generalizing e with
  | nil => rfl
  | cons a d ih =>
      cases e with
      | nil => simp at h
      | cons b e =>
          have hlen : (byteBits a).length = (byteBits b).length := by
            rw [byteBits_length, byteBits_length]
          have hcons := ih (by simpa using h : d.length = e.length)
          simp only [bitsOf, xorBytes, List.zipWith_cons_cons, List.flatMap_cons] at hcons ⊢
          rw [hcons, byteBits_xor, List.zipWith_append hlen]

theorem crcBit_eq_turn (crc : UInt16) :
    (crcBit crc).toBitVec = Crc.turn 0x1021 crc.toBitVec := by
  have hand : (crc &&& 0x8000).toBitVec = if crc.toBitVec.msb then BitVec.twoPow 16 15 else 0#16 :=
    BitVec.and_twoPow crc.toBitVec 15
  have htop : crc &&& 0x8000 ≠ 0 ↔ crc.toBitVec.msb = true := by
    rw [Ne, ← UInt16.toBitVec_inj, hand]
    split <;> simp_all
  rw [crcBit, Crc.turn]
  by_cases h : crc &&& 0x8000 ≠ 0
  · rw [if_pos h, if_pos (htop.mp h)]
    rfl
  · rw [if_neg h, if_neg (mt htop.mpr h)]
    rfl

theorem crcByte_eq_run (crc : UInt16) (b : UInt8) :
    (crcByte crc b).toBitVec = Crc.run 0x1021 crc.toBitVec (byteBits b) := by
  have hword : (b.toUInt16 <<< 8).toBitVec = Crc.place (byteBits b) := by
    apply BitVec.eq_of_getMsbD_eq
    intro i hi
    have hshift : (b.toUInt16 <<< 8).toBitVec.getMsbD i = b.toBitVec.getMsbD i := by
      change (b.toBitVec.setWidth 16 <<< 8).getMsbD i = _
      rw [BitVec.getMsbD_shiftLeft, BitVec.getMsbD_setWidth]
      simp
    rw [Crc.getMsbD_place _ hi, hshift, byteBits]
    by_cases hbyte : i < 8
    · simp [hbyte]
    · rw [BitVec.getMsbD_of_ge _ _ (Nat.le_of_not_lt hbyte)]
      simp [hbyte]
  have hlen : (byteBits b).length ≤ 16 := by rw [byteBits_length]; decide
  rw [Crc.run_eq_turns _ hlen, byteBits_length, ← hword]
  simp only [crcByte, Nat.repeat, crcBit_eq_turn, UInt16.toBitVec_xor]
  rfl

theorem crc16CcittFalse_eq_run (data : List UInt8) (seed : UInt16) :
    (crc16CcittFalse data seed).toBitVec = Crc.run 0x1021 seed.toBitVec (bitsOf data) := by
  induction data generalizing seed with
  | nil => rfl
  | cons b data ih =>
      rw [bitsOf, List.flatMap_cons, Crc.run_append, ← crcByte_eq_run]
      exact ih (crcByte seed b)

/-! ## Bursts -/

/-- An error pattern whose bits, most significant first, lie within 16
consecutive places. -/
def ShortBurst (e : List UInt8) : Prop := Crc.Burst 16 (bitsOf e)

instance (e : List UInt8) : Decidable (ShortBurst e) :=
  inferInstanceAs (Decidable (Crc.Burst 16 (bitsOf e)))

theorem crc16CcittFalse_detects {d e : List UInt8} (hlen : d.length = e.length)
    (he : ShortBurst e) (seed : UInt16) :
    crc16CcittFalse (xorBytes d e) seed ≠ crc16CcittFalse d seed := by
  intro heq
  have hbits : (bitsOf d).length = (bitsOf e).length := by
    rw [bitsOf_length, bitsOf_length, hlen]
  have hrun := congrArg UInt16.toBitVec heq
  rw [crc16CcittFalse_eq_run, crc16CcittFalse_eq_run, bitsOf_xor hlen] at hrun
  exact Crc.run_detects (by decide) hbits he _ hrun

theorem crc16CcittFalseInt_detects {d e : List UInt8} (hlen : d.length = e.length)
    (he : ShortBurst e) (seed : Int) :
    crc16CcittFalseInt (xorBytes d e) seed ≠ crc16CcittFalseInt d seed := by
  have hne : e ≠ [] := by
    rintro rfl
    exact List.not_mem_nil he.1
  obtain ⟨b, e, rfl⟩ := List.exists_cons_of_ne_nil hne
  obtain ⟨a, d, rfl⟩ := List.exists_cons_of_length_eq_add_one hlen
  rw [crc16CcittFalseInt_eq (by simp [xorBytes]), crc16CcittFalseInt_eq (by simp)]
  intro heq
  exact crc16CcittFalse_detects hlen he _ (UInt16.toNat_inj.mp (Int.ofNat_inj.mp heq))

/-- Bytes without an error around a burst do not matter. -/
theorem ShortBurst.of_zeros {m n : Nat} {e : List UInt8}
    (h : ShortBurst (List.replicate m 0 ++ e ++ List.replicate n 0)) : ShortBurst e := by
  obtain ⟨hset, k, hin⟩ := h
  rw [bitsOf_append, bitsOf_append, bitsOf_zeros, bitsOf_zeros] at hset hin
  refine ⟨by simpa using hset, k - 8 * m, fun i hi => ?_⟩
  have hlt : i < (bitsOf e).length := (List.getElem?_eq_some_iff.mp hi).1
  have hplace := hin (8 * m + i) (by
    rw [List.append_assoc, List.getElem?_append_right (by simp), List.length_replicate,
      Nat.add_sub_cancel_left, List.getElem?_append_left hlt, hi])
  omega

/-! ## A burst on a frame -/

theorem xorBytes_length {d e : List UInt8} (h : d.length = e.length) :
    (xorBytes d e).length = d.length := by simp [xorBytes, h]

theorem xorBytes_append {a e : List UInt8} (h : a.length = e.length) (b f : List UInt8) :
    xorBytes (a ++ b) (e ++ f) = xorBytes a e ++ xorBytes b f := List.zipWith_append h

theorem xorBytes_zeros (a : List UInt8) : xorBytes a (List.replicate a.length 0) = a := by
  induction a with
  | nil => rfl
  | cons x a ih =>
      rw [List.length_cons, List.replicate_succ, xorBytes, List.zipWith_cons_cons, ← xorBytes, ih,
        UInt8.xor_zero]

/-- The error lies within `topic_id`, `seq`, `flags` and a payload of
`length` bytes. -/
def BehindLength (length : Nat) (e : List UInt8) : Prop :=
  ∀ i b, e[i]? = some b → b ≠ 0 → 4 ≤ i ∧ i < headerSize + length

instance (length : Nat) (e : List UInt8) : Decidable (BehindLength length e) :=
  decidable_of_iff (∀ i < e.length, e.getD i 0 ≠ 0 → 4 ≤ i ∧ i < headerSize + length) <| by
    simp only [BehindLength, List.getD_eq_getElem?_getD]
    constructor
    · intro h i b hi hb
      exact h i (List.getElem?_eq_some_iff.mp hi).1 (by simpa [hi] using hb)
    · intro h i hi hb
      exact h i e[i] (List.getElem?_eq_getElem hi) (by simpa [hi] using hb)

/-- What is left of a frame whose length and checksum are untouched. -/
theorem xorBytes_frame {topicId : UInt16} {payload frame e : List UInt8} {seq : UInt8}
    (hframe : encodeFrame topicId payload seq = some frame) (hlen : frame.length = e.length)
    (he : BehindLength payload.length e) :
    ∃ mid, e = List.replicate 4 0 ++ mid ++ List.replicate 2 0 ∧
      mid.length = payload.length + 4 ∧
      let length := UInt16.ofNat payload.length
      let tail := putLe16 topicId ++ [seq, 0] ++ payload
      xorBytes frame e = [sync0, sync1] ++ putLe16 length ++ xorBytes tail mid
        ++ putLe16 (crc16CcittFalse (putLe16 length ++ tail) crcSeed) := by
  rw [encodeFrame] at hframe
  split at hframe
  · set length := UInt16.ofNat payload.length
    set tail := putLe16 topicId ++ [seq, 0] ++ payload
    have hbody : putLe16 length ++ putLe16 topicId ++ [seq, 0] ++ payload
        = putLe16 length ++ tail := by simp [tail]
    have hword : frame = ([sync0, sync1] ++ putLe16 length) ++ tail
        ++ putLe16 (crc16CcittFalse (putLe16 length ++ tail) crcSeed) := by
      rw [← Option.some.inj hframe, hbody]
      simp only [List.append_assoc]
    have htail : tail.length = payload.length + 4 := by
      simp [tail]
      omega
    obtain ⟨mid, hmid, rfl⟩ : ∃ mid : List UInt8, mid.length = payload.length + 4 ∧
        e = List.replicate 4 0 ++ mid ++ List.replicate 2 0 := by
      have helen : e.length = payload.length + 10 := by
        rw [← hlen, hword]
        simp [htail]
        omega
      have hsplit := Crc.eq_replicate_around (z := 0) (e := e) (k := 4) (n := payload.length + 4)
        fun i b hi hb => by
          have := he i b hi hb
          rw [headerSize] at this
          omega
      have hfour : (e.take 4).length = 4 := by simp [helen]
      have htwo : ((e.drop 4).drop (payload.length + 4)).length = 2 := by
        rw [List.length_drop, List.length_drop, helen]
        omega
      rw [hfour, htwo] at hsplit
      exact ⟨_, by simp [helen], hsplit⟩
    refine ⟨mid, rfl, hmid, ?_⟩
    have hcut : (([sync0, sync1] ++ putLe16 length) ++ tail).length
        = (List.replicate 4 0 ++ mid : List UInt8).length := by
      simp [htail, hmid]
      omega
    rw [hword, xorBytes_append hcut, xorBytes_append (by simp)]
    congr 1
    · congr 1
      exact xorBytes_zeros ([sync0, sync1] ++ putLe16 length)
    · exact xorBytes_zeros (putLe16 _)
  · cases hframe

/-- The decoder's verdict on a frame with a burst behind its length: the
length is still the one that was sent, and when the link can carry it the
checksum fails. -/
theorem judge_burst {topicId : UInt16} {payload frame e : List UInt8} {seq : UInt8}
    (hframe : encodeFrame topicId payload seq = some frame) (hlen : frame.length = e.length)
    (he : ShortBurst e) (hin : BehindLength payload.length e) (M : Nat) (post : List UInt8) :
    judge M (xorBytes frame e ++ post)
      = .reject (some (if payload.length = 0 ∨ M < payload.length then .badLength else .badCrc))
          2 := by
  obtain ⟨mid, rfl, hmid, hwire⟩ := xorBytes_frame hframe hlen hin
  have hword : (UInt16.ofNat payload.length).toNat = payload.length := by
    refine UInt16.toNat_ofNat_of_lt' ?_
    rw [encodeFrame] at hframe
    split at hframe
    · assumption
    · cases hframe
  set tail := putLe16 topicId ++ [seq, 0] ++ payload
  have htail : tail.length = mid.length := by
    rw [hmid]
    simp [tail]
    omega
  have hcrc := crc16CcittFalse_detects htail he.of_zeros
    (crc16CcittFalse (putLe16 (UInt16.ofNat payload.length)) crcSeed)
  rw [← crc16CcittFalse_append, ← crc16CcittFalse_append] at hcrc
  have hbent : (xorBytes tail mid).length = payload.length + 4 := by
    rw [xorBytes_length htail, htail, hmid]
  rw [hwire]
  rcases hx : xorBytes tail mid with _ | ⟨i0, _ | ⟨i1, _ | ⟨s, _ | ⟨flags, bent⟩⟩⟩⟩
  · simp [hx] at hbent
  · simp [hx] at hbent
  · simp [hx] at hbent
  · simp [hx] at hbent
  · rw [hx] at hcrc hbent
    have hbent' : bent.length = payload.length := by simpa using hbent
    simp only [putLe16, List.cons_append, List.nil_append, judge, judgeBody, and_self, if_true,
      getLe16_putLe16, hword] at hcrc ⊢
    by_cases hbad : payload.length = 0 ∨ M < payload.length
    · rw [if_pos hbad, if_pos hbad]
    · rw [if_neg hbad, if_neg hbad, ← hbent', List.append_assoc, List.drop_left, List.take_left]
      simp only [List.cons_append, getLe16_putLe16]
      rw [hbent', if_neg hcrc]

/-! ## What the decoder makes of it -/

/-- The start of a frame is passed over only inside an earlier candidate:
one that was accepted, or the one still in progress. -/
theorem burst_decided {M : Nat} {stream : List UInt8} {start : Nat}
    (hsync : stream[start]? = some sync0)
    (hdecided : judge M (stream.drop start) ≠ .more) :
    (start, judge M (stream.drop start)) ∈ decisions (recogniser M) 0 stream ∨
      (∃ r f n, (r, .accept f n) ∈ decisions (recogniser M) 0 stream ∧ r < start ∧ start < r + n) ∨
      ∃ r < start, (scan (recogniser M) stream).rest = stream.drop r := by
  rcases decisions_cover (recogniser M) (Nat.zero_le start) stream with
    ⟨v, hv⟩ | ⟨r, v, hv, hr, hsize⟩ | hpending
  · obtain ⟨-, hat⟩ := mem_decisions (recogniser M) hv
    rw [← hat] at hv
    exact Or.inl hv
  · cases v with
    | more => simp [Verdict.size] at hsize; omega
    | accept f n => exact Or.inr (Or.inl ⟨r, f, n, hv, hr, hsize⟩)
    | reject e k =>
        -- only a sync word is skipped by two bytes, and its second byte starts no frame
        exfalso
        obtain ⟨-, hat⟩ := mem_decisions (recogniser M) hv
        rw [Nat.sub_zero] at hat
        rcases judge_reject hat with ⟨-, rfl, -⟩ | ⟨he, rfl, -⟩
        · simp only [Verdict.size] at hsize
          omega
        · obtain ⟨e, rfl⟩ := Option.ne_none_iff_exists'.mp he
          obtain ⟨-, -, body, hbody⟩ := judge_fault hat
          simp only [Verdict.size] at hsize
          obtain rfl : start = r + 1 := by omega
          have hsecond := congrArg (·[1]?) hbody
          simp only [List.getElem?_drop, hsync] at hsecond
          cases hsecond
  · obtain ⟨front, hfront⟩ := scan_rest_suffix (recogniser M) stream
    have hlen := congrArg List.length hfront
    rw [List.length_append] at hlen
    have hdrop : (scan (recogniser M) stream).rest = stream.drop front.length := by
      conv_rhs => rw [← hfront, List.drop_left]
    have hmore := judge_scan_rest (recogniser M) stream
    rw [hdrop] at hmore
    refine Or.inr (Or.inr ⟨front.length, ?_, hdrop⟩)
    by_contra hge
    obtain rfl : front.length = start := by omega
    exact hdecided hmore

/-- Every error within 16 consecutive bits changes the checksum, whatever
the data and the seed. So a frame of `encode_frame` with such an error in
its `topic_id`, `seq`, `flags` and payload, wherever it lies in what a
decoder is fed and however that is cut, is never emitted at its start. If
its payload is one the link carries, a checksum error is counted for it,
unless the decoder never looks there: the start lies inside an earlier
candidate that was emitted or is still incomplete. -/
theorem short_bursts_detected :
    (∀ d e : List UInt8, d.length = e.length → ShortBurst e → ∀ seed : Int,
      crc16CcittFalseInt (xorBytes d e) seed ≠ crc16CcittFalseInt d seed) ∧
    (∀ (M : Nat) (topicId : UInt16) (payload : List UInt8) (seq : UInt8) (frame e : List UInt8),
      encodeFrame topicId payload seq = some frame → frame.length = e.length → ShortBurst e →
      BehindLength payload.length e →
      ∀ (pre post : List UInt8) (chunks : List (List UInt8)),
        chunks.flatten = pre ++ xorBytes frame e ++ post →
        let stream := chunks.flatten
        let places := decisions (recogniser M) 0 stream
        let fed := (FrameDecoder.new M).feedAll chunks
        fed.1 = places.filterMap (·.2.frame?) ∧
        fed.2.crcErrors = (places.filterMap (·.2.fault?)).count .badCrc ∧
        places.Pairwise (·.1 < ·.1) ∧
        (∀ f n, (pre.length, .accept f n) ∉ places) ∧
        (1 ≤ payload.length → payload.length ≤ M →
          (pre.length, .reject (some .badCrc) 2) ∈ places ∨
          (∃ r f n, (r, .accept f n) ∈ places ∧ r < pre.length ∧ pre.length < r + n) ∨
          ∃ r < pre.length, scan (recogniser M) fed.2.buf = .silent (stream.drop r))) := by
  refine ⟨fun d e hlen he seed => crc16CcittFalseInt_detects hlen he seed, ?_⟩
  intro M topicId payload seq frame e hframe hlen he hin pre post chunks hchunks stream places fed
  obtain ⟨hf, hc, -, hrest⟩ := feedAll_spec (FrameDecoder.new M) (scan_nil _) chunks
  have hdrop : stream.drop pre.length = xorBytes frame e ++ post := by
    simp only [stream]
    rw [hchunks, List.append_assoc, List.drop_left]
  have hjudge := judge_burst hframe hlen he hin M post
  rw [← hdrop] at hjudge
  refine ⟨?_, ?_, decisions_sorted _ _ _, fun f n hmem => ?_, fun hpos hle => ?_⟩
  · rw [decisions_frames]
    exact hf
  · rw [decisions_faults]
    exact hc.trans (Nat.zero_add _)
  · obtain ⟨-, hat⟩ := mem_decisions (recogniser M) hmem
    rw [Nat.sub_zero] at hat
    exact nomatch hjudge.symm.trans hat
  · have hsync : stream[pre.length]? = some sync0 := by
      obtain ⟨mid, -, -, hwire⟩ := xorBytes_frame hframe hlen hin
      have hfirst := congrArg (·[0]?) hdrop
      rw [hwire] at hfirst
      simpa [List.getElem?_drop] using hfirst
    rw [if_neg (by omega)] at hjudge
    have hdecided := burst_decided hsync (by rw [hjudge]; nofun)
    rw [hjudge] at hdecided
    rcases hdecided with hmem | hcovered | ⟨r, hr, hpending⟩
    · exact Or.inl hmem
    · exact Or.inr (Or.inl hcovered)
    · exact Or.inr (Or.inr ⟨r, hr, hrest.trans (congrArg Out.silent hpending)⟩)

/-- Three neighbouring bits of a frame at the head of the stream: its
checksum error is counted. -/
theorem short_bursts_detected_first :
    ∃ frame, encodeFrame 8 [1] 42 = some frame ∧
      (0, .reject (some .badCrc) 2) ∈ decisions (recogniser 128) 0
        (xorBytes frame [0, 0, 0, 0, 0, 0, 1, 0xc0, 0, 0, 0]) := by
  obtain ⟨frame, hframe⟩ : ∃ frame, encodeFrame 8 [1] 42 = some frame := ⟨_, rfl⟩
  have hlen : frame.length = 11 := by
    rw [← Option.some.inj hframe]
    rfl
  obtain ⟨-, -, -, -, hcounted⟩ := short_bursts_detected.2 128 8 [1] 42 frame
    [0, 0, 0, 0, 0, 0, 1, 0xc0, 0, 0, 0] hframe hlen (by decide +kernel) (by decide) [] []
    [xorBytes frame [0, 0, 0, 0, 0, 0, 1, 0xc0, 0, 0, 0]] (by simp)
  refine ⟨frame, hframe, ?_⟩
  rw [List.flatten_cons, List.flatten_nil, List.append_nil] at hcounted
  rcases hcounted (by decide) (by decide) with hmem | ⟨r, f, n, -, hr, -⟩ | ⟨r, hr, -⟩
  · exact hmem
  · exact absurd hr (Nat.not_lt_zero r)
  · exact absurd hr (Nat.not_lt_zero r)

/-- Two frames with one bit of their `topic_id` flipped for which no
checksum error is counted: one without a payload, which the decoder rejects
by its length, and one behind a header that announces more than has come
yet. -/
theorem burst_uncounted :
    (let e : List UInt8 := [0, 0, 0, 0, 0x10, 0, 0, 0, 0, 0]
      ∃ frame, encodeFrame 8 [] 42 = some frame ∧ frame.length = e.length ∧ ShortBurst e ∧
        BehindLength 0 e ∧
        ((FrameDecoder.new 128).feedAll [xorBytes frame e]).2.crcErrors = 0) ∧
    (let e : List UInt8 := [0, 0, 0, 0, 0x10, 0, 0, 0, 0, 0, 0]
      ∃ frame, encodeFrame 8 [1] 42 = some frame ∧ frame.length = e.length ∧ ShortBurst e ∧
        BehindLength 1 e ∧
        ((FrameDecoder.new 128).feedAll
          [[sync0, sync1, 20, 0, 8, 0, 0, 0], xorBytes frame e]).2.crcErrors = 0) := by
  refine ⟨⟨_, rfl, by decide +kernel, by decide +kernel, by decide, ?_⟩,
    ⟨_, rfl, by decide +kernel, by decide +kernel, by decide, ?_⟩⟩
  · rw [(feedAll_new 128 _).2]
    decide +kernel
  · rw [(feedAll_new 128 _).2]
    decide +kernel

end Rdd2
