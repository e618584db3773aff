import Mathlib.Algebra.Order.Field.Rat
import Mathlib.Algebra.Order.Group.Unbundled.Abs
import Mathlib.Tactic.IntervalCases
import Mathlib.Tactic.Linarith
import Mathlib.Tactic.FieldSimp
import Rdd2.Dshot

/-!
# Bidirectional DShot telemetry

`up_bdshot_decode_erpm`: a reply is inverted, decoded from its run lengths
and from the group code, checked, and turned from a period into a speed.
Nothing rules out a period so short that the division traps or its result
is cut to 16 bits, and where that happens is found exactly.
-/

namespace Rdd2

open Flags

/-! ## Decoding -/

/-- `gcr_decode` -/
def gcrDecodeTable : List Word :=
  [0x0, 0x0, 0x0, 0x0, 0x0, 0x0, 0x0, 0x0, 0x0, 0x9, 0xA, 0xB, 0x0, 0xD, 0xE, 0xF,
    0x0, 0x0, 0x2, 0x3, 0x0, 0x5, 0x6, 0x7, 0x0, 0x0, 0x8, 0x1, 0x0, 0x4, 0xC, 0x0]

/-- `gcr_decode[symbol & 0x1f]` -/
def gcrDecode (symbol : Word) : Word := gcrDecodeTable.getD (symbol &&& 0x1F).toNat 0

/-- What the checks make of a raw response: it fails the one or the other,
or it is a code of twelve bits. -/
inductive Reply where
  | frameError
  | crcError
  | code (decodeData : Word)
  deriving DecidableEq, Repr

def decodeReply (rawResponse : Word) : Reply :=
  let value := ~~~rawResponse &&& 0xFFFFF
  if value &&& 1 ≠ 0 then
    let value := value ^^^ (value >>> 1)
    let decodeData := gcrDecode value ||| (gcrDecode (value >>> 5) <<< 4) |||
      (gcrDecode (value >>> 10) <<< 8) ||| (gcrDecode (value >>> 15) <<< 12)
    let csumData := decodeData ^^^ (decodeData >>> 8)
    let csumData := csumData ^^^ (csumData >>> 4)
    if csumData &&& 0xF ≠ 0xF then .crcError else .code ((decodeData >>> 4) &&& 0xFFF)
  else .frameError

/-- `period << exponent` in 16 bits -/
def codePeriod (decodeData : Word) : BitVec 16 :=
  let exponent : BitVec 8 := ((decodeData >>> 9) &&& 0x7).setWidth 8
  let period : BitVec 16 := (decodeData &&& 0x1FF).setWidth 16
  (period.setWidth 32 <<< exponent.toNat).setWidth 16

/-- The `erpm` of a code, in 16 bits; `none` where the code divides by
zero. -/
def codeErpm (decodeData : Word) : Option (BitVec 16) :=
  if decodeData = 0xFFF then some 0
  else
    let period : Word := (codePeriod decodeData).setWidth 32
    if period = 0 then none
    else some (((1000000 * 60 / 100 + period / 2) / period).setWidth 16)

/-- A received channel after its turn, and whether its parsed bit is set. -/
def decodeChannel (channel : DshotChannel) : Option (DshotChannel × Bool) :=
  match decodeReply channel.rawResponse with
  | .frameError => some ({ channel with frameErrorCnt := channel.frameErrorCnt + 1 }, false)
  | .crcError => some ({ channel with crcErrorCnt := channel.crcErrorCnt + 1 }, false)
  | .code decodeData =>
      (codeErpm decodeData).map fun erpm =>
        ({ channel with erpm := erpm, lastNoResponseCnt := channel.noResponseCnt }, true)

section Loop

variable {n : Nat}

/-- A turn of the loop in `up_bdshot_decode_erpm`. -/
def decodeTurn (cfg : DshotConfig n) (d : DshotData n) (c : Fin n) : Option (DshotData n) :=
  if d.bdshotRecvMask &&& bit (cfg.shifterIndex c) ≠ 0 then
    (decodeChannel (d.channels c)).map fun decoded =>
      let d := d.setChannel c decoded.1
      if decoded.2 then
        { d with bdshotParsedRecvMask := d.bdshotParsedRecvMask ||| bit (cfg.number c) }
      else d
  else some d

/-- `up_bdshot_decode_erpm` with its answer; `none` where it traps. -/
def upBdshotDecodeErpm (cfg : DshotConfig n) (d : DshotData n) : Option (DshotData n × Bool) :=
  (Fin.foldlM n (decodeTurn cfg) { d with bdshotParsedRecvMask := 0 }).map fun d =>
    (d, decide (d.bdshotParsedRecvMask ≠ 0))

end Loop

/-! ## One reply -/

/-- The period of a code: nine bits of mantissa under three of exponent. -/
def replyPeriod (decodeData : Word) : Nat :=
  (decodeData.toNat % 2 ^ 9) * 2 ^ (decodeData.toNat / 2 ^ 9 % 2 ^ 3)

/-- `erpm` is the integer nearest to `600000 / period`. -/
def NearestErpm (erpm period : Nat) : Prop := |(erpm : Rat) - 600000 / period| ≤ 1 / 2

theorem nearestErpm_iff {erpm period : Nat} (h : 0 < period) :
    NearestErpm erpm period ↔
      2 * (erpm * period) ≤ 1200000 + period ∧ 1200000 ≤ 2 * (erpm * period) + period := by
  have hpos : (0 : Rat) < period := Nat.cast_pos.mpr h
  have hscale : (erpm : Rat) - 600000 / period = (erpm * period - 600000) / period := by
    field_simp
  unfold NearestErpm
  rw [hscale, abs_le, le_div_iff₀ hpos, div_le_iff₀ hpos, ← Nat.cast_le (α := Rat),
    ← Nat.cast_le (α := Rat)]
  push_cast
  constructor
  · rintro ⟨hlow, hhigh⟩
    exact ⟨by linarith, by linarith⟩
  · rintro ⟨hhigh, hlow⟩
    exact ⟨by linarith, by linarith⟩

theorem replyPeriod_le (decodeData : Word) : replyPeriod decodeData ≤ 511 * 2 ^ 7 := by
  unfold replyPeriod
  have hmantissa : decodeData.toNat % 2 ^ 9 ≤ 511 := by omega
  have hexponent : 2 ^ (decodeData.toNat / 2 ^ 9 % 2 ^ 3) ≤ 2 ^ 7 :=
    Nat.pow_le_pow_right (by decide) (by omega)
  exact Nat.mul_le_mul hmantissa hexponent

/-- Neither the shift nor the cast loses a bit. -/
theorem codePeriod_toNat (decodeData : Word) :
    (codePeriod decodeData).toNat = replyPeriod decodeData := by
  have hle := replyPeriod_le decodeData
  have hexponent : (((decodeData >>> 9) &&& 0x7).setWidth 8).toNat =
      decodeData.toNat / 2 ^ 9 % 2 ^ 3 := by
    rw [BitVec.toNat_setWidth, BitVec.toNat_and, BitVec.toNat_ushiftRight,
      Nat.shiftRight_eq_div_pow]
    show (decodeData.toNat / 2 ^ 9 &&& 2 ^ 3 - 1) % 2 ^ 8 = _
    rw [Nat.and_two_pow_sub_one_eq_mod]
    omega
  have hmantissa : ((decodeData &&& 0x1FF).setWidth 16).toNat = decodeData.toNat % 2 ^ 9 := by
    rw [BitVec.toNat_setWidth, BitVec.toNat_and]
    show (decodeData.toNat &&& 2 ^ 9 - 1) % 2 ^ 16 = _
    rw [Nat.and_two_pow_sub_one_eq_mod]
    omega
  unfold codePeriod
  rw [BitVec.toNat_setWidth, BitVec.toNat_shiftLeft, BitVec.toNat_setWidth, hmantissa, hexponent,
    Nat.shiftLeft_eq]
  unfold replyPeriod at hle ⊢
  rw [Nat.mod_eq_of_lt (show decodeData.toNat % 2 ^ 9 < 2 ^ 32 by omega)]
  omega

/-- What is stored, and where the division traps. -/
theorem codeErpm_eq {decodeData : Word} (hcode : decodeData ≠ 0xFFF) :
    codeErpm decodeData =
      if replyPeriod decodeData = 0 then none
      else some (BitVec.ofNat 16
        ((600000 + replyPeriod decodeData / 2) / replyPeriod decodeData)) := by
  have hle := replyPeriod_le decodeData
  have hperiod : ((codePeriod decodeData).setWidth 32).toNat = replyPeriod decodeData := by
    rw [BitVec.toNat_setWidth, codePeriod_toNat]
    omega
  unfold codeErpm
  rw [if_neg hcode]
  have hzero : (codePeriod decodeData).setWidth 32 = 0 ↔ replyPeriod decodeData = 0 := by
    rw [← BitVec.toNat_inj, hperiod]
    rfl
  have hconst : (1000000 * 60 / 100 : Word) = 600000#32 := by decide
  have hsum : (600000#32 + (codePeriod decodeData).setWidth 32 / 2).toNat =
      600000 + replyPeriod decodeData / 2 := by
    rw [BitVec.toNat_add, BitVec.toNat_udiv, hperiod]
    show (600000 + replyPeriod decodeData / 2) % 2 ^ 32 = _
    omega
  by_cases h : replyPeriod decodeData = 0
  · rw [if_pos (hzero.mpr h), if_pos h]
  · rw [if_neg (mt hzero.mp h), if_neg h, hconst, Option.some_inj, ← BitVec.toNat_inj,
      BitVec.toNat_setWidth, BitVec.toNat_udiv, hsum, hperiod, BitVec.toNat_ofNat]

theorem nearestErpm_div {period : Nat} (h : 0 < period) :
    NearestErpm ((600000 + period / 2) / period) period := by
  rw [nearestErpm_iff h]
  have hdiv := Nat.div_add_mod (600000 + period / 2) period
  have hmod := Nat.mod_lt (600000 + period / 2) h
  rw [Nat.mul_comm] at hdiv
  generalize (600000 + period / 2) / period * period = product at hdiv
  omega

/-- What is stored is the nearest integer if no more than 16 bits are
needed, which takes a period of 10 at least. -/
theorem nearestErpm_ofNat_iff {period : Nat} (h : 0 < period) :
    NearestErpm (BitVec.ofNat 16 ((600000 + period / 2) / period)).toNat period ↔ 10 ≤ period := by
  rw [BitVec.toNat_ofNat]
  constructor
  · intro hnear
    by_contra hshort
    have hlt := Nat.mod_lt ((600000 + period / 2) / period) (Nat.two_pow_pos 16)
    generalize (600000 + period / 2) / period % 2 ^ 16 = erpm at hnear hlt
    rw [nearestErpm_iff h] at hnear
    have hperiod : period ≤ 9 := by omega
    interval_cases period <;> omega
  · intro hlong
    have hfits : (600000 + period / 2) / period < 2 ^ 16 := by
      rw [Nat.div_lt_iff_lt_mul h]
      omega
    rw [Nat.mod_eq_of_lt hfits]
    exact nearestErpm_div h

/-- What decoding a reply has to do to its channel and its parsed bit. -/
def ReplySafe (before after : DshotChannel) (parsed : Bool) : Prop :=
  match decodeReply before.rawResponse with
  | .frameError =>
      after = { before with frameErrorCnt := before.frameErrorCnt + 1 } ∧ parsed = false
  | .crcError => after = { before with crcErrorCnt := before.crcErrorCnt + 1 } ∧ parsed = false
  | .code decodeData =>
      (if decodeData = 0xFFF then after.erpm = 0
        else NearestErpm after.erpm.toNat (replyPeriod decodeData)) ∧ parsed = true

/-- The reply does not pass the checks with a period below 10. -/
def PeriodFits (rawResponse : Word) : Prop :=
  ∀ decodeData, decodeReply rawResponse = .code decodeData → decodeData ≠ 0xFFF →
    10 ≤ replyPeriod decodeData

theorem decodeChannel_safe_iff (channel : DshotChannel) :
    (∃ after parsed, decodeChannel channel = some (after, parsed) ∧
      ReplySafe channel after parsed) ↔ PeriodFits channel.rawResponse := by
  unfold decodeChannel ReplySafe PeriodFits
  cases hreply : decodeReply channel.rawResponse with
  | frameError => simp
  | crcError => simp
  | code decodeData =>
      by_cases hstopped : decodeData = 0xFFF
      · simp [hstopped, codeErpm]
      · have hfits : (∀ data, Reply.code decodeData = .code data → data ≠ 0xFFF →
            10 ≤ replyPeriod data) ↔ 10 ≤ replyPeriod decodeData := by
          constructor
          · intro h
            exact h decodeData rfl hstopped
          · intro h data hdata _
            cases hdata
            exact h
        rw [hfits]
        dsimp only
        rw [codeErpm_eq hstopped]
        by_cases hzero : replyPeriod decodeData = 0
        · simp [hzero]
        · rw [if_neg hzero, ← nearestErpm_ofNat_iff (Nat.pos_of_ne_zero hzero)]
          constructor
          · rintro ⟨after, parsed, hdecoded, hsafe, -⟩
            cases hdecoded
            rw [if_neg hstopped] at hsafe
            exact hsafe
          · intro h
            exact ⟨_, _, rfl, by rw [if_neg hstopped]; exact h, rfl⟩

/-! ## All channels -/

section All

variable {n : Nat}

/-- What a channel is after the loop, `parsed` being its parsed bit. -/
def DecodedTo (cfg : DshotConfig n) (d : DshotData n) (c : Fin n) (after : DshotChannel)
    (parsed : Bool) : Prop :=
  if has d.bdshotRecvMask (cfg.shifterIndex c) = true then
    decodeChannel (d.channels c) = some (after, parsed)
  else after = d.channels c ∧ parsed = false

structure DecodedUpTo (cfg : DshotConfig n) (d : DshotData n) (k : Nat) (m : DshotData n) :
    Prop where
  recvMask : m.bdshotRecvMask = d.bdshotRecvMask
  later : ∀ c : Fin n, k ≤ c.val →
    m.channels c = d.channels c ∧ has m.bdshotParsedRecvMask (cfg.number c) = false
  done : ∀ c : Fin n, c.val < k →
    DecodedTo cfg d c (m.channels c) (has m.bdshotParsedRecvMask (cfg.number c))

theorem DecodedUpTo.turn {cfg : DshotConfig n} {d m m' : DshotData n} {c : Fin n}
    (h : DecodedUpTo cfg d c.val m) (hmask : m'.bdshotRecvMask = m.bdshotRecvMask)
    (hothers : ∀ k, k ≠ c → m'.channels k = m.channels k ∧
      has m'.bdshotParsedRecvMask (cfg.number k) = has m.bdshotParsedRecvMask (cfg.number k))
    (hc : DecodedTo cfg d c (m'.channels c) (has m'.bdshotParsedRecvMask (cfg.number c))) :
    DecodedUpTo cfg d (c.val + 1) m' where
  recvMask := hmask.trans h.recvMask
  later := by
    intro k hk
    obtain ⟨hchannel, hparsed⟩ := hothers k (by rintro rfl; omega)
    rw [hchannel, hparsed]
    exact h.later k (by omega)
  done := by
    intro k hk
    rcases eq_or_ne k c with rfl | hne
    · exact hc
    · obtain ⟨hchannel, hparsed⟩ := hothers k hne
      have hlt : k.val < c.val :=
        Nat.lt_of_le_of_ne (Nat.le_of_lt_succ hk) (Fin.val_ne_of_ne hne)
      rw [hchannel, hparsed]
      exact h.done k hlt

theorem decodeTurn_eq (cfg : DshotConfig n) (m : DshotData n) (c : Fin n) :
    decodeTurn cfg m c =
      if has m.bdshotRecvMask (cfg.shifterIndex c) = true then
        (decodeChannel (m.channels c)).map fun decoded =>
          { m.setChannel c decoded.1 with
            bdshotParsedRecvMask := if decoded.2 then
              m.bdshotParsedRecvMask ||| bit (cfg.number c) else m.bdshotParsedRecvMask }
      else some m := by
  unfold decodeTurn
  by_cases h : has m.bdshotRecvMask (cfg.shifterIndex c) = true
  · rw [if_pos (and_bit_ne_zero.mpr h), if_pos h]
    congr 1
    funext decoded
    cases decoded.2 <;> rfl
  · rw [if_neg (mt and_bit_ne_zero.mp h), if_neg h]

theorem decodeTurn_step {cfg : DshotConfig n} {d m m' : DshotData n} {c : Fin n}
    (h : DecodedUpTo cfg d c.val m) (hstep : decodeTurn cfg m c = some m') :
    DecodedUpTo cfg d (c.val + 1) m' := by
  obtain ⟨hchannel, hclear⟩ := h.later c (Nat.le_refl _)
  rw [decodeTurn_eq, h.recvMask, hchannel] at hstep
  split at hstep
  · rename_i hreceived
    obtain ⟨⟨after, parsed⟩, hdecoded, rfl⟩ := Option.map_eq_some_iff.mp hstep
    refine h.turn rfl ?_ ?_
    · intro k hk
      refine ⟨setChannel_other m hk after, ?_⟩
      cases parsed <;> simp [number_inj, Ne.symm hk]
    · have hparsed : has (if parsed then m.bdshotParsedRecvMask ||| bit (cfg.number c)
          else m.bdshotParsedRecvMask) (cfg.number c) = parsed := by
        cases parsed <;> simp [hclear]
      unfold DecodedTo
      rw [if_pos hreceived, hdecoded]
      simp only [hparsed]
      rw [show (m.setChannel c after).channels c = after from setChannel_same m c after]
  · rename_i hquiet
    cases hstep
    refine h.turn rfl (fun k _ => ⟨rfl, rfl⟩) ?_
    unfold DecodedTo
    rw [if_neg hquiet]
    exact ⟨hchannel, hclear⟩

theorem decodedUpTo_zero (cfg : DshotConfig n) (d : DshotData n) :
    DecodedUpTo cfg d 0 { d with bdshotParsedRecvMask := 0 } where
  recvMask := rfl
  later := fun _ _ => ⟨rfl, has_zero _⟩
  done := fun _ hc => absurd hc (Nat.not_lt_zero _)

/-- Every channel is decoded by itself, and a trap of one is a trap of
all. -/
theorem upBdshotDecodeErpm_spec {cfg : DshotConfig n} {d d' : DshotData n} {answer : Bool}
    (h : upBdshotDecodeErpm cfg d = some (d', answer)) (c : Fin n) :
    DecodedTo cfg d c (d'.channels c) (has d'.bdshotParsedRecvMask (cfg.number c)) := by
  obtain ⟨m, hm, heq⟩ := Option.map_eq_some_iff.mp h
  cases heq
  exact (Loops.foldlM_inv _ (decodedUpTo_zero cfg d) (fun _ _ _ hP hb => decodeTurn_step hP hb)
    hm).done c c.isLt

theorem upBdshotDecodeErpm_returns {cfg : DshotConfig n} {d : DshotData n}
    (h : ∀ c, has d.bdshotRecvMask (cfg.shifterIndex c) = true →
      ∃ decoded, decodeChannel (d.channels c) = some decoded) :
    ∃ d' answer, upBdshotDecodeErpm cfg d = some (d', answer) := by
  have hloop := Loops.foldlM_returns (P := DecodedUpTo cfg d) (decodeTurn cfg)
    (decodedUpTo_zero cfg d) (by
      intro c m hm
      have hturn : ∃ m', decodeTurn cfg m c = some m' := by
        rw [decodeTurn_eq, hm.recvMask, (hm.later c (Nat.le_refl _)).1]
        split
        · rename_i hreceived
          obtain ⟨decoded, hdecoded⟩ := h c hreceived
          exact ⟨_, by rw [hdecoded]; rfl⟩
        · exact ⟨m, rfl⟩
      exact hturn.imp fun m' hm' => ⟨hm', decodeTurn_step hm hm'⟩)
  obtain ⟨m, hm⟩ := hloop
  exact ⟨m, _, by rw [upBdshotDecodeErpm, hm]; rfl⟩

/-- The decoder returns; every received channel is decoded as it should be,
and nothing happens to the others. -/
def TelemetrySafe (cfg : DshotConfig n) (d : DshotData n) : Prop :=
  ∃ d' answer, upBdshotDecodeErpm cfg d = some (d', answer) ∧
    ∀ c, if has d.bdshotRecvMask (cfg.shifterIndex c) = true then
        ReplySafe (d.channels c) (d'.channels c) (has d'.bdshotParsedRecvMask (cfg.number c))
      else d'.channels c = d.channels c ∧ has d'.bdshotParsedRecvMask (cfg.number c) = false

/-- Decoding is safe exactly if no received reply passes the checks with a
period below 10. -/
theorem telemetry_safe_iff (cfg : DshotConfig n) (d : DshotData n) :
    TelemetrySafe cfg d ↔
      ∀ c, has d.bdshotRecvMask (cfg.shifterIndex c) = true →
        PeriodFits (d.channels c).rawResponse := by
  constructor
  · rintro ⟨d', answer, hrun, hsafe⟩ c hreceived
    have hdecoded := upBdshotDecodeErpm_spec hrun c
    have hsafe := hsafe c
    unfold DecodedTo at hdecoded
    rw [if_pos hreceived] at hdecoded hsafe
    exact (decodeChannel_safe_iff _).mp ⟨_, _, hdecoded, hsafe⟩
  · intro hfits
    have hreturns (c : Fin n) (hreceived : has d.bdshotRecvMask (cfg.shifterIndex c) = true) :=
      (decodeChannel_safe_iff (d.channels c)).mpr (hfits c hreceived)
    have hreturn : ∃ d' answer, upBdshotDecodeErpm cfg d = some (d', answer) := by
      refine upBdshotDecodeErpm_returns fun c hc => ?_
      obtain ⟨after, parsed, hdecoded, -⟩ := hreturns c hc
      exact ⟨_, hdecoded⟩
    obtain ⟨d', answer, hrun⟩ := hreturn
    refine ⟨d', answer, hrun, fun c => ?_⟩
    have hdecoded := upBdshotDecodeErpm_spec hrun c
    unfold DecodedTo at hdecoded
    split at hdecoded
    · rename_i hreceived
      obtain ⟨after, parsed, hother, hsafe⟩ := hreturns c hreceived
      rw [if_pos hreceived]
      rw [hdecoded] at hother
      cases hother
      exact hsafe
    · rename_i hquiet
      rw [if_neg hquiet]
      exact hdecoded

def received (rawResponse : Word) : DshotData 1 :=
  { dshotInit .sameIndex with
    channels := fun _ => { init := true, state := .receiveComplete, rawResponse := rawResponse }
    bdshotRecvMask := 1 }

/-- Two words that pass the checks: a code with mantissa 0 traps, and one
with period 1 is stored as 10176 instead of 600000. -/
theorem short_period_misread :
    (¬ TelemetrySafe .sameIndex (received 0x745CA)) ∧
      upBdshotDecodeErpm .sameIndex (received 0x745CA) = none ∧
      (upBdshotDecodeErpm .sameIndex (received 0x745B4)).map (fun r => (r.1.channels 0).erpm) =
        some 10176 := by
  have htrap : upBdshotDecodeErpm .sameIndex (received 0x745CA) = none :=
    Option.isNone_iff_eq_none.mp (by decide +kernel)
  refine ⟨?_, htrap, by decide +kernel⟩
  rintro ⟨d', answer, hrun, -⟩
  rw [htrap] at hrun
  cases hrun

end All

end Rdd2
