import Rdd2.Dshot
import Rdd2.MotorCommand

/-!
# From motor values to chips

The way of a motor value to the wire: clamped and rounded by
`motor_output.c`, packed and expanded by the driver, and split into the word
that the trigger writes and the word that the interrupt adds. Read back from
the 48 chips, the packet has the throttle of the value.
-/

namespace Rdd2

open Flags

/-! ## Chips -/

/-- The chips of a channel in the order they are sent. -/
def DshotChannel.chips (channel : DshotChannel) : List Bool :=
  (List.range 24).map channel.dataSeg1.getLsbD ++ (List.range 24).map channel.irqData.getLsbD

/-- The three chips of a bit: 1,0,0 or 1,1,0. -/
def chipsOfBit (b : Bool) : List Bool := [true, b, false]

/-- The packet that holds a throttle: eleven bits of it, no telemetry
request, and the checksum over the other twelve bits, complemented for a
bidirectional channel. -/
structure PacketOf (bdshot : Bool) (throttle : Nat) (packet : BitVec 16) : Prop where
  throttle : packet.toNat / 2 ^ 5 = throttle
  telemetry : packet.getLsbD 4 = false
  checksum : ∀ i < 4, packet.getLsbD i =
    ((packet.getLsbD (i + 4) ^^ packet.getLsbD (i + 8) ^^ packet.getLsbD (i + 12)) ^^ bdshot)

/-- The chips read back, most significant bit first, as a packet with the
throttle. -/
def WireReads (bdshot : Bool) (throttle : Nat) (chips : List Bool) : Prop :=
  ∃ packet : BitVec 16, PacketOf bdshot throttle packet ∧
    chips = (List.range 16).flatMap fun m => chipsOfBit (packet.getLsbD (15 - m))

/-! ## Expansion -/

/-- The chips of one turn, before they are shifted to their place. -/
theorem turnChips_getLsbD (b : Bool) (i : Nat) :
    (if b = true then 3 else 1 : BitVec 64).getLsbD i = (decide (i = 0) || (decide (i = 1) && b)) := by
  match i with
  | 0 => cases b <;> rfl
  | 1 => cases b <;> rfl
  | i + 2 =>
      have hsmall (x : Nat) (hx : x < 4) : (BitVec.ofNat 64 x).getLsbD (i + 2) = false := by
        have hpow : 2 ^ 2 ≤ 2 ^ (i + 2) := Nat.pow_le_pow_right (by decide) (by omega)
        rw [BitVec.getLsbD_ofNat, Nat.testBit_lt_two_pow (by omega), Bool.and_false]
      cases b
      · exact hsmall 1 (by decide)
      · exact hsmall 3 (by decide)

/-- `bits` turns put three chips each above what is there. -/
theorem expandFrom_getLsbD (packet : BitVec 16) (bits index : Nat) (expanded : BitVec 64)
    (hbits : bits ≤ 16) (hroom : index + 3 * bits ≤ 64)
    (habove : ∀ i, index ≤ i → expanded.getLsbD i = false) :
    (∀ i < index, (expandFrom packet bits index expanded).getLsbD i = expanded.getLsbD i) ∧
      ∀ m < bits,
        (expandFrom packet bits index expanded).getLsbD (index + 3 * m) = true ∧
        (expandFrom packet bits index expanded).getLsbD (index + 3 * m + 1) =
          packet.getLsbD (bits - 1 - m) ∧
        (expandFrom packet bits index expanded).getLsbD (index + 3 * m + 2) = false := by
  induction bits generalizing index expanded with
  | zero => exact ⟨fun _ _ => rfl, fun m hm => absurd hm (Nat.not_lt_zero m)⟩
  | succ bits ih =>
      have hbit : packet &&& (1#16 <<< bits) ≠ 0 ↔ packet.getLsbD bits = true :=
        and_bit_ne_zero (i := ⟨bits, by omega⟩)
      rw [expandFrom]
      simp only [hbit]
      generalize hnext : (expanded |||
        ((if packet.getLsbD bits = true then 3 else 1 : BitVec 64) <<< index)) = next
      have hat (i : Nat) (hi : i < 64) : next.getLsbD i = (expanded.getLsbD i ||
          (!decide (i < index) &&
            (decide (i - index = 0) || (decide (i - index = 1) && packet.getLsbD bits)))) := by
        rw [← hnext, BitVec.getLsbD_or, BitVec.getLsbD_shiftLeft, turnChips_getLsbD,
          decide_eq_true hi, Bool.true_and]
      have hbelow (i : Nat) (hi : i < index) : next.getLsbD i = expanded.getLsbD i := by
        rw [hat i (by omega)]
        simp [hi]
      have hfirst : next.getLsbD index = true := by
        rw [hat index (by omega)]
        simp
      have hsecond : next.getLsbD (index + 1) = packet.getLsbD bits := by
        rw [hat (index + 1) (by omega), habove _ (by omega)]
        simp
      have hthird (i : Nat) (hi : index + 2 ≤ i) : next.getLsbD i = false := by
        by_cases hlt : i < 64
        · have hne0 : i - index ≠ 0 := by omega
          have hne1 : i - index ≠ 1 := by omega
          rw [hat i hlt, habove i (by omega)]
          simp [hne0, hne1]
        · exact BitVec.getLsbD_of_ge next i (by omega)
      obtain ⟨hkeep, hchips⟩ := ih (index + 3) next (by omega) (by omega) fun i hi => hthird i (by omega)
      refine ⟨fun i hi => (hkeep i (by omega)).trans (hbelow i hi), ?_⟩
      intro m hm
      cases m with
      | zero =>
          refine ⟨(hkeep _ (by omega)).trans hfirst, (hkeep _ (by omega)).trans hsecond,
            (hkeep _ (by omega)).trans (hthird _ (by omega))⟩
      | succ m =>
          have h := hchips m (by omega)
          have hindex : index + 3 * (m + 1) = index + 3 + 3 * m := by omega
          have hbit : bits + 1 - 1 - (m + 1) = bits - 1 - m := by omega
          rw [hindex, hbit]
          exact h

theorem range_map_triples {α : Type*} (f : Nat → α) (k : Nat) :
    (List.range (3 * k)).map f =
      (List.range k).flatMap fun m => [f (3 * m), f (3 * m + 1), f (3 * m + 2)] := by
  induction k with
  | zero => rfl
  | succ k ih =>
      rw [Nat.mul_succ, List.range_succ, List.range_succ, List.range_succ, List.range_succ]
      simp [ih]

theorem expandData_chips (packet : BitVec 16) :
    (List.range 48).map (expandData packet).getLsbD =
      (List.range 16).flatMap fun m => chipsOfBit (packet.getLsbD (15 - m)) := by
  have hchips := (expandFrom_getLsbD packet 16 0 0 (by decide) (by decide)
    fun i _ => BitVec.getLsbD_zero).2
  rw [show 48 = 3 * 16 by rfl, range_map_triples]
  refine List.flatMap_congr fun m hm => ?_
  obtain ⟨hfirst, hsecond, hthird⟩ := hchips m (List.mem_range.mp hm)
  simp only [Nat.zero_add] at hfirst hsecond hthird
  exact congrArg₂ _ hfirst (congrArg₂ _ hsecond (congrArg₂ _ hthird rfl))

theorem chips_of_words {channel : DshotChannel} {expanded : BitVec 64}
    (hdata : channel.dataSeg1 = (expanded &&& 0xFFFFFF).setWidth 32)
    (hirq : channel.irqData = (expanded >>> 24).setWidth 32) :
    channel.chips = (List.range 48).map expanded.getLsbD := by
  have hsplit : List.range 48 = List.range 24 ++ (List.range 24).map (24 + ·) := by decide
  have hlow (i : Nat) (hi : i < 24) : channel.dataSeg1.getLsbD i = expanded.getLsbD i := by
    have hmask : (0xFFFFFF : BitVec 64) = BitVec.ofNat 64 (2 ^ 24 - 1) := rfl
    rw [hdata, BitVec.getLsbD_setWidth, BitVec.getLsbD_and, hmask, BitVec.getLsbD_ofNat,
      Nat.testBit_two_pow_sub_one]
    simp [hi, show i < 32 by omega, show i < 64 by omega]
  have hhigh (i : Nat) (hi : i < 24) : channel.irqData.getLsbD i = expanded.getLsbD (24 + i) := by
    rw [hirq, BitVec.getLsbD_setWidth, BitVec.getLsbD_ushiftRight]
    simp [show i < 32 by omega]
  unfold DshotChannel.chips
  rw [hsplit, List.map_append, List.map_map]
  congr 1
  · exact List.map_congr_left fun i hi => hlow i (List.mem_range.mp hi)
  · exact List.map_congr_left fun i hi => hhigh i (List.mem_range.mp hi)

/-! ## The packet -/

theorem nibble_getLsbD (x : BitVec 16) (i : Nat) :
    (nibble x).getLsbD i = (x.getLsbD i && decide (i < 4)) := by
  have hmask : (0xF : BitVec 16) = BitVec.ofNat 16 (2 ^ 4 - 1) := rfl
  rw [nibble, BitVec.getLsbD_and, hmask, BitVec.getLsbD_ofNat, Nat.testBit_two_pow_sub_one]
  by_cases hi : i < 4
  · simp [hi, show i < 16 by omega]
  · simp [hi]

theorem dshotChecksum_getLsbD (csumData : BitVec 16) {i : Nat} (hi : i < 4) :
    (dshotChecksum csumData).getLsbD i =
      (csumData.getLsbD (i + 4) ^^ csumData.getLsbD (i + 8) ^^ csumData.getLsbD (i + 12)) := by
  unfold dshotChecksum
  simp only [BitVec.getLsbD_xor, nibble_getLsbD, BitVec.getLsbD_ushiftRight, decide_eq_true hi,
    Bool.and_true, Bool.xor_assoc]
  rw [Nat.add_comm 4, Nat.add_comm 8, Nat.add_comm 12]

/-- The packet has the throttle shifted up, and the checksum below it. -/
theorem dshotPacket_getLsbD (bdshot : Bool) (throttle : BitVec 16) (i : Nat) :
    (dshotPacket bdshot throttle false).getLsbD i =
      if i < 4 then
        (dshotChecksum (if bdshot then ~~~(throttle <<< 5) else throttle <<< 5)).getLsbD i
      else (throttle <<< 5).getLsbD i := by
  have hzero : throttle <<< 5 ||| ((if false = true then 1 else 0 : BitVec 16) <<< 4) =
      throttle <<< 5 := BitVec.or_zero
  unfold dshotPacket
  dsimp only
  rw [hzero, BitVec.getLsbD_or, nibble_getLsbD]
  by_cases hi : i < 4
  · have hlow : (throttle <<< 5).getLsbD i = false := by
      rw [BitVec.getLsbD_shiftLeft]
      simp [show i < 5 by omega]
    rw [if_pos hi, hlow, decide_eq_true hi, Bool.and_true, Bool.false_or]
  · rw [if_neg hi, decide_eq_false hi, Bool.and_false, Bool.or_false]

theorem dshotPacket_packetOf (bdshot : Bool) {throttle : BitVec 16}
    (hthrottle : throttle.toNat < 2 ^ 11) :
    PacketOf bdshot throttle.toNat (dshotPacket bdshot throttle false) where
  throttle := by
    have hshift : dshotPacket bdshot throttle false >>> 5 = throttle := by
      refine BitVec.eq_of_getLsbD_eq fun i hi => ?_
      rw [BitVec.getLsbD_ushiftRight, dshotPacket_getLsbD, if_neg (by omega),
        BitVec.getLsbD_shiftLeft]
      by_cases hlow : i < 11
      · simp [show 5 + i < 16 by omega]
      · -- the bits that are shifted out are not set
        have hpow : 2 ^ 11 ≤ 2 ^ i := Nat.pow_le_pow_right (by decide) (by omega)
        have hclear : throttle.getLsbD i = false := Nat.testBit_lt_two_pow (by omega)
        simp [show ¬ 5 + i < 16 by omega, hclear]
    rw [← Nat.shiftRight_eq_div_pow, ← BitVec.toNat_ushiftRight, hshift]
  telemetry := by
    rw [dshotPacket_getLsbD, if_neg (by omega), BitVec.getLsbD_shiftLeft]
    simp
  checksum := by
    intro i hi
    have hbit (k : Nat) (hk : 4 ≤ k) : (dshotPacket bdshot throttle false).getLsbD k =
        (throttle <<< 5).getLsbD k := by
      rw [dshotPacket_getLsbD, if_neg (by omega)]
    rw [dshotPacket_getLsbD, if_pos hi, hbit _ (by omega), hbit _ (by omega), hbit _ (by omega),
      dshotChecksum_getLsbD _ hi]
    cases bdshot with
    | false => simp
    | true =>
        -- three complemented nibbles complement their sum
        have hnot (k : Nat) (hk : k < 16) :
            (~~~(throttle <<< 5)).getLsbD k = !(throttle <<< 5).getLsbD k := by
          rw [BitVec.getLsbD_not, decide_eq_true hk, Bool.true_and]
        rw [if_pos rfl, hnot _ (by omega), hnot _ (by omega), hnot _ (by omega)]
        cases (throttle <<< 5).getLsbD (i + 4) <;> cases (throttle <<< 5).getLsbD (i + 8) <;>
          cases (throttle <<< 5).getLsbD (i + 12) <;> rfl

/-! ## The driver -/

section Driver

variable {n : Nat}

theorem dataSet_channels (cfg : DshotConfig n) (d : DshotData n) (c k : Fin n)
    (hinit : (d.channels c).init = true) (throttle : BitVec 16) (telemetry : Bool) :
    (dataSet cfg d c.val throttle telemetry).channels k =
      if k = c then { d.channels c with
        dataSeg1 := (expandData (dshotPacket (cfg.bdshot c) throttle telemetry) &&&
          0xFFFFFF).setWidth 32
        irqData := (expandData (dshotPacket (cfg.bdshot c) throttle telemetry) >>> 24).setWidth 32
        state := .start } else d.channels k := by
  unfold dataSet
  rw [dif_pos c.isLt]
  dsimp only
  rw [if_pos hinit]
  by_cases hk : k = c
  · subst hk
    rw [if_pos rfl]
    split <;> exact setChannel_same _ _ _
  · rw [if_neg hk]
    split <;> exact setChannel_other _ hk _

theorem dataSet_wire (cfg : DshotConfig n) (d : DshotData n) (c : Fin n)
    (hinit : (d.channels c).init = true) {throttle : BitVec 16} (hthrottle : throttle.toNat < 2 ^ 11) :
    WireReads (cfg.bdshot c) throttle.toNat
      ((dataSet cfg d c.val throttle false).channels c).chips := by
  refine ⟨dshotPacket (cfg.bdshot c) throttle false, dshotPacket_packetOf _ hthrottle, ?_⟩
  rw [dataSet_channels cfg d c c hinit, if_pos rfl, ← expandData_chips]
  exact chips_of_words rfl rfl

theorem trigger_chips (cfg : DshotConfig n) (d : DshotData n) (c : Fin n) :
    ((trigger cfg d).channels c).chips = (d.channels c).chips := by
  refine Loops.foldl_inv (P := fun _ (m : DshotData n) =>
    (m.channels c).chips = (d.channels c).chips) (triggerTurn cfg) rfl ?_
  intro k m hm
  have hcount : ((countNoResponse cfg m k).channels c).chips = (m.channels c).chips := by
    unfold countNoResponse
    split
    · by_cases hc : c = k
      · subst hc
        rw [setChannel_same]
        rfl
      · rw [setChannel_other _ hc]
    · rfl
  unfold triggerTurn
  dsimp only
  split <;> exact hcount.trans hm

/-- A driver whose channels `nxp_flexio_dshot_init` has set up. -/
def DshotData.Ready (d : DshotData n) : Prop := ∀ c, (d.channels c).init = true

theorem dataSet_ready (cfg : DshotConfig n) {d : DshotData n} (h : d.Ready) (c : Fin n)
    (throttle : BitVec 16) (telemetry : Bool) :
    (dataSet cfg d c.val throttle telemetry).Ready := by
  intro k
  rw [dataSet_channels cfg d c k (h c)]
  split
  · exact h c
  · exact h k

theorem dataSetAll_wire (cfg : DshotConfig n) (values : Fin n → BitVec 16)
    (hvalues : ∀ c, (values c).toNat < 2 ^ 11) (cs : List (Fin n)) {d : DshotData n}
    (h : d.Ready) :
    let d' := cs.foldl (fun d c => dataSet cfg d c.val (values c) false) d
    ∀ c, (c ∉ cs → (d'.channels c).chips = (d.channels c).chips) ∧
      (c ∈ cs → WireReads (cfg.bdshot c) (values c).toNat (d'.channels c).chips) := by
  induction cs generalizing d with
  | nil => exact fun c => ⟨fun _ => rfl, fun hc => absurd hc List.not_mem_nil⟩
  | cons k cs ih =>
      intro d' c
      obtain ⟨hout, hin⟩ := ih (dataSet_ready cfg h k (values k) false) c
      constructor
      · intro hc
        rw [List.mem_cons, not_or] at hc
        refine (hout hc.2).trans ?_
        rw [dataSet_channels cfg d k c (h k), if_neg hc.1]
      · intro hc
        by_cases hlater : c ∈ cs
        · exact hin hlater
        · have hck : c = k := (List.mem_cons.mp hc).resolve_right hlater
          subst hck
          have hwire := dataSet_wire cfg d c (h c) (hvalues c)
          rw [← hout hlater] at hwire
          exact hwire

end Driver

/-! ## A motor write -/

/-- What `motor_output.c` asks of the driver. -/
def dshotCall {F : Type} (cfg : DshotConfig 4) (d : DshotData 4) : MotorCall F → DshotData 4
  | .dshotDataSet channel throttle => dataSet cfg d channel.val throttle.toBitVec false
  | .motorOutputPublish _ _ => d
  | .dshotTrigger => trigger cfg d

def dshotCalls {F : Type} (cfg : DshotConfig 4) (d : DshotData 4) (calls : List (MotorCall F)) :
    DshotData 4 :=
  calls.foldl (dshotCall cfg) d

/-- In the DShot build a write leaves the chips of its raw values. -/
theorem motorOutputSend_wire {F : Type} {cfg : DshotConfig 4} {d : DshotData 4} (h : d.Ready)
    {board : Board} (hboard : board.lockstep = false) (clock : MotorClock) {raw : MotorRaw}
    (hraw : ∀ c, (raw c).toNat < 2 ^ 11) (applied : MotorValues F) (armed : Bool) (c : Fin 4) :
    WireReads (cfg.bdshot c) (raw c).toNat
      ((dshotCalls cfg d (motorOutputSend board clock raw applied armed).1).channels c).chips := by
  have hset := (dataSetAll_wire cfg (fun c => (raw c).toBitVec) hraw
    (List.finRange 4) h c).2 (List.mem_finRange c)
  have hpublish (m : DshotData 4) :
      dshotCalls cfg m (motorOutputPublish board applied armed) = m := by
    unfold motorOutputPublish
    split <;> rfl
  unfold motorOutputSend dshotDataSetAll motorOutputTriggerAndTimestamp dshotCalls
  rw [hboard]
  dsimp only
  rw [if_neg Bool.false_ne_true, if_neg Bool.false_ne_true, List.foldl_append, List.foldl_append,
    List.foldl_map]
  show WireReads _ _ ((trigger cfg (dshotCalls cfg _ _)).channels c).chips
  rw [hpublish, trigger_chips]
  exact hset

def throttleOf (armed : Bool) : RatNan → Nat
  | .nan => 0
  | .rat q => if armed = true ∧ 0 < q then dshotOf (unitClamp q) else 0

theorem throttleOf_rat (armed : Bool) (q : Rat) :
    throttleOf armed (.rat q) =
      if armed = true ∧ 0 < q then dshotOf (unitClamp q) else 0 := rfl

structure ThrottleSpec (throttle : Bool → RatNan → Nat) : Prop where
  unarmed : ∀ value, throttle false value = 0
  nan : ∀ armed, throttle armed .nan = 0
  notPositive : ∀ armed q, q ≤ 0 → throttle armed (.rat q) = 0
  positive : ∀ q, 0 < q → 48 ≤ throttle true (.rat q) ∧ throttle true (.rat q) ≤ 2047
  mono : ∀ q r, q ≤ r → throttle true (.rat q) ≤ throttle true (.rat r)
  full : ∀ q, 1 ≤ q → throttle true (.rat q) = 2047

theorem throttleOf_spec : ThrottleSpec throttleOf where
  unarmed := by
    intro value
    cases value with
    | nan => rfl
    | rat q =>
        rw [throttleOf_rat]
        exact if_neg fun h => Bool.noConfusion h.1
  nan := fun _ => rfl
  notPositive := fun _ _ hq => if_neg fun h => absurd h.2 (not_lt.mpr hq)
  positive := by
    intro q hq
    obtain ⟨h0, h1⟩ := unitClamp_mem q
    rw [throttleOf_rat, if_pos ⟨rfl, hq⟩]
    exact dshotOf_mem h0 h1
  mono := by
    intro q r hqr
    rw [throttleOf_rat, throttleOf_rat]
    by_cases hq : 0 < q
    · rw [if_pos ⟨rfl, hq⟩, if_pos ⟨rfl, lt_of_lt_of_le hq hqr⟩]
      exact dshotOf_mono (unitClamp_mem q).1 (unitClamp_mono hqr)
    · rw [if_neg fun h => hq h.2]
      exact Nat.zero_le _
  full := by
    intro q hq
    rw [throttleOf_rat, if_pos ⟨rfl, lt_of_lt_of_le (by norm_num) hq⟩, unitClamp_of_one_le hq]
    exact dshotOf_one

theorem rawValue_toNat (armed testMode : Bool) (value : RatNan) :
    (rawValue armed testMode value).toNat = throttleOf armed value := by
  cases armed with
  | false =>
      rw [rawValue_unarmed, throttleOf_spec.unarmed]
      rfl
  | true =>
      cases value with
      | nan =>
          rw [rawValue_nan]
          rfl
      | rat q =>
          obtain ⟨h0, h1⟩ := unitClamp_mem q
          have hmem := (dshotOf_mem h0 h1).2
          rw [rawValue_rat, throttleOf_rat]
          by_cases hq : 0 < q
          · rw [if_pos hq, if_pos ⟨rfl, hq⟩, UInt16.toNat_ofNat']
            omega
          · rw [if_neg hq, if_neg fun h => hq h.2]
            rfl

/-- On every channel of a driver that is ready, the chips that a motor write
leaves are a packet with the throttle of the channel's value. -/
theorem motor_command_on_wire (cfg : DshotConfig 4) (d : DshotData 4) (h : d.Ready)
    (pubReady atTarget : Bool) (clock : MotorClock) (motors : MotorValues RatNan)
    (armed testMode : Bool) :
    ThrottleSpec throttleOf ∧ ∀ c, WireReads (cfg.bdshot c) (throttleOf armed (motors c))
      ((dshotCalls cfg d
        (motorOutputWriteAll ⟨false, pubReady⟩ atTarget clock motors armed testMode).1).channels
          c).chips := by
  refine ⟨throttleOf_spec, fun c => ?_⟩
  have hraw (k : Fin 4) : (rawValue armed testMode (motors k)).toNat < 2 ^ 11 := by
    rw [rawValue_toNat]
    unfold throttleOf
    split
    · exact Nat.two_pow_pos 11
    · rename_i q _
      split
      · have hmem := dshotOf_mem (unitClamp_mem q).1 (unitClamp_mem q).2
        omega
      · exact Nat.two_pow_pos 11
  rw [motorOutputWriteAll_eq, Bool.false_and, if_neg Bool.false_ne_true, ← rawValue_toNat armed
    testMode]
  exact motorOutputSend_wire h rfl clock hraw _ armed c

/-- Four channels on the first shifters and timers, two of them
bidirectional. -/
def DshotConfig.quad : DshotConfig 4 where
  shifterIndex := fun c => ⟨c.val, by omega⟩
  timerIndex := fun c => ⟨c.val, by omega⟩
  bdshot := fun c => decide (c.val < 2)
  shifter_injective := fun a b h => Fin.ext (Fin.mk.inj h)
  timer_injective := fun a b h => Fin.ext (Fin.mk.inj h)

theorem dshotInit_ready {n : Nat} (cfg : DshotConfig n) : (dshotInit cfg).Ready := fun _ => rfl

theorem motor_command_on_wire_quad :
    ThrottleSpec throttleOf ∧ ∀ c, WireReads (DshotConfig.quad.bdshot c)
      (throttleOf true ((fun c => .rat (c.val / 2) : MotorValues RatNan) c))
      ((dshotCalls .quad (dshotInit .quad) (motorOutputWriteAll ⟨false, true⟩ true ⟨0, 0⟩
        (fun c => .rat (c.val / 2) : MotorValues RatNan) true false).1).channels c).chips :=
  motor_command_on_wire .quad (dshotInit .quad) (dshotInit_ready .quad) true true ⟨0, 0⟩
    (fun c => .rat (c.val / 2)) true false

end Rdd2
