import Mathlib.Algebra.Order.Group.Unbundled.Abs
import Rdd2.MotorCommand

/-!
# The published PWM output

`rdd2_topic_make_pwm_output` clamps and rounds the applied values once more,
with another clamp than `motor_output.c` has. For values that compare, its
pulse widths and the DShot values agree within a thousandth of the range. A
NaN passes the one clamp and is full throttle to the other.
-/

namespace Rdd2

/-- `synapse_topic_PwmSignalOutputsData_t`, as far as it is filled in. -/
structure PwmSignalOutputs where
  timestampUs : UInt64
  activeMask : UInt16
  outputUs : Fin 4 → UInt16

section Topic

variable {F : Type} [CFloat F]

/-- Zephyr's `CLAMP` -/
def clampMacro (value low high : F) : F :=
  if CFloat.le value low then low else if CFloat.lt value high then value else high

/-- `pwm[i]` -/
def pwmUs (value : F) (armed : Bool) : UInt16 :=
  let value := if armed then clampMacro value (CFloat.lit 0) (CFloat.lit 1) else CFloat.lit 0
  CFloat.toUInt16 (CFloat.add (CFloat.add (CFloat.lit 1000) (CFloat.mul value (CFloat.lit 1000)))
    (CFloat.lit (1 / 2)))

/-- `rdd2_topic_make_pwm_output` -/
def makePwmOutput (uptimeMs : UInt64) (motors : MotorValues F) (armed : Bool) :
    PwmSignalOutputs where
  timestampUs := uptimeMs * 1000
  activeMask := 0x0F
  outputUs := fun i => pwmUs (motors i) armed

end Topic

/-! ## Closed forms -/

theorem clampMacro_nan : clampMacro RatNan.nan (CFloat.lit 0) (CFloat.lit 1) = .rat 1 := rfl

theorem clampMacro_rat (q : Rat) :
    clampMacro (RatNan.rat q) (CFloat.lit 0) (CFloat.lit 1) = .rat (unitClamp q) := by
  show (if decide (q ≤ 0) = true then RatNan.rat 0
    else if decide (q < 1) = true then RatNan.rat q else RatNan.rat 1) = _
  unfold unitClamp
  by_cases hlow : q ≤ 0
  · rw [if_pos (decide_eq_true hlow), min_eq_left (by linarith), max_eq_left hlow]
  · rw [if_neg (by simpa using hlow)]
    by_cases hhigh : q < 1
    · rw [if_pos (decide_eq_true hhigh), min_eq_left hhigh.le, max_eq_right (not_le.mp hlow).le]
    · rw [if_neg (by simpa using hhigh), min_eq_right (not_lt.mp hhigh),
        max_eq_right (by norm_num)]

/-- The pulse width of a throttle, before it is cut to 16 bits. -/
def pwmOf (throttle : Rat) : Nat := (1000 + throttle * 1000 + 1 / 2).floor.toNat

theorem pwmOf_bounds {throttle : Rat} (h : 0 ≤ throttle) :
    (pwmOf throttle : Rat) ≤ 1000 + throttle * 1000 + 1 / 2 ∧
      1000 + throttle * 1000 + 1 / 2 < pwmOf throttle + 1 :=
  floor_toNat_bounds (by linarith)

theorem pwmOf_mem {throttle : Rat} (h0 : 0 ≤ throttle) (h1 : throttle ≤ 1) :
    1000 ≤ pwmOf throttle ∧ pwmOf throttle ≤ 2000 := by
  obtain ⟨hlow, hhigh⟩ := pwmOf_bounds h0
  constructor
  · rw [← Nat.lt_succ_iff, ← Nat.cast_lt (α := Rat)]
    push_cast
    linarith
  · rw [← Nat.lt_succ_iff, ← Nat.cast_lt (α := Rat)]
    push_cast
    linarith

theorem pwmUs_rat (q : Rat) : (pwmUs (RatNan.rat q) true).toNat = pwmOf (unitClamp q) := by
  obtain ⟨h0, h1⟩ := unitClamp_mem q
  have hmem := (pwmOf_mem h0 h1).2
  unfold pwmUs
  rw [if_pos rfl, clampMacro_rat]
  show (UInt16.ofNat (pwmOf (unitClamp q))).toNat = _
  rw [UInt16.toNat_ofNat']
  omega

theorem pwmUs_unarmed (value : RatNan) : pwmUs value false = 1000 := by
  unfold pwmUs
  rw [if_neg Bool.false_ne_true]
  decide +kernel

theorem pwmUs_nan : pwmUs RatNan.nan true = 2000 := by
  unfold pwmUs
  rw [if_pos rfl, clampMacro_nan]
  decide +kernel

/-! ## Agreement -/

/-- The pulse width and the DShot value of a motor mean the same, up to
rounding. -/
def PwmAgrees (dshot pwm : UInt16) : Prop :=
  if dshot = dshotDisarmed then pwm = 1000
  else (1000 ≤ pwm.toNat ∧ pwm.toNat ≤ 2000) ∧
    |((pwm.toNat : Rat) - 1000) / 1000 - ((dshot.toNat : Rat) - 48) / 1999| ≤ 1 / 1000

theorem pwmAgrees_disarmed {pwm : UInt16} : PwmAgrees dshotDisarmed pwm ↔ pwm = 1000 := by
  unfold PwmAgrees
  rw [if_pos rfl]

/-- Two roundings of one throttle. -/
theorem pwmAgrees_of_throttle {dshot pwm : UInt16} {u : Rat} (h0 : 0 ≤ u) (h1 : u ≤ 1)
    (hdshot : 48 ≤ dshot.toNat)
    (hnear : |((dshot.toNat : Rat) - 48) / 1999 - u| ≤ 1 / 2000) (hpwm : pwm.toNat = pwmOf u) :
    PwmAgrees dshot pwm := by
  have hne : dshot ≠ dshotDisarmed := by
    rintro rfl
    exact absurd hdshot (by decide)
  obtain ⟨hlow, hhigh⟩ := pwmOf_bounds h0
  rw [abs_le] at hnear
  unfold PwmAgrees
  rw [if_neg hne, hpwm]
  refine ⟨pwmOf_mem h0 h1, abs_le.mpr ⟨?_, ?_⟩⟩
  · linarith [hnear.2]
  · linarith [hnear.1]

theorem pwmUs_zero (armed : Bool) : pwmUs (RatNan.rat 0) armed = 1000 := by
  cases armed with
  | false => exact pwmUs_unarmed _
  | true =>
      unfold pwmUs
      rw [if_pos rfl, clampMacro_rat]
      decide +kernel

theorem pwmAgrees_applied_iff (armed testMode : Bool) (value : RatNan) :
    PwmAgrees (rawValue armed testMode value)
        (pwmUs (appliedValue armed testMode value) armed) ↔
      (armed = true → value ≠ .nan) := by
  cases armed with
  | false =>
      rw [rawValue_unarmed, pwmAgrees_disarmed, pwmUs_unarmed]
      simp
  | true =>
      cases value with
      | nan =>
          rw [rawValue_nan, pwmAgrees_disarmed, appliedValue_armed]
          dsimp only
          rw [pwmUs_nan]
          exact ⟨fun h => absurd h (by decide), fun h => absurd rfl (h rfl)⟩
      | rat q =>
          obtain ⟨h0, h1⟩ := unitClamp_mem q
          refine ⟨fun _ _ h => (by cases h), fun _ => ?_⟩
          rw [rawValue_rat, appliedValue_armed]
          dsimp only
          by_cases hq : 0 < q
          · obtain ⟨hmin, hmax⟩ := dshotOf_mem h0 h1
            obtain ⟨hlow, hhigh⟩ := dshotOf_bounds h0
            have hdshot : (UInt16.ofNat (dshotOf (unitClamp q))).toNat = dshotOf (unitClamp q) := by
              rw [UInt16.toNat_ofNat']
              omega
            rw [if_pos hq]
            refine pwmAgrees_of_throttle h0 h1 (by omega) ?_ ?_
            · rw [hdshot]
              exact abs_le.mpr ⟨by linarith, by linarith⟩
            · rw [pwmUs_rat, unitClamp_of_mem h0 h1]
          · have hzero : unitClamp q = 0 := le_antisymm (not_lt.mp (mt unitClamp_pos.mp hq)) h0
            rw [if_neg hq, hzero, pwmAgrees_disarmed]
            exact pwmUs_zero true

theorem clampRaw_mem (value : UInt16) :
    clampRaw value = dshotDisarmed ∨
      48 ≤ (clampRaw value).toNat ∧ (clampRaw value).toNat ≤ 2047 := by
  unfold clampRaw dshotDisarmed dshotMin dshotMax
  dsimp only
  by_cases hzero : value = 0
  · subst hzero
    exact Or.inl (by decide)
  · right
    by_cases hlow : value < 48
    · rw [if_pos (c := value ≠ 0 ∧ value < 48) ⟨hzero, hlow⟩]
      decide
    · have hle := UInt16.le_iff_toNat_le.mp (UInt16.not_lt.mp hlow)
      rw [if_neg (c := value ≠ 0 ∧ value < 48) fun h => hlow h.2]
      by_cases hhigh : value > 2047
      · rw [if_pos hhigh]
        decide
      · have hmax := UInt16.le_iff_toNat_le.mp (UInt16.not_lt.mp hhigh)
        rw [if_neg hhigh]
        exact ⟨hle, hmax⟩

/-- A value of a raw test, as it is applied; one that is not
`DSHOT_DISARMED` arms them all. -/
theorem pwmAgrees_raw {dshot : UInt16} {armed : Bool}
    (hmem : dshot = dshotDisarmed ∨ 48 ≤ dshot.toNat ∧ dshot.toNat ≤ 2047)
    (harmed : dshot ≠ dshotDisarmed → armed = true) :
    PwmAgrees dshot (pwmUs (appliedRaw dshot : RatNan) armed) := by
  by_cases hzero : dshot = dshotDisarmed
  · subst hzero
    rw [pwmAgrees_disarmed]
    exact pwmUs_zero armed
  · obtain ⟨hmin, hmax⟩ := hmem.resolve_left hzero
    have hmin' : (48 : Rat) ≤ dshot.toNat := by exact_mod_cast hmin
    have hmax' : (dshot.toNat : Rat) ≤ 2047 := by exact_mod_cast hmax
    have happlied : (appliedRaw dshot : RatNan) = .rat (((dshot.toNat : Rat) - 48) / 1999) := by
      have hlow : (((dshot.toNat : Int) : Rat) - dshotMin.toNat) = dshot.toNat - 48 := rfl
      have hspan : (dshotMax.toNat : Rat) - dshotMin.toNat = 1999 := by
        show ((2047 : Nat) : Rat) - ((48 : Nat) : Rat) = 1999
        norm_num
      unfold appliedRaw
      rw [if_neg hzero, hspan, hlow]
      rfl
    have h0 : 0 ≤ ((dshot.toNat : Rat) - 48) / 1999 := by linarith
    have h1 : ((dshot.toNat : Rat) - 48) / 1999 ≤ 1 := by linarith
    rw [happlied, harmed hzero]
    refine pwmAgrees_of_throttle h0 h1 hmin ?_ ?_
    · rw [sub_self, abs_zero]
      norm_num
    · rw [pwmUs_rat, unitClamp_of_mem h0 h1]

/-! ## Writes -/

/-- What is sent and what is published agree: the driver is given `raw`, and
every published output agrees with it. -/
def OutputsAgree (uptimeMs : UInt64) (raw : MotorRaw) (calls : List (MotorCall RatNan)) : Prop :=
  (∀ channel throttle, .dshotDataSet channel throttle ∈ calls → throttle = raw channel) ∧
    ∀ applied armed, .motorOutputPublish applied armed ∈ calls →
      ∀ i, PwmAgrees (raw i) ((makePwmOutput uptimeMs applied armed).outputUs i)

theorem mem_motorOutputSend_publish {board : Board} {clock : MotorClock} {raw : MotorRaw}
    {applied applied' : MotorValues RatNan} {armed armed' : Bool} :
    MotorCall.motorOutputPublish applied' armed' ∈
        (motorOutputSend board clock raw applied armed).1 ↔
      board.motorOutputPubReady = true ∧ applied' = applied ∧ armed' = armed := by
  have hset : MotorCall.motorOutputPublish applied' armed' ∉ dshotDataSetAll board raw := by
    unfold dshotDataSetAll
    split <;> simp
  have htrigger : MotorCall.motorOutputPublish applied' armed' ∉
      (motorOutputTriggerAndTimestamp board clock).1 := by
    unfold motorOutputTriggerAndTimestamp
    split <;> simp
  simp only [motorOutputSend, List.mem_append, hset, htrigger, false_or, or_false]
  unfold motorOutputPublish
  split
  · rename_i hready
    simp [hready]
  · rename_i hready
    simp [hready]

theorem outputsAgree_send_iff {board : Board} {clock : MotorClock} {uptimeMs : UInt64}
    {raw : MotorRaw} {applied : MotorValues RatNan} {armed : Bool} :
    OutputsAgree uptimeMs raw (motorOutputSend board clock raw applied armed).1 ↔
      (board.motorOutputPubReady = true → ∀ i, PwmAgrees (raw i) (pwmUs (applied i) armed)) := by
  constructor
  · rintro ⟨-, hpublish⟩ hready i
    exact hpublish applied armed (mem_motorOutputSend_publish.mpr ⟨hready, rfl, rfl⟩) i
  · intro h
    refine ⟨fun channel throttle hmem => mem_motorOutputSend hmem, ?_⟩
    intro applied' armed' hmem i
    obtain ⟨hready, rfl, rfl⟩ := mem_motorOutputSend_publish.mp hmem
    exact h hready i

theorem outputsAgree_nil {uptimeMs : UInt64} {raw : MotorRaw} : OutputsAgree uptimeMs raw [] :=
  ⟨fun _ _ h => absurd h List.not_mem_nil, fun _ _ h => absurd h List.not_mem_nil⟩

/-- Whether a write goes through to the topic. -/
def Publishes (board : Board) (atTarget : Bool) : Prop :=
  board.motorOutputPubReady = true ∧ (board.lockstep && !atTarget) = false

theorem writeAll_agrees_iff (board : Board) (atTarget : Bool) (clock : MotorClock)
    (uptimeMs : UInt64) (motors : MotorValues RatNan) (armed testMode : Bool) :
    OutputsAgree uptimeMs (fun i => rawValue armed testMode (motors i))
        (motorOutputWriteAll board atTarget clock motors armed testMode).1 ↔
      ¬ (Publishes board atTarget ∧ armed = true ∧ ∃ i, motors i = .nan) := by
  rw [motorOutputWriteAll_eq]
  unfold Publishes
  cases hskip : board.lockstep && !atTarget with
  | true =>
      rw [if_pos rfl]
      exact ⟨fun _ h => absurd h.1.2 (by decide), fun _ => outputsAgree_nil⟩
  | false =>
      rw [if_neg Bool.false_ne_true, outputsAgree_send_iff]
      simp only [pwmAgrees_applied_iff]
      constructor
      · rintro h ⟨⟨hready, -⟩, harmed, i, hnan⟩
        exact h hready i harmed hnan
      · intro h hready i harmed hnan
        exact h ⟨⟨hready, trivial⟩, harmed, i, hnan⟩

theorem writeAllRaw_agrees (board : Board) (atTarget : Bool) (clock : MotorClock)
    (uptimeMs : UInt64) (raw : MotorRaw) :
    OutputsAgree uptimeMs (fun i => clampRaw (raw i))
      (motorOutputWriteAllRaw board atTarget clock raw).1 := by
  unfold motorOutputWriteAllRaw
  split
  · exact outputsAgree_nil
  · refine outputsAgree_send_iff.mpr fun _ i => pwmAgrees_raw (clampRaw_mem (raw i)) ?_
    intro hne
    rw [List.any_eq_true]
    exact ⟨i, List.mem_finRange i, bne_iff_ne.mpr hne⟩

/-- The published output and the DShot values agree after every raw write,
and after every other write exactly unless it publishes, armed, a motor
value that is a NaN. -/
theorem outputs_agree_iff_no_nan (board : Board) (atTarget : Bool) (clock : MotorClock)
    (uptimeMs : UInt64) (motors : MotorValues RatNan) (armed testMode : Bool) (raw : MotorRaw) :
    (OutputsAgree uptimeMs (fun i => rawValue armed testMode (motors i))
        (motorOutputWriteAll board atTarget clock motors armed testMode).1 ↔
      ¬ (Publishes board atTarget ∧ armed = true ∧ ∃ i, motors i = .nan)) ∧
    OutputsAgree uptimeMs (fun i => clampRaw (raw i))
      (motorOutputWriteAllRaw board atTarget clock raw).1 :=
  ⟨writeAll_agrees_iff board atTarget clock uptimeMs motors armed testMode,
    writeAllRaw_agrees board atTarget clock uptimeMs raw⟩

/-- Armed, a NaN for the first motor is `DSHOT_DISARMED` for the driver and
2000 us for the plant. -/
theorem nan_published_as_full_throttle :
    (¬ OutputsAgree 0 (fun i => rawValue true false (if i = 0 then RatNan.nan else .rat 0))
      (motorOutputWriteAll ⟨true, true⟩ true ⟨0, 0⟩ (fun i => if i = 0 then RatNan.nan else .rat 0)
        true false).1) ∧
      rawValue true false RatNan.nan = dshotDisarmed ∧
      pwmUs (appliedValue true false RatNan.nan) true = 2000 := by
  refine ⟨?_, rawValue_nan false, pwmUs_nan⟩
  rw [writeAll_agrees_iff]
  exact fun h => h ⟨⟨rfl, rfl⟩, rfl, 0, rfl⟩

end Rdd2
