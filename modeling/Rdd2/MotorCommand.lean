import Mathlib.Tactic.Linarith
import Rdd2.MotorOutput

/-!
# Motor commands in exact arithmetic

What the two writes of `motor_output.c` make of a motor value that is a
rational or a NaN: the value they apply and the DShot value they send, each
in closed form.
-/

namespace Rdd2

/-- `raw_values[i]` of `rdd2_motor_output_write_all` -/
def rawValue {F : Type} [CFloat F] (armed testMode : Bool) (value : F) : UInt16 :=
  motorToDshot (appliedValue armed testMode value)
    (armed && CFloat.lt (CFloat.lit 0) (appliedValue armed testMode value))

theorem motorOutputWriteAll_eq {F : Type} [CFloat F] (board : Board) (atTarget : Bool)
    (clock : MotorClock) (motors : MotorValues F) (armed testMode : Bool) :
    motorOutputWriteAll board atTarget clock motors armed testMode =
      if board.lockstep && !atTarget then ([], 0)
      else motorOutputSend board clock (fun i => rawValue armed testMode (motors i))
        (fun i => appliedValue armed testMode (motors i)) armed := rfl

def unitClamp (q : Rat) : Rat := max 0 (min q 1)

theorem unitClamp_mem (q : Rat) : 0 ≤ unitClamp q ∧ unitClamp q ≤ 1 :=
  ⟨le_max_left 0 _, max_le (by norm_num) (min_le_right q 1)⟩

theorem unitClamp_mono {q r : Rat} (h : q ≤ r) : unitClamp q ≤ unitClamp r :=
  max_le_max_left 0 (min_le_min_right 1 h)

theorem unitClamp_pos {q : Rat} : 0 < unitClamp q ↔ 0 < q := by
  unfold unitClamp
  rw [lt_max_iff, lt_min_iff]
  constructor
  · rintro (h | h)
    · exact absurd h (lt_irrefl 0)
    · exact h.1
  · intro h
    exact Or.inr ⟨h, by norm_num⟩

theorem unitClamp_of_one_le {q : Rat} (h : 1 ≤ q) : unitClamp q = 1 := by
  unfold unitClamp
  rw [min_eq_right h]
  exact max_eq_right (by norm_num)

theorem unitClamp_of_mem {u : Rat} (h0 : 0 ≤ u) (h1 : u ≤ 1) : unitClamp u = u := by
  unfold unitClamp
  rw [min_eq_left h1, max_eq_right h0]

@[simp] theorem clampf_nan (lo hi : RatNan) : clampf .nan lo hi = .nan := by
  cases lo <;> cases hi <;> rfl

@[simp] theorem clampf_rat (q : Rat) :
    clampf (.rat q) (CFloat.lit 0 : RatNan) (CFloat.lit 1) = .rat (unitClamp q) := by
  show (if decide (q < 0) = true then RatNan.rat 0
    else if decide (1 < q) = true then RatNan.rat 1 else RatNan.rat q) = _
  unfold unitClamp
  by_cases hlow : q < 0
  · rw [if_pos (decide_eq_true hlow), min_eq_left (by linarith), max_eq_left hlow.le]
  · rw [if_neg (by simpa using hlow)]
    by_cases hhigh : 1 < q
    · rw [if_pos (decide_eq_true hhigh), min_eq_right hhigh.le, max_eq_right (by norm_num)]
    · rw [if_neg (by simpa using hhigh), min_eq_left (not_lt.mp hhigh),
        max_eq_right (not_lt.mp hlow)]

/-! ## Closed forms -/

theorem appliedValue_armed (testMode : Bool) (value : RatNan) :
    appliedValue true testMode value =
      match value with
      | .nan => .nan
      | .rat q => .rat (unitClamp q) := by
  have hidle : (if (true && !testMode) = true then motorIdleThrottle RatNan else CFloat.lit 0) =
      CFloat.lit 0 := by cases testMode <;> rfl
  unfold appliedValue
  rw [hidle, if_pos rfl]
  cases value with
  | nan => exact clampf_nan _ _
  | rat q => exact clampf_rat q

theorem floor_toNat_bounds {q : Rat} (h : 0 ≤ q) :
    (q.floor.toNat : Rat) ≤ q ∧ q < q.floor.toNat + 1 := by
  have hfloor : 0 ≤ q.floor := Rat.le_floor_iff.mpr (by simpa using h)
  have hcast : ((q.floor.toNat : Nat) : Rat) = (q.floor : Rat) := by
    rw [← Int.cast_natCast, Int.toNat_of_nonneg hfloor]
  have hlt := Rat.lt_floor_add_one q
  push_cast at hlt
  rw [hcast]
  exact ⟨Rat.floor_le q, hlt⟩

/-- The DShot value of a throttle, before it is cut to 16 bits. -/
def dshotOf (throttle : Rat) : Nat := (48 + throttle * 1999 + 1 / 2).floor.toNat

theorem dshotOf_bounds {throttle : Rat} (h : 0 ≤ throttle) :
    (dshotOf throttle : Rat) ≤ 48 + throttle * 1999 + 1 / 2 ∧
      48 + throttle * 1999 + 1 / 2 < dshotOf throttle + 1 :=
  floor_toNat_bounds (by linarith)

theorem dshotOf_mem {throttle : Rat} (h0 : 0 ≤ throttle) (h1 : throttle ≤ 1) :
    48 ≤ dshotOf throttle ∧ dshotOf throttle ≤ 2047 := by
  obtain ⟨hlow, hhigh⟩ := dshotOf_bounds h0
  constructor
  · rw [← Nat.lt_succ_iff, ← Nat.cast_lt (α := Rat)]
    push_cast
    linarith
  · rw [← Nat.lt_succ_iff, ← Nat.cast_lt (α := Rat)]
    push_cast
    linarith

theorem dshotOf_mono {a b : Rat} (h0 : 0 ≤ a) (hab : a ≤ b) : dshotOf a ≤ dshotOf b := by
  obtain ⟨hlow, -⟩ := dshotOf_bounds h0
  obtain ⟨-, hhigh⟩ := dshotOf_bounds (h0.trans hab)
  rw [← Nat.lt_succ_iff, ← Nat.cast_lt (α := Rat)]
  push_cast
  linarith

theorem dshotOf_one : dshotOf 1 = 2047 := by
  have hpos : (0 : Rat) ≤ 1 := by norm_num
  have hmem := dshotOf_mem hpos le_rfl
  have hbounds := (dshotOf_bounds hpos).2
  have hlt : (2046 : Rat) < dshotOf 1 := by linarith
  have hnat : 2046 < dshotOf 1 := by exact_mod_cast hlt
  omega

theorem rawValue_unarmed (testMode : Bool) (value : RatNan) :
    rawValue false testMode value = dshotDisarmed := motorToDshot_unarmed _

/-- A NaN is not positive, so it is sent as `DSHOT_DISARMED`. -/
theorem rawValue_nan (testMode : Bool) : rawValue true testMode RatNan.nan = dshotDisarmed := by
  unfold rawValue
  rw [appliedValue_armed]
  exact motorToDshot_unarmed _

theorem motorToDshot_rat {u : Rat} (h0 : 0 < u) (h1 : u ≤ 1) :
    motorToDshot (RatNan.rat u) true = UInt16.ofNat (dshotOf u) := by
  have hclamp : unitClamp u = u := unitClamp_of_mem h0.le h1
  have hpositive : CFloat.le (RatNan.rat u) (CFloat.lit 0) = false :=
    decide_eq_false (not_le.mpr h0)
  have hspan : ((dshotMax.toNat : Rat) - dshotMin.toNat) = 1999 := by
    show ((2047 : Nat) : Rat) - ((48 : Nat) : Rat) = 1999
    norm_num
  unfold motorToDshot motorIdleThrottle
  dsimp only
  rw [if_pos rfl, clampf_rat, hclamp, hpositive, hspan]
  rfl

theorem rawValue_rat (testMode : Bool) (q : Rat) :
    rawValue true testMode (RatNan.rat q) =
      if 0 < q then UInt16.ofNat (dshotOf (unitClamp q)) else dshotDisarmed := by
  unfold rawValue
  rw [appliedValue_armed]
  dsimp only
  by_cases hq : 0 < q
  · have hpos := unitClamp_pos.mpr hq
    have hlt : CFloat.lt (CFloat.lit 0) (RatNan.rat (unitClamp q)) = true := decide_eq_true hpos
    rw [if_pos hq, hlt, Bool.and_true]
    exact motorToDshot_rat hpos (unitClamp_mem q).2
  · have hlt : CFloat.lt (CFloat.lit 0) (RatNan.rat (unitClamp q)) = false :=
      decide_eq_false (mt unitClamp_pos.mp hq)
    rw [if_neg hq, hlt, Bool.and_false]
    exact motorToDshot_unarmed _

end Rdd2
