import Rdd2.GnssTime
import Rdd2.UbxFrame

/-!
# What is made of a fix

`publish_nav_pvt` of `subsys/gnss_source/gnss_onboard.c`: the 92 bytes of a
NAV-PVT payload as a structure, and the sample made of it. The conversion of every field
saturates where the field it goes to is narrower (`gnssFix_converted`), but one
of them negates first: `-pvt->nav.vel_down` has no value for the least 32-bit
number (`nav_pvt_converted_iff`).

The counters the function keeps, and what `zros_pub_update` answers, are left
out.
-/

namespace Rdd2.Ubx

open CInt

/-! ## Data -/

/-- `n` little-endian bytes from an offset on. -/
def littleEndian (bytes : List UInt8) (offset n : Nat) : Nat :=
  ((bytes.drop offset).take n).foldr (fun b rest => b.toNat + 256 * rest) 0

/-- `struct ubx_nav_pvt`, as far as it is read. -/
structure NavPvt where
  time : NavTime
  fixType : UInt8
  flags : UInt8
  numSv : UInt8
  longitude : Int32
  latitude : Int32
  height : Int32
  hmsl : Int32
  horizAcc : UInt32
  vertAcc : UInt32
  velDown : Int32
  groundSpeed : Int32
  headMotion : Int32
  speedAcc : UInt32
  pdop : UInt16
  deriving DecidableEq, Repr

/-- The payload as `struct ubx_nav_pvt`, which is packed. -/
def NavPvt.ofBytes (payload : List UInt8) : NavPvt :=
  let u8 := fun offset => UInt8.ofNat (littleEndian payload offset 1)
  let u16 := fun offset => UInt16.ofNat (littleEndian payload offset 2)
  let u32 := fun offset => UInt32.ofNat (littleEndian payload offset 4)
  let i32 := fun offset => Int32.ofNat (littleEndian payload offset 4)
  { time := ⟨u16 4, u8 6, u8 7, u8 8, u8 9, u8 10, u8 11⟩
    fixType := u8 20
    flags := u8 21
    numSv := u8 23
    longitude := i32 24
    latitude := i32 28
    height := i32 32
    hmsl := i32 36
    horizAcc := u32 40
    vertAcc := u32 44
    velDown := i32 56
    groundSpeed := i32 60
    headMotion := i32 64
    speedAcc := u32 68
    pdop := u16 76 }

/-- `synapse_types_GnssFixType_enum_t` -/
inductive FixType where
  | noFix
  | timeOnly
  | fix2d
  | fix3d
  | dgnss
  | rtkFloat
  | rtkFixed
  | deadReckoning
  deriving DecidableEq, Repr

/-- `synapse_topic_GnssFixData_t`, as far as it is set. -/
structure GnssFix where
  timestampUs : UInt64
  timeUnixUs : UInt64
  latitudeDegE7 : Int32
  longitudeDegE7 : Int32
  altitudeMslMm : Int32
  altitudeEllipsoidMm : Int32
  horizontalAccuracyMm : UInt16
  verticalAccuracyMm : UInt16
  velocityAccuracyMmS : UInt16
  hdopCenti : UInt16
  vdopCenti : UInt16
  groundSpeedCmS : UInt16
  courseOverGroundCdeg : UInt16
  velocityUpCmS : Int16
  flags : UInt8
  fixType : FixType
  satellitesUsed : UInt8
  satellitesVisible : UInt8
  deriving DecidableEq, Repr

/-- `synapse_topic_GnssFixFlags` -/
def flagTimeValid : UInt8 := 1
def flagCourseValid : UInt8 := 2
def flagVelocityUpValid : UInt8 := 8

def courseValidMinMmS : Int32 := 150

/-! ## The code -/

def saturateU16 (value : UInt32) : UInt16 :=
  (if value < 65535 then value else 65535).toUInt16

def clampI16 (value : Int) : Int16 :=
  Int16.ofInt (if value ≤ -32768 then -32768 else if value < 32767 then value else 32767)

/-- `fix_type_from`; the flags are GNSS_FIX_OK and the two of the carrier
solution, the cases those of `enum ubx_nav_fix_type`. -/
def fixTypeFrom (pvt : NavPvt) : FixType :=
  if pvt.flags &&& 0x01 = 0 then .noFix
  else if pvt.flags &&& 0x80 ≠ 0 then .rtkFixed
  else if pvt.flags &&& 0x40 ≠ 0 then .rtkFloat
  else
    match pvt.fixType with
    | 2 => .fix2d
    | 3 => .fix3d
    | 4 | 1 => .deadReckoning
    | 5 => .timeOnly
    | _ => .noFix

def courseCdeg (headMotion : Int32) : UInt32 :=
  UInt32.ofInt ((headMotion.toInt.tdiv 1000).tmod 36000 + 36000) % 36000

/-- The sample `publish_nav_pvt` publishes; `none` where a signed result
overflows. -/
def gnssFix (uptimeMs : UInt64) (pvt : NavPvt) : Option GnssFix := do
  let negated ← signed 32 (-pvt.velDown.toInt)
  let fixType := fixTypeFrom pvt
  let timed := pvt.time.valid &&& 0x03 = 0x03 ∧ fixType ≠ .noFix
  let timeUs ← (if timed then timeUnixUs pvt.time else some none : Option (Option UInt64))
  let course := if pvt.groundSpeed ≥ courseValidMinMmS then flagCourseValid else 0
  let timeFlag := if timeUs.isSome then flagTimeValid else 0
  some
    { timestampUs := uptimeMs * 1000
      timeUnixUs := timeUs.getD 0
      latitudeDegE7 := pvt.latitude
      longitudeDegE7 := pvt.longitude
      altitudeMslMm := pvt.hmsl
      altitudeEllipsoidMm := pvt.height
      horizontalAccuracyMm := saturateU16 pvt.horizAcc
      verticalAccuracyMm := saturateU16 pvt.vertAcc
      velocityAccuracyMmS := saturateU16 pvt.speedAcc
      hdopCenti := saturateU16 pvt.pdop.toUInt32
      vdopCenti := saturateU16 pvt.pdop.toUInt32
      groundSpeedCmS := saturateU16 ((if pvt.groundSpeed > 0 then pvt.groundSpeed else 0).toUInt32 / 10)
      courseOverGroundCdeg := (courseCdeg pvt.headMotion).toUInt16
      velocityUpCmS := clampI16 (negated.tdiv 10)
      flags := flagVelocityUpValid ||| course ||| timeFlag
      fixType := fixType
      satellitesUsed := pvt.numSv
      satellitesVisible := pvt.numSv }

/-! ## Fields -/

theorem saturateU16_toNat (value : UInt32) :
    (saturateU16 value).toNat = min value.toNat 65535 := by
  have hmax : (65535 : UInt32).toNat = 65535 := rfl
  unfold saturateU16
  split
  · rename_i hlt
    rw [UInt32.lt_iff_toNat_lt, hmax] at hlt
    rw [UInt32.toNat_toUInt16]
    omega
  · rename_i hge
    rw [UInt32.lt_iff_toNat_lt, hmax] at hge
    rw [UInt32.toNat_toUInt16, hmax]
    omega

theorem clampI16_toInt (value : Int) :
    (clampI16 value).toInt = max (-32768) (min value 32767) := by
  unfold clampI16
  split
  · rw [Int16.toInt_ofInt_of_le (by decide) (by decide)]
    omega
  · split <;> rw [Int16.toInt_ofInt_of_le (by omega) (by omega)] <;> omega

theorem groundSpeed_toNat (speed : Int32) :
    ((if speed > 0 then speed else 0).toUInt32 / 10).toNat = (max speed.toInt 0).toNat / 10 := by
  have hten : (10 : UInt32).toNat = 10 := rfl
  rw [UInt32.toNat_div, hten]
  congr 1
  split
  · rename_i hpos
    have hle : (0 : Int32) ≤ speed := Int32.le_of_lt hpos
    rw [gt_iff_lt, Int32.lt_iff_toInt_lt, Int32.toInt_zero] at hpos
    rw [Int32.toNat_toUInt32_of_le hle, Int32.toNatClampNeg, Int.max_eq_left (Int.le_of_lt hpos)]
  · rename_i hneg
    rw [gt_iff_lt, Int32.lt_iff_toInt_lt, Int32.toInt_zero] at hneg
    rw [Int.max_eq_right (Int.not_lt.mp hneg)]
    rfl

/-- The course in whole turns, rounded toward zero, brought into the circle. -/
theorem courseCdeg_toNat (headMotion : Int32) :
    (courseCdeg headMotion).toNat < 36000 ∧
      ((courseCdeg headMotion).toNat - headMotion.toInt.tdiv 1000) % 36000 = 0 := by
  generalize hcourse : headMotion.toInt.tdiv 1000 = course
  have hlt := Int.tmod_lt_of_pos course (show (0 : Int) < 36000 by decide)
  have hgt := Int.lt_tmod_of_pos course (show (0 : Int) < 36000 by decide)
  have hsum := Int.mul_tdiv_add_tmod course 36000
  have hturns : (UInt32.ofInt (course.tmod 36000 + 36000)).toNat
      = (course.tmod 36000 + 36000).toNat := by
    rw [UInt32.ofInt, UInt32.toNat_ofNat']
    omega
  have hmod : (36000 : UInt32).toNat = 36000 := rfl
  rw [courseCdeg, hcourse, UInt32.toNat_mod, hturns, hmod]
  omega

/-- The flag of the course is none of the others. -/
theorem courseFlag_iff {course : Prop} [Decidable course] (timed : Bool) :
    (flagVelocityUpValid ||| (if course then flagCourseValid else 0) |||
      (if timed then flagTimeValid else 0)) &&& flagCourseValid ≠ 0 ↔ course := by
  by_cases hcourse : course <;> cases timed <;> simp only [hcourse, if_true, if_false] <;> decide

theorem courseValidMin_le (speed : Int32) : speed ≥ courseValidMinMmS ↔ 150 ≤ speed.toInt := by
  rw [ge_iff_le, Int32.le_iff_toInt_le]
  rfl

/-! ## The conversion -/

structure Converted (pvt : NavPvt) (fix : GnssFix) : Prop where
  horizontalAccuracy : fix.horizontalAccuracyMm.toNat = min pvt.horizAcc.toNat 65535
  verticalAccuracy : fix.verticalAccuracyMm.toNat = min pvt.vertAcc.toNat 65535
  velocityAccuracy : fix.velocityAccuracyMmS.toNat = min pvt.speedAcc.toNat 65535
  hdop : fix.hdopCenti.toNat = min pvt.pdop.toNat 65535
  vdop : fix.vdopCenti.toNat = min pvt.pdop.toNat 65535
  groundSpeed : fix.groundSpeedCmS.toNat = min ((max pvt.groundSpeed.toInt 0).toNat / 10) 65535
  velocityUp : fix.velocityUpCmS.toInt = max (-32768) (min ((-pvt.velDown.toInt).tdiv 10) 32767)
  velocityUp_sign : (pvt.velDown.toInt ≤ 0 → 0 ≤ fix.velocityUpCmS.toInt) ∧
    (0 ≤ pvt.velDown.toInt → fix.velocityUpCmS.toInt ≤ 0)
  course_lt : fix.courseOverGroundCdeg.toNat < 36000
  course : (fix.courseOverGroundCdeg.toNat - pvt.headMotion.toInt.tdiv 1000) % 36000 = 0
  courseValid : fix.flags &&& flagCourseValid ≠ 0 ↔ 150 ≤ pvt.groundSpeed.toInt

/-- Rounding toward zero and clamping keep the sign. -/
theorem velocityUp_sign (x : Int) :
    (0 ≤ x → 0 ≤ max (-32768) (min (x.tdiv 10) 32767)) ∧
      (x ≤ 0 → max (-32768) (min (x.tdiv 10) 32767) ≤ 0) := by
  refine ⟨fun hx => ?_, fun hx => ?_⟩
  · have hquot := Int.tdiv_nonneg hx (show (0 : Int) ≤ 10 by decide)
    omega
  · have hquot := Int.tdiv_nonneg (Int.neg_nonneg_of_nonpos hx) (show (0 : Int) ≤ 10 by decide)
    rw [Int.neg_tdiv] at hquot
    omega

theorem gnssFix_converted (uptimeMs : UInt64) {pvt : NavPvt} (hvel : pvt.velDown.toInt ≠ -2 ^ 31) :
    ∃ fix, gnssFix uptimeMs pvt = some fix ∧ Converted pvt fix := by
  have hlow := pvt.velDown.le_toInt
  have hhigh := pvt.velDown.toInt_lt
  have hnegated : signed 32 (-pvt.velDown.toInt) = some (-pvt.velDown.toInt) :=
    signed_of_range (by omega) (by omega)
  obtain ⟨timeUs, htime⟩ : ∃ timeUs,
      (if pvt.time.valid &&& 0x03 = 0x03 ∧ fixTypeFrom pvt ≠ .noFix then timeUnixUs pvt.time
        else some none) = some timeUs := by
    split
    · exact timeUnixUs_total pvt.time
    · exact ⟨none, rfl⟩
  have hsign := velocityUp_sign (-pvt.velDown.toInt)
  obtain ⟨hcourse_lt, hcourse⟩ := courseCdeg_toNat pvt.headMotion
  have hcourse16 : (courseCdeg pvt.headMotion).toUInt16.toNat = (courseCdeg pvt.headMotion).toNat := by
    rw [UInt32.toNat_toUInt16]
    omega
  refine ⟨_, by simp only [gnssFix, hnegated, htime, Option.bind_eq_bind, Option.bind_some]; rfl, ?_⟩
  exact
    { horizontalAccuracy := saturateU16_toNat _
      verticalAccuracy := saturateU16_toNat _
      velocityAccuracy := saturateU16_toNat _
      hdop := by rw [saturateU16_toNat, UInt16.toNat_toUInt32]
      vdop := by rw [saturateU16_toNat, UInt16.toNat_toUInt32]
      groundSpeed := by rw [saturateU16_toNat, groundSpeed_toNat]
      velocityUp := clampI16_toInt _
      velocityUp_sign := by
        rw [clampI16_toInt]
        exact ⟨fun h => hsign.1 (by omega), fun h => hsign.2 (by omega)⟩
      course_lt := by rw [hcourse16]; exact hcourse_lt
      course := by rw [hcourse16]; exact hcourse
      courseValid := by rw [courseFlag_iff, courseValidMin_le] }

/-- The negation of the least number overflows. -/
theorem gnssFix_overflow (uptimeMs : UInt64) {pvt : NavPvt} (hvel : pvt.velDown.toInt = -2 ^ 31) :
    gnssFix uptimeMs pvt = none := by
  have hnegated : signed 32 (-pvt.velDown.toInt) = none := by
    rw [hvel]
    exact signed_of_ge (by decide)
  simp only [gnssFix, hnegated, Option.bind_eq_bind, Option.bind_none]

/-- Every NAV-PVT payload is converted as expected, without a signed overflow,
if and only if its `velD` is not the least 32-bit number. -/
theorem nav_pvt_converted_iff (uptimeMs : UInt64) (payload : List UInt8) :
    (∃ fix, gnssFix uptimeMs (NavPvt.ofBytes payload) = some fix ∧
      Converted (NavPvt.ofBytes payload) fix) ↔
      (NavPvt.ofBytes payload).velDown.toInt ≠ -2 ^ 31 := by
  constructor
  · rintro ⟨fix, hfix, -⟩ hvel
    cases (gnssFix_overflow uptimeMs hvel).symm.trans hfix
  · exact gnssFix_converted uptimeMs

/-- A payload that falls as fast as the field can say. -/
def fallingPayload : List UInt8 := List.replicate 59 0 ++ [0x80] ++ List.replicate 32 0

theorem falling_velocity_overflows :
    ¬ ∀ (uptimeMs : UInt64) (payload : List UInt8), payload.length = navPvtSize →
      ∃ fix, gnssFix uptimeMs (NavPvt.ofBytes payload) = some fix ∧
        Converted (NavPvt.ofBytes payload) fix := by
  intro h
  obtain ⟨fix, hfix, -⟩ := h 0 fallingPayload (by decide)
  have hvel : (NavPvt.ofBytes fallingPayload).velDown.toInt = -2 ^ 31 := by decide
  cases (gnssFix_overflow 0 hvel).symm.trans hfix

end Rdd2.Ubx
