import Rdd2.ControlTypes
import Rdd2.GnssInjection

/-!
# Motion capture as GNSS

`test_scripts/publish_gps_zenoh.py` makes GNSS fixes of poses that a motion capture
system publishes, with `build_gnss_fix` of `publish_gps_synapse.py`, and sends them by
radio. One thread takes in poses, another sends at a fixed rate, whether or not a pose
has come: what it sends then is the last one, and how far it is to be trusted.

Here are the conversions, over floats of which nothing is assumed. The trigonometry and
the generated readers of payloads are parameters.
-/

namespace Rdd2.GpsBridge

/-! ## Floats -/

/-- `int` of a float; `none` is a `ValueError` or an `OverflowError`. -/
class PyInt (F : Type) where
  /-- `int(round(x))` -/
  round : F → Option Int
  /-- `int(x)` -/
  trunc : F → Option Int

/-- To the nearest integer, and to the even one of two. -/
def roundHalfEven (q : Rat) : Int :=
  let below := q.floor
  if q - below < 1 / 2 then below
  else if 1 / 2 < q - below then below + 1
  else if below % 2 = 0 then below else below + 1

instance : PyInt RatNan where
  round
    | .nan => none
    | .rat q => some (roundHalfEven q)
  trunc
    | .nan => none
    | .rat q => some (if 0 ≤ q then q.floor else q.ceil)

theorem roundHalfEven_intCast (n : Int) : roundHalfEven n = n := by
  unfold roundHalfEven
  rw [Rat.floor_intCast, if_pos (by rw [sub_self]; norm_num)]

section Floats

variable {F : Type} [CFloat F]

def neg (x : F) : F := CFloat.mul (CFloat.lit (-1)) x

def sub (x y : F) : F := CFloat.add x (neg y)

/-- `x != 0.0` -/
def nonzero (x : F) : Bool := !(CFloat.le x (CFloat.lit 0) && CFloat.le (CFloat.lit 0) x)

def saturateU16 [PyInt F] (value : F) : Option Int :=
  if CFloat.lt value (CFloat.lit 0) then some 0
  else (PyInt.round value).map fun n => min n 65535

def clampI16 [PyInt F] (value : F) : Option Int :=
  (PyInt.round value).map fun n => max (-32768) (min 32767 n)

end Floats

/-- The trigonometry of the scripts. `enu_to_geodetic` divides. -/
structure Geodesy (F : Type) where
  enuToGeodetic (east north up lat0 lon0 alt0 : F) : Option (F × F × F)
  quaternionToYaw (x y z w : F) : F
  rotate2d (x y angle : F) : F × F
  hypot (x y : F) : F
  /-- `math.degrees(math.atan2(ve, vn)) % 360.0` -/
  course (ve vn : F) : F
  /-- `x % 360.0` -/
  mod360 (x : F) : F
  sqrt (x : F) : F

/-! ## Samples -/

/-- `class PoseSample`, without the text for the log. -/
structure PoseSample (F : Type) where
  timestampUs : Nat
  east : F
  north : F
  up : F
  /-- w, x, y, z -/
  quat : Option (F × F × F × F) := none
  velocityEnu : Option (Vec3f F) := none
  lost : Bool := false
  degraded : Bool := false
  deriving DecidableEq, Repr

/-- What is read of an `ExternalOdometryData` or an `OdometryData`. -/
structure Odometry (F : Type) where
  timestampUs : Nat
  /-- Of an `ExternalOdometryData`. -/
  id : Nat
  position : Vec3f F
  attitude : F × F × F × F
  velocity : Vec3f F
  flags : UInt8
  status : UInt8

/-- What is read of a `PoseData` or a `RawPoseData`. -/
structure Pose (F : Type) where
  timestampUs : Nat
  position : Vec3f F
  attitude : F × F × F × F

structure RigidBody (F : Type) where
  id : Nat
  flags : UInt8
  position : Vec3f F
  attitude : F × F × F × F

structure MocapFrame (F : Type) where
  timestampUs : Nat
  rigidBodies : List (RigidBody F)

/-- What is read of an `ExternalOdometryCovarianceData`: the variances of the position. -/
structure Covariance (F : Type) where
  id : Nat
  variance : Vec3f F

/-- The bits of `ExternalOdometryFlags` and of `MocapRawFlags`, and the values of
`ExternalOdometryStatus`, that the script names. -/
structure Schema where
  positionValid : UInt8
  attitudeValid : UInt8
  linearVelocityValid : UInt8
  lost : UInt8
  extrapolated : UInt8
  outlierRejected : UInt8
  degraded : UInt8
  statusLost : UInt8
  /-- `ExtrapolatedShort`, `ExtrapolatedLong`, `OutlierRejected`, `Degraded` -/
  statusDegraded : List UInt8
  bodyValid : UInt8

section Decoders

variable {F : Type} (schema : Schema)

/-- `_flags_lost(flags) or _status_lost(status)` -/
def isLost (flags status : UInt8) : Bool :=
  flags &&& schema.lost ≠ 0 || status = schema.statusLost

/-- `_flags_degraded(flags) or _status_degraded(status)` -/
def isDegraded (flags status : UInt8) : Bool :=
  flags &&& (schema.extrapolated ||| schema.outlierRejected ||| schema.degraded) ≠ 0 ||
    schema.statusDegraded.contains status

def decodeOdom (ignoreFlags : Bool) (data : Odometry F) : Option (PoseSample F) :=
  if data.flags &&& schema.positionValid = 0 ∧ ignoreFlags = false then none
  else some
    { timestampUs := data.timestampUs
      east := data.position.x
      north := data.position.y
      up := data.position.z
      quat :=
        if data.flags &&& schema.attitudeValid ≠ 0 ∨ ignoreFlags then some data.attitude else none
      velocityEnu :=
        if data.flags &&& schema.linearVelocityValid ≠ 0 ∨ ignoreFlags then some data.velocity
        else none
      lost := isLost schema data.flags data.status
      degraded := isDegraded schema data.flags data.status }

/-- `_decode_external_pose`: another vehicle's is left out. -/
def decodeExternalPose (instance? : Option Nat) (ignoreFlags : Bool) (data : Odometry F) :
    Option (PoseSample F) :=
  if instance?.any (data.id ≠ ·) then none else decodeOdom schema ignoreFlags data

def decodePoseLike (data : Pose F) : PoseSample F where
  timestampUs := data.timestampUs
  east := data.position.x
  north := data.position.y
  up := data.position.z
  quat := some data.attitude

def decodeMocap (instance? : Option Nat) (ignoreFlags : Bool) (frame : MocapFrame F) :
    Option (PoseSample F) :=
  let body? := match instance? with
    | none => frame.rigidBodies.head?
    | some id => frame.rigidBodies.find? (·.id = id)
  body?.bind fun body =>
    if body.flags &&& schema.bodyValid = 0 ∧ ignoreFlags = false then none
    else some (decodePoseLike ⟨frame.timestampUs, body.position, body.attitude⟩)

/-- `decode_covariance`, without the time stamp, which nobody reads. -/
def decodeCovariance [CFloat F] (geo : Geodesy F) (instance? : Option Nat) (data : Covariance F) :
    Option (F × F) :=
  let var := data.variance
  if instance?.any (data.id ≠ ·) then none
  else if CFloat.lt var.x (CFloat.lit 0) || CFloat.lt var.y (CFloat.lit 0) ||
      CFloat.lt var.z (CFloat.lit 0) then none
  else some (geo.sqrt (CFloat.add var.x var.y), geo.sqrt var.z)

end Decoders

/-- A payload of one of the topics of `input_topics`, as its reader has read it. -/
inductive Payload (F : Type) where
  | externalPose (data : Odometry F)
  | odom (data : Odometry F)
  /-- `pose` or `pose_raw` -/
  | poseLike (data : Pose F)
  | mocap (frame : MocapFrame F)
  /-- The reader raises an exception. -/
  | malformed

/-- What the script is called with, as far as it is read here. -/
structure Args (F : Type) where
  instance? : Option Nat
  ignoreFlags : Bool
  dryRun : Bool
  timeout : F
  originLat : F
  originLon : F
  originAlt : F
  yawOffset : F
  headingOffset : F
  publishYaw : Bool
  hacc : F
  vacc : F
  degradedScale : F
  hdop : F
  vdop : F
  satellites : Int
  gnssInstance : Int

/-- `self.topic.decode`; the outer `none` is an exception. -/
def decode {F : Type} (schema : Schema) (args : Args F) :
    Payload F → Option (Option (PoseSample F))
  | .externalPose data => some (decodeExternalPose schema args.instance? args.ignoreFlags data)
  | .odom data => some (decodeOdom schema args.ignoreFlags data)
  | .poseLike data => some (some (decodePoseLike data))
  | .mocap frame => some (decodeMocap schema args.instance? args.ignoreFlags frame)
  | .malformed => none

/-! ## Fixes -/

/-- `GnssFixType` -/
def noFix : Int := 0
def fix3d : Int := 3

/-- `FLAG_TIME_VALID` and the others -/
def flagTimeValid : Nat := 1
def flagCourseValid : Nat := 2
def flagYawValid : Nat := 4
def flagVelocityUpValid : Nat := 8

section Fix

variable {F : Type} [CFloat F]

def accuracyUnusableM : F := CFloat.lit (65535 / 1000)

def courseValidMinSpeedMs : F := CFloat.lit (15 / 100)

/-- A value times 100 or 1000 -/
def centi (x : F) : F := CFloat.mul x (CFloat.lit 100)
def milli (x : F) : F := CFloat.mul x (CFloat.lit 1000)
def micro (x : F) : F := CFloat.mul x (CFloat.lit 1000000)

structure Motion (F : Type) where
  east : F
  north : F
  up : F
  ve : F
  vn : F
  vd : F
  haveVelocity : Bool

structure Trust (F : Type) where
  fixType : Int
  hAccM : F
  vAccM : F

variable [PyInt F]

/-- `build_gnss_fix`; `none` is an exception. -/
def buildGnssFix (geo : Geodesy F) (args : Args F) (motion : Motion F) (trust : Trust F)
    (bootUs timeS : F) (yawDeg : Option F) : Option GnssFix := do
  let (lat, lon, alt) ← geo.enuToGeodetic motion.east motion.north motion.up args.originLat
    args.originLon args.originAlt
  let speed := geo.hypot motion.vn motion.ve
  let speedAccuracy :=
    let part := CFloat.mul speed (CFloat.lit (5 / 100))
    if CFloat.lt part (CFloat.lit (1 / 10)) then CFloat.lit (1 / 10) else part
  let courseFlag :=
    if motion.haveVelocity && CFloat.le courseValidMinSpeedMs speed then flagCourseValid else 0
  let flags := flagTimeValid ||| (if motion.haveVelocity then flagVelocityUpValid else 0) |||
    courseFlag ||| (if yawDeg.isSome then flagYawValid else 0)
  let timestampUs ← PyInt.trunc bootUs
  let timeUnixUs ← PyInt.trunc (micro timeS)
  let latitudeDegE7 ← PyInt.round (CFloat.mul lat (CFloat.lit 10000000))
  let longitudeDegE7 ← PyInt.round (CFloat.mul lon (CFloat.lit 10000000))
  let altitudeMm ← PyInt.round (milli alt)
  let horizontalAccuracyMm ← saturateU16 (milli trust.hAccM)
  let verticalAccuracyMm ← saturateU16 (milli trust.vAccM)
  let velocityAccuracyMmS ← saturateU16 (milli speedAccuracy)
  let yawAccuracyCdeg ← yawDeg.elim (some 0) fun _ => saturateU16 (CFloat.lit 500 : F)
  let hdopCenti ← saturateU16 (centi args.hdop)
  let vdopCenti ← saturateU16 (centi args.vdop)
  let groundSpeedCmS ← saturateU16 (centi speed)
  let course ← PyInt.trunc (centi (geo.course motion.ve motion.vn))
  let yawCdeg ← yawDeg.elim (some 0) fun yaw => saturateU16 (centi (geo.mod360 yaw))
  let velocityUpCmS ← clampI16 (centi (neg motion.vd))
  some
    { timestampUs, timeUnixUs, latitudeDegE7, longitudeDegE7
      altitudeMslMm := altitudeMm
      altitudeEllipsoidMm := altitudeMm
      horizontalAccuracyMm, verticalAccuracyMm, velocityAccuracyMmS, yawAccuracyCdeg
      hdopCenti, vdopCenti, groundSpeedCmS
      courseOverGroundCdeg := course % 36000
      yawCdeg, velocityUpCmS
      flags := flags
      fixType := trust.fixType
      satellitesUsed := min args.satellites 255
      satellitesVisible := min args.satellites 255
      id := args.gnssInstance }

/-- `rotate_2d` by the angle of the facility, if there is one. -/
def rotated (geo : Geodesy F) (args : Args F) (x y : F) : F × F :=
  if nonzero args.yawOffset then geo.rotate2d x y args.yawOffset else (x, y)

/-- The motion of a sample: it has a velocity, or one is differenced with the position of
the last send, at `now`. -/
def motionOf (geo : Geodesy F) (args : Args F) (sample : PoseSample F)
    (prev : Option (F × F × F × F)) (now : F) : Motion F :=
  let (east, north) := rotated geo args sample.east sample.north
  let still := ⟨east, north, sample.up, CFloat.lit 0, CFloat.lit 0, CFloat.lit 0, false⟩
  match sample.velocityEnu, prev with
  | some v, _ =>
      let (ve, vn) := rotated geo args v.x v.y
      ⟨east, north, sample.up, ve, vn, neg v.z, true⟩
  | none, some (eastBefore, northBefore, upBefore, before) =>
      let dt := sub now before
      if CFloat.lt (CFloat.lit (1 / 1000)) dt then
        ⟨east, north, sample.up, CFloat.div (sub east eastBefore) dt,
          CFloat.div (sub north northBefore) dt, CFloat.div (neg (sub sample.up upBefore)) dt, true⟩
      else still
  | none, none => still

def trustOf (args : Args F) (sample : PoseSample F) (accuracy : Option (F × F)) : Trust F :=
  if sample.lost then ⟨noFix, accuracyUnusableM, accuracyUnusableM⟩
  else
    let (hAcc, vAcc) := accuracy.getD (args.hacc, args.vacc)
    if sample.degraded then
      ⟨fix3d, CFloat.mul hAcc args.degradedScale, CFloat.mul vAcc args.degradedScale⟩
    else ⟨fix3d, hAcc, vAcc⟩

/-- `sample_to_fix`: the fix and the position it reports. `now` is what
`time.monotonic()` is by then, and `timeS` is `time.time()`. -/
def sampleToFix (geo : Geodesy F) (args : Args F) (sample : PoseSample F)
    (prev : Option (F × F × F × F)) (bootUs now timeS : F) (accuracy : Option (F × F)) :
    Option (GnssFix × F × F × F) :=
  let motion := motionOf geo args sample prev now
  let yawDeg := sample.quat.map fun (w, x, y, z) =>
    geo.mod360 (CFloat.add (geo.quaternionToYaw x y z w) args.headingOffset)
  (buildGnssFix geo args motion (trustOf args sample accuracy) bootUs timeS
    (if args.publishYaw then yawDeg else none)).map fun fix =>
      (fix, motion.east, motion.north, motion.up)

end Fix

/-! ## What a fix says of itself -/

section Fields

variable {F : Type} [CFloat F] [PyInt F]

/-- A fix has the type and the accuracies it was to have. -/
theorem buildGnssFix_trust {geo : Geodesy F} {args : Args F} {motion : Motion F} {trust : Trust F}
    {bootUs timeS : F} {yawDeg : Option F} {fix : GnssFix}
    (h : buildGnssFix geo args motion trust bootUs timeS yawDeg = some fix) :
    fix.fixType = trust.fixType ∧
      saturateU16 (milli trust.hAccM) = some fix.horizontalAccuracyMm ∧
      saturateU16 (milli trust.vAccM) = some fix.verticalAccuracyMm := by
  unfold buildGnssFix at h
  -- the position and what comes before the accuracies, then what comes after them
  iterate 6 obtain ⟨_, _, h⟩ := Option.bind_eq_some_iff.mp h
  obtain ⟨hacc, hhacc, h⟩ := Option.bind_eq_some_iff.mp h
  obtain ⟨vacc, hvacc, h⟩ := Option.bind_eq_some_iff.mp h
  iterate 8 obtain ⟨_, _, h⟩ := Option.bind_eq_some_iff.mp h
  cases h
  exact ⟨rfl, hhacc, hvacc⟩

theorem sampleToFix_trust {geo : Geodesy F} {args : Args F} {sample : PoseSample F}
    {prev : Option (F × F × F × F)} {bootUs now timeS : F} {accuracy : Option (F × F)}
    {fix : GnssFix} {position : F × F × F}
    (h : sampleToFix geo args sample prev bootUs now timeS accuracy = some (fix, position)) :
    fix.fixType = (trustOf args sample accuracy).fixType ∧
      saturateU16 (milli (trustOf args sample accuracy).hAccM) = some fix.horizontalAccuracyMm ∧
      saturateU16 (milli (trustOf args sample accuracy).vAccM) = some fix.verticalAccuracyMm := by
  obtain ⟨built, hbuilt, heq⟩ := Option.map_eq_some_iff.mp h
  cases heq
  exact buildGnssFix_trust hbuilt

end Fields

/-- In exact arithmetic what is unusable saturates its field. -/
theorem saturateU16_unusable :
    saturateU16 (milli accuracyUnusableM : RatNan) = some 65535 := by
  have hmilli : (milli accuracyUnusableM : RatNan) = .rat ((65535 : Int) : Rat) := by
    show RatNan.rat (65535 / 1000 * 1000) = _
    norm_num
  have hpos : CFloat.lt (RatNan.rat ((65535 : Int) : Rat)) (CFloat.lit 0) = false := by
    show decide (((65535 : Int) : Rat) < 0) = false
    norm_num
  rw [saturateU16, hmilli, hpos, if_neg Bool.false_ne_true]
  show some (min (roundHalfEven ((65535 : Int) : Rat)) 65535) = _
  rw [roundHalfEven_intCast, min_self]

/-! ## What a sample has been told -/

/-- The data vouch for their position, unless the script was told not to look. -/
def Tracked {F : Type} (schema : Schema) (ignoreFlags : Bool) : Payload F → Prop
  | .externalPose data | .odom data =>
      (ignoreFlags = true ∨ data.flags &&& schema.positionValid ≠ 0) ∧
        data.flags &&& schema.lost = 0 ∧ data.status ≠ schema.statusLost
  | .poseLike _ => True
  | .mocap frame =>
      ∃ body ∈ frame.rigidBodies, ignoreFlags = true ∨ body.flags &&& schema.bodyValid ≠ 0
  | .malformed => False

theorem decodeOdom_tracked {F : Type} {schema : Schema} {ignoreFlags : Bool} {data : Odometry F}
    {sample : PoseSample F} (h : decodeOdom schema ignoreFlags data = some sample)
    (hlost : sample.lost = false) : Tracked schema ignoreFlags (.odom data) := by
  unfold decodeOdom at h
  split at h
  · cases h
  · rename_i hvalid
    cases h
    rw [isLost, Bool.or_eq_false_iff, decide_eq_false_iff_not, decide_eq_false_iff_not] at hlost
    refine ⟨?_, not_not.mp hlost.1, hlost.2⟩
    cases ignoreFlags with
    | true => exact Or.inl rfl
    | false => exact Or.inr fun hzero => hvalid ⟨hzero, rfl⟩

theorem decode_tracked {F : Type} {schema : Schema} {args : Args F} {payload : Payload F}
    {sample : PoseSample F} (h : decode schema args payload = some (some sample))
    (hlost : sample.lost = false) : Tracked schema args.ignoreFlags payload := by
  cases payload with
  | externalPose data =>
      have hdecoded := Option.some.inj h
      unfold decodeExternalPose at hdecoded
      split at hdecoded
      · cases hdecoded
      · exact decodeOdom_tracked hdecoded hlost
  | odom data => exact decodeOdom_tracked (Option.some.inj h) hlost
  | poseLike data => trivial
  | mocap frame =>
      have hdecoded := Option.some.inj h
      obtain ⟨body, hbody, hvalid⟩ := Option.bind_eq_some_iff.mp hdecoded
      have hmem : body ∈ frame.rigidBodies := by
        cases hinstance : args.instance? with
        | none =>
            rw [hinstance] at hbody
            exact List.mem_of_mem_head? hbody
        | some id =>
            rw [hinstance] at hbody
            exact List.mem_of_find?_eq_some hbody
      refine ⟨body, hmem, ?_⟩
      split at hvalid
      · cases hvalid
      · rename_i hflags
        cases hignore : args.ignoreFlags with
        | true => exact Or.inl rfl
        | false => exact Or.inr fun hzero => hflags ⟨hzero, hignore⟩
  | malformed => cases h

end Rdd2.GpsBridge
