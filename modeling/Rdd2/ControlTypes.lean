import Mathlib.Algebra.Field.Rat
import Mathlib.Algebra.Order.Ring.Rat
import Mathlib.Data.Rat.Cast.Defs
import Mathlib.Data.Rat.Floor

/-!
# Working types of the control loop

The private types of `rdd2_control_types.h`, the constants of the loop and
the flight mode switch. Here and in what builds on this, a definition has
its source's name in camel case, without the `rdd2_`.

Floating point is a parameter: `CFloat` has the operations the code uses
and no laws, so that what is proved of the loop holds of any rounding, and
of values that do not compare. Exact rational arithmetic is one instance.
-/

namespace Rdd2

/-! ## Floating point -/

/-- The operations of C on a floating type: literals and converted
integers, arithmetic, comparison, and the cast to `uint16_t`. -/
class CFloat (F : Type) where
  lit : Rat → F
  add : F → F → F
  mul : F → F → F
  div : F → F → F
  lt : F → F → Bool
  le : F → F → Bool
  toUInt16 : F → UInt16

/-- The casts between `float` and `double`. -/
class CDouble (F D : Type) where
  widen : F → D
  narrow : D → F

instance : CFloat Rat where
  lit q := q
  add a b := a + b
  mul a b := a * b
  div a b := a / b
  lt a b := decide (a < b)
  le a b := decide (a ≤ b)
  toUInt16 a := UInt16.ofNat a.floor.toNat

instance : CDouble Rat Rat where
  widen a := a
  narrow a := a

/-- Literals and arithmetic without rounding: what is proved of the arithmetic the
code means, and not of its rounding, is proved of these. -/
class ExactFloat (F : Type) [Field F] [CFloat F] : Prop where
  lit_eq (q : Rat) : (CFloat.lit q : F) = q
  add_eq (a b : F) : CFloat.add a b = a + b
  mul_eq (a b : F) : CFloat.mul a b = a * b
  div_eq (a b : F) : CFloat.div a b = a / b

instance : ExactFloat Rat where
  lit_eq _ := rfl
  add_eq _ _ := rfl
  mul_eq _ _ := rfl
  div_eq _ _ := rfl

/-- Exact values and a NaN, with which nothing compares. -/
inductive RatNan where
  | nan
  | rat (q : Rat)
  deriving DecidableEq, Repr

/-- An operation of which a NaN makes a NaN. -/
def RatNan.map₂ (op : Rat → Rat → Rat) : RatNan → RatNan → RatNan
  | .rat a, .rat b => .rat (op a b)
  | _, _ => .nan

/-- A comparison that a NaN fails. -/
def RatNan.compare (holds : Rat → Rat → Bool) : RatNan → RatNan → Bool
  | .rat a, .rat b => holds a b
  | _, _ => false

instance : CFloat RatNan where
  lit q := .rat q
  add := RatNan.map₂ (· + ·)
  mul := RatNan.map₂ (· * ·)
  div := RatNan.map₂ (· / ·)
  lt := RatNan.compare fun a b => decide (a < b)
  le := RatNan.compare fun a b => decide (a ≤ b)
  toUInt16
    | .nan => 0
    | .rat a => UInt16.ofNat a.floor.toNat

/-! ## Types -/

structure Vec3f (F : Type) where
  x : F
  y : F
  z : F
  deriving DecidableEq, Repr

structure RateTriplet (F : Type) where
  roll : F
  pitch : F
  yaw : F
  deriving DecidableEq, Repr

structure AttitudeEuler (F : Type) where
  roll : F
  pitch : F
  yaw : F
  deriving DecidableEq, Repr

abbrev RcChannels : Type := Fin 16 → Int

abbrev MotorValues (F : Type) : Type := Fin 4 → F

abbrev MotorRaw : Type := Fin 4 → UInt16

inductive FlightMode where
  | acro
  | autoLevel
  deriving DecidableEq, Repr

structure ControlStatus where
  rcStampMs : Int
  throttleUs : Int
  rcLinkQuality : UInt8
  flightMode : FlightMode
  armed : Bool
  rcValid : Bool
  rcStale : Bool
  imuOk : Bool
  armSwitch : Bool
  deriving DecidableEq, Repr

/-! ## Zero initialisers -/

section Zero

variable (F : Type) [CFloat F]

def Vec3f.zero : Vec3f F := ⟨CFloat.lit 0, CFloat.lit 0, CFloat.lit 0⟩

def RateTriplet.zero : RateTriplet F := ⟨CFloat.lit 0, CFloat.lit 0, CFloat.lit 0⟩

def AttitudeEuler.zero : AttitudeEuler F := ⟨CFloat.lit 0, CFloat.lit 0, CFloat.lit 0⟩

def MotorValues.zero : MotorValues F := fun _ => CFloat.lit 0

end Zero

/-! ## Constants -/

def attitudeAutolevelDiv : Nat := 1600 / 200
def attitudeBackgroundDiv : Nat := 1600 / 100
def flightStatePublishDiv : Nat := 1600 / 200
def rcStaleTimeoutMs : Int := 100
def throttleArmMax : Int := 1050
/-- `RDD2_ROLL_CHANNEL_INDEX` -/
def rcRollIndex : Fin 16 := 0
/-- `RDD2_PITCH_CHANNEL_INDEX` -/
def rcPitchIndex : Fin 16 := 1
/-- `RDD2_THROTTLE_CHANNEL_INDEX` -/
def rcThrottleIndex : Fin 16 := 2
/-- `RDD2_YAW_CHANNEL_INDEX` -/
def rcYawIndex : Fin 16 := 3
/-- `RDD2_ARM_CHANNEL_INDEX` -/
def rcArmIndex : Fin 16 := 4
def flightModeChannelIndex : Fin 16 := 5
def flightModeSwitchUs : Int := 1500

def controlDtS (F : Type) [CFloat F] : F := CFloat.div (CFloat.lit 1) (CFloat.lit 1600)

def flightModeFromRc (rc : RcChannels) : FlightMode :=
  if rc flightModeChannelIndex ≥ flightModeSwitchUs then .autoLevel else .acro

/-- `loop_divider_expired`: the answer, and the countdown it leaves. -/
def loopDividerExpired (countdown divisor : Nat) : Bool × Nat :=
  if countdown > 0 then (false, countdown - 1) else (true, divisor - 1)

def clampf {F : Type} [CFloat F] (value minValue maxValue : F) : F :=
  if CFloat.lt value minValue then minValue
  else if CFloat.lt maxValue value then maxValue
  else value

end Rdd2
