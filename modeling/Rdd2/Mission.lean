import Rdd2.Binary64
import Mathlib.Data.List.Basic

/-!
# The verdict on a mission

`evaluate` of `tools/fastdyn_mission`: twelve checks over the report of a
flown mission, each of which adds its line to the failures, and the verdict,
which is that there are none.

The checks ask whether a requirement is broken. `Requirement.Met` asks
whether it is met; of numbers the two are one question. Of a value that is
not a number, which a plant that has diverged hands over, neither holds:
the requirement is not met and not broken either, and the mission passes it
(`evaluate_judges_iff`).
-/

namespace Rdd2.Mission

open Binary64 (lt le)

/-! ## The report -/

/-- The fields of `Report` that `evaluate` reads or writes. -/
structure Report where
  passed : Bool := false
  speedupOverRealtime : Binary64 := ⟨0⟩
  minimumSpeedupRequired : Binary64 := ⟨0⟩
  flightStateMessages : UInt64 := 0
  maxAltitudeM : Binary64 := ⟨0⟩
  maxTiltDeg : Binary64 := ⟨0⟩
  maxRollResponseDeg : Binary64 := ⟨0⟩
  maxPitchResponseDeg : Binary64 := ⟨0⟩
  finalAltitudeM : Binary64 := ⟨0⟩
  finalVerticalSpeedMS : Binary64 := ⟨0⟩
  firmwareArmedObserved : Bool := false
  firmwareDisarmedAfterFlight : Bool := false
  firmwareRcAndImuHealthy : Bool := false
  firmwareAutoLevelObserved : Bool := false
  failures : List String := []
  deriving DecidableEq, Repr

/-! ## Literals

The limits as the compiler reads them, to the nearest value. -/

/-- `0.20` -/
def landedM : Binary64 := ⟨0x3FC999999999999A⟩
/-- `0.50` -/
def settledMS : Binary64 := ⟨0x3FE0000000000000⟩
/-- `1.0` -/
def takeOffM : Binary64 := ⟨0x3FF0000000000000⟩
/-- `2.0` -/
def responseDeg : Binary64 := ⟨0x4000000000000000⟩
/-- `45.0` -/
def tiltDeg : Binary64 := ⟨0x4046800000000000⟩

-- off by less than half of the last place, `2 ^ (-55)`
example : 2 * (landedM.value * 5 - 2 ^ 1074) < 5 * 2 ^ 1019 ∧ 2 ^ 1074 ≤ landedM.value * 5 := by
  decide +kernel

example : settledMS.value * 2 = 2 ^ 1074 ∧ takeOffM.value = 2 ^ 1074 ∧
    responseDeg.value = 2 * 2 ^ 1074 ∧ tiltDeg.value = 45 * 2 ^ 1074 := by
  decide +kernel

/-! ## Numbers in a text -/

/-- `n / d` to the nearest integer, a tie to the even one. -/
def roundEven (n d : Nat) : Nat :=
  let q := n / d
  let r := n % d
  if 2 * r < d then q else if d < 2 * r then q + 1 else q + q % 2

/-- `{:.3}` -/
def fixed3 (x : Binary64) : String :=
  if x.IsNan then "NaN"
  else
    let sign := if x.negative then "-" else ""
    if x.IsInfinite then sign ++ "inf"
    else
      let n := roundEven (x.magnitude * 1000) (2 ^ 1074)
      sign ++ toString (n / 1000) ++ "." ++ toString (n / 100 % 10) ++ toString (n / 10 % 10)
        ++ toString (n % 10)

example : fixed3 tiltDeg = "45.000" ∧ fixed3 landedM = "0.200" := by
  decide +kernel

/-! ## The checks -/

/-- One check: `failure` is pushed if the requirement is broken. -/
def Report.failIf (report : Report) (broken : Bool) (failure : String) : Report :=
  if broken then { report with failures := report.failures ++ [failure] } else report

def evaluate (report : Report) : Report :=
  let report := report.failIf (lt report.speedupOverRealtime report.minimumSpeedupRequired)
    ("simulation speed " ++ fixed3 report.speedupOverRealtime ++ "x is below required "
      ++ fixed3 report.minimumSpeedupRequired ++ "x")
  let report := report.failIf (!report.firmwareArmedObserved) "firmware never armed"
  let report := report.failIf (!report.firmwareDisarmedAfterFlight)
    "firmware did not disarm after landing"
  let report := report.failIf (!report.firmwareRcAndImuHealthy)
    "firmware did not report valid RC and IMU state"
  let report := report.failIf (!report.firmwareAutoLevelObserved)
    "firmware did not enter AUTO_LEVEL"
  let report := report.failIf (decide (report.flightStateMessages < 20))
    "too few VehicleHealth messages"
  let report := report.failIf (lt report.maxAltitudeM takeOffM)
    "vehicle did not take off above 1 m"
  let report := report.failIf (lt report.maxRollResponseDeg responseDeg)
    "roll maneuver produced less than 2 degrees"
  let report := report.failIf (lt report.maxPitchResponseDeg responseDeg)
    "pitch maneuver produced less than 2 degrees"
  let report := report.failIf (lt tiltDeg report.maxTiltDeg) "vehicle exceeded 45 degrees tilt"
  let report := report.failIf (lt landedM report.finalAltitudeM)
    "vehicle did not land within 0.20 m"
  let report := report.failIf (lt settledMS report.finalVerticalSpeedMS.abs)
    "vehicle had excessive vertical speed at completion"
  { report with passed := report.failures.isEmpty }

/-! ## The requirements -/

/-- What a mission has to meet, in the order of the checks. -/
inductive Requirement where
  | speed
  | armed
  | disarmed
  | healthy
  | autoLevel
  | messages
  | altitude
  | roll
  | pitch
  | tilt
  | landed
  | settled
  deriving DecidableEq, Repr

namespace Requirement

def all : List Requirement :=
  [speed, armed, disarmed, healthy, autoLevel, messages, altitude, roll, pitch, tilt, landed,
    settled]

theorem mem_all (q : Requirement) : q ∈ all := by
  cases q <;> decide

def met (report : Report) : Requirement → Bool
  | speed => le report.minimumSpeedupRequired report.speedupOverRealtime
  | armed => report.firmwareArmedObserved
  | disarmed => report.firmwareDisarmedAfterFlight
  | healthy => report.firmwareRcAndImuHealthy
  | autoLevel => report.firmwareAutoLevelObserved
  | messages => decide (20 ≤ report.flightStateMessages)
  | altitude => le takeOffM report.maxAltitudeM
  | roll => le responseDeg report.maxRollResponseDeg
  | pitch => le responseDeg report.maxPitchResponseDeg
  | tilt => le report.maxTiltDeg tiltDeg
  | landed => le report.finalAltitudeM landedM
  | settled => le report.finalVerticalSpeedMS.abs settledMS

def broken (report : Report) : Requirement → Bool
  | speed => lt report.speedupOverRealtime report.minimumSpeedupRequired
  | armed => !report.firmwareArmedObserved
  | disarmed => !report.firmwareDisarmedAfterFlight
  | healthy => !report.firmwareRcAndImuHealthy
  | autoLevel => !report.firmwareAutoLevelObserved
  | messages => decide (report.flightStateMessages < 20)
  | altitude => lt report.maxAltitudeM takeOffM
  | roll => lt report.maxRollResponseDeg responseDeg
  | pitch => lt report.maxPitchResponseDeg responseDeg
  | tilt => lt tiltDeg report.maxTiltDeg
  | landed => lt landedM report.finalAltitudeM
  | settled => lt settledMS report.finalVerticalSpeedMS.abs

def failure (report : Report) : Requirement → String
  | speed => "simulation speed " ++ fixed3 report.speedupOverRealtime ++ "x is below required "
      ++ fixed3 report.minimumSpeedupRequired ++ "x"
  | armed => "firmware never armed"
  | disarmed => "firmware did not disarm after landing"
  | healthy => "firmware did not report valid RC and IMU state"
  | autoLevel => "firmware did not enter AUTO_LEVEL"
  | messages => "too few VehicleHealth messages"
  | altitude => "vehicle did not take off above 1 m"
  | roll => "roll maneuver produced less than 2 degrees"
  | pitch => "pitch maneuver produced less than 2 degrees"
  | tilt => "vehicle exceeded 45 degrees tilt"
  | landed => "vehicle did not land within 0.20 m"
  | settled => "vehicle had excessive vertical speed at completion"

/-- The floating fields the check compares. -/
def compared (report : Report) : Requirement → List Binary64
  | speed => [report.speedupOverRealtime, report.minimumSpeedupRequired]
  | armed | disarmed | healthy | autoLevel | messages => []
  | altitude => [report.maxAltitudeM]
  | roll => [report.maxRollResponseDeg]
  | pitch => [report.maxPitchResponseDeg]
  | tilt => [report.maxTiltDeg]
  | landed => [report.finalAltitudeM]
  | settled => [report.finalVerticalSpeedMS]

end Requirement

/-! ## What the checks find -/

open Requirement (all met broken failure compared mem_all)

theorem failIf_eq (report : Report) (b : Bool) (text : String) :
    report.failIf b text
      = { report with failures := report.failures ++ if b then [text] else [] } := by
  cases b <;> simp [Report.failIf]

theorem map_filter_cons {α β : Type} (p : α → Bool) (f : α → β) (a : α) (l : List α) :
    ((a :: l).filter p).map f = (if p a then [f a] else []) ++ (l.filter p).map f := by
  cases h : p a <;> simp [h]

theorem evaluate_failures (report : Report) :
    (evaluate report).failures
      = report.failures ++ (all.filter (broken report)).map (failure report) := by
  simp only [evaluate, failIf_eq, all, map_filter_cons, List.filter_nil, List.map_nil,
    List.append_assoc, List.append_nil]
  rfl

theorem evaluate_passed (report : Report) :
    (evaluate report).passed = (evaluate report).failures.isEmpty := rfl

/-! ## Broken and not met -/

/-- A requirement that is met is not broken. -/
theorem not_broken_of_met {report : Report} {q : Requirement} (h : met report q = true) :
    broken report q = false := by
  cases q with
  | speed | altitude | roll | pitch | tilt | landed | settled => exact Binary64.not_lt_of_le h
  | armed | disarmed | healthy | autoLevel => exact congrArg (!·) h
  | messages => simpa [broken, met] using h

theorem limit_le_iff {limit : Binary64} (h : ¬ limit.IsNan) (x : Binary64) :
    (le limit x = !lt x limit ↔ ¬ x.IsNan) ∧ (le x limit = !lt limit x ↔ ¬ x.IsNan) := by
  rw [Binary64.le_eq_not_lt, Binary64.le_eq_not_lt]
  simp only [h, not_false_eq_true, true_and, and_true, and_self]

/-- It is the one or the other, unless the check compares a NaN. -/
theorem met_eq_not_broken (report : Report) (q : Requirement) :
    met report q = !broken report q ↔ ∀ x ∈ compared report q, ¬ x.IsNan := by
  cases q with
  | armed | disarmed | healthy | autoLevel => simp [met, broken, compared]
  | messages =>
      have hdecide : decide (20 ≤ report.flightStateMessages)
          = !decide (report.flightStateMessages < 20) := by
        rw [← decide_not, decide_eq_decide, UInt64.not_lt]
      simp [met, broken, compared, hdecide]
  | speed =>
      rw [met, broken, Binary64.le_eq_not_lt]
      simp [compared, and_comm]
  | altitude =>
      rw [met, broken, (limit_le_iff (by decide) _).1]
      simp [compared]
  | roll | pitch =>
      rw [met, broken, (limit_le_iff (by decide) _).1]
      simp [compared]
  | tilt | landed =>
      rw [met, broken, (limit_le_iff (by decide) _).2]
      simp [compared]
  | settled =>
      rw [met, broken, (limit_le_iff (by decide) _).2, Binary64.abs_isNan]
      simp [compared]

/-! ## The verdict -/

def Report.readings (report : Report) : List Binary64 :=
  [report.speedupOverRealtime, report.minimumSpeedupRequired, report.maxAltitudeM,
    report.maxRollResponseDeg, report.maxPitchResponseDeg, report.maxTiltDeg,
    report.finalAltitudeM, report.finalVerticalSpeedMS]

/-- The mission passed if every requirement is met, and there is one failure
for each that is not. -/
structure Judged (report after : Report) : Prop where
  passed : after.passed = true ↔ ∀ q, met report q = true
  failures : after.failures = (all.filter fun q => !met report q).map (failure report)

instance (report after : Report) : Decidable (Judged report after) :=
  decidable_of_iff
    ((after.passed = true ↔ ∀ q ∈ all, met report q = true) ∧
      after.failures = (all.filter fun q => !met report q).map (failure report))
    ⟨fun h => ⟨h.1.trans ⟨fun hq q => hq q (mem_all q), fun hq q _ => hq q⟩, h.2⟩,
      fun h => ⟨h.1.trans ⟨fun hq q _ => hq q, fun hq q => hq q (mem_all q)⟩, h.2⟩⟩

theorem readings_eq (report : Report) : report.readings = all.flatMap (compared report) := rfl

/-- Every mission is judged by its requirements if and only if none of the
values compared is a NaN. -/
theorem evaluate_judges_iff (report : Report) (hempty : report.failures = []) :
    Judged report (evaluate report) ↔ ∀ x ∈ report.readings, ¬ x.IsNan := by
  have hfailures : (evaluate report).failures
      = (all.filter (broken report)).map (failure report) := by
    rw [evaluate_failures, hempty, List.nil_append]
  have hreadings : (∀ x ∈ report.readings, ¬ x.IsNan) ↔
      ∀ q, met report q = !broken report q := by
    simp only [met_eq_not_broken, readings_eq, List.mem_flatMap]
    exact ⟨fun h q x hx => h x ⟨q, mem_all q, hx⟩, fun h x ⟨q, _, hx⟩ => h q x hx⟩
  rw [hreadings]
  constructor
  · intro h q
    -- as many failures as requirements not met, of which the broken ones are some
    have hsub : (all.filter (broken report)).Sublist (all.filter fun q => !met report q) := by
      refine List.monotone_filter_right all fun q hq => ?_
      cases hmet : met report q with
      | false => rfl
      | true =>
          rw [not_broken_of_met hmet] at hq
          cases hq
    have hlength : (all.filter (broken report)).length
        = (all.filter fun q => !met report q).length := by
      simpa using congrArg List.length (hfailures.symm.trans h.failures)
    have hsame := hsub.eq_of_length hlength
    cases hmet : met report q with
    | true =>
        rw [not_broken_of_met hmet]
        rfl
    | false =>
        have hmem : q ∈ all.filter fun q => !met report q := by
          simp [mem_all, hmet]
        rw [← hsame, List.mem_filter] at hmem
        rw [hmem.2]
        rfl
  · intro h
    have hunmet : (fun q => !met report q) = broken report := by
      funext q
      rw [h q, Bool.not_not]
    refine ⟨?_, by rw [hunmet, hfailures]⟩
    rw [evaluate_passed, hfailures, List.isEmpty_iff, List.map_eq_nil_iff, List.filter_eq_nil_iff]
    simp only [h, mem_all, true_implies, Bool.not_eq_true, Bool.not_eq_true']

/-- The nominal mission of the tests. -/
def nominalReport : Report where
  speedupOverRealtime := ⟨0x4028000000000000⟩
  minimumSpeedupRequired := ⟨0x4024000000000000⟩
  firmwareArmedObserved := true
  firmwareDisarmedAfterFlight := true
  firmwareRcAndImuHealthy := true
  firmwareAutoLevelObserved := true
  flightStateMessages := 100
  maxAltitudeM := ⟨0x4000000000000000⟩
  maxRollResponseDeg := ⟨0x4014000000000000⟩
  maxPitchResponseDeg := ⟨0x4014000000000000⟩
  maxTiltDeg := ⟨0x4034000000000000⟩
  finalAltitudeM := ⟨0x3FA999999999999A⟩

theorem evaluate_judges_iff_nominal :
    Judged nominalReport (evaluate nominalReport) ↔
      ∀ x ∈ nominalReport.readings, ¬ x.IsNan :=
  evaluate_judges_iff nominalReport rfl

/-- The same mission at the end of which the plant's altitude is a NaN: it has
not landed within 0.20 m, and passes without a failure. -/
theorem diverged_mission_passes :
    let report := { nominalReport with finalAltitudeM := ⟨0x7FF8000000000000⟩ }
    report.failures = [] ∧ (evaluate report).passed = true ∧ (evaluate report).failures = [] ∧
      met report .landed = false ∧ ¬ Judged report (evaluate report) := by
  decide +kernel

end Rdd2.Mission
