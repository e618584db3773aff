import Mathlib.Analysis.Real.Sqrt
import Mathlib.Order.Bounds.Basic
import Rdd2.ControlTypes
import Rdd2.Moments

/-!
# Latency statistics

`imu_latency_stats.c`: every cycle hands in its IMU-to-motor latency, and the
statistics of those that are not zero are published as a snapshot. Mean and
second moment are kept by a one-pass recurrence. In exact arithmetic they are
the mean and the deviations of `Moments`, and the snapshot is the summary of
the latencies by its definition (`snapshot_summarises`), for as long as the
64-bit counter has not come round (`count_wraps`).

How a snapshot is published while another thread reads is in `ImuLatencyShared`;
here a publication is one step.
-/

namespace Rdd2

/-! ## Data -/

/-- Subtraction and the square root of `math.h`. -/
class CMath (D : Type) where
  sub : D → D → D
  sqrt : D → D

/-- `struct rdd2_imu_latency_stats_snapshot` -/
structure ImuLatencySnapshot (F : Type) where
  lastUs : UInt32
  minUs : UInt32
  maxUs : UInt32
  meanUs : F
  stddevUs : F
  sampleCount : UInt64
  deriving DecidableEq, Repr

/-- `struct rdd2_imu_latency_stats_state` -/
structure ImuLatencyStats (F D : Type) where
  sequence : UInt32
  snapshot : ImuLatencySnapshot F
  lastUs : UInt32
  minUs : UInt32
  maxUs : UInt32
  sampleCount : UInt64
  meanUs : D
  m2Us2 : D
  deriving DecidableEq, Repr

section Update

variable {F D : Type} [CFloat F] [CFloat D] [CDouble F D] [CMath D]

variable (F) in
def ImuLatencySnapshot.zero : ImuLatencySnapshot F := ⟨0, 0, 0, CFloat.lit 0, CFloat.lit 0, 0⟩

variable (F D) in
def imuLatencyStatsReset : ImuLatencyStats F D :=
  ⟨0, ImuLatencySnapshot.zero F, 0, 0, 0, 0, CFloat.lit 0, CFloat.lit 0⟩

/-- `rdd2_imu_latency_stats_publish`, undisturbed. -/
def imuLatencyStatsPublish (s : ImuLatencyStats F D) (snapshot : ImuLatencySnapshot F) :
    ImuLatencyStats F D :=
  { s with sequence := s.sequence + 1 + 1, snapshot := snapshot }

/-- `rdd2_imu_latency_stats_update` from the counter to the second moment. -/
def ImuLatencyStats.take (s : ImuLatencyStats F D) (latencyUs : UInt32) : ImuLatencyStats F D :=
  let s := { s with sampleCount := s.sampleCount + 1, lastUs := latencyUs }
  let latency : D := CFloat.lit latencyUs.toNat
  if s.sampleCount = 1 then
    { s with minUs := latencyUs, maxUs := latencyUs, meanUs := latency, m2Us2 := CFloat.lit 0 }
  else
    let s := if latencyUs < s.minUs then { s with minUs := latencyUs } else s
    let s := if latencyUs > s.maxUs then { s with maxUs := latencyUs } else s
    let delta := CMath.sub latency s.meanUs
    let s := { s with
      meanUs := CFloat.add s.meanUs (CFloat.div delta (CFloat.lit s.sampleCount.toNat)) }
    let delta2 := CMath.sub latency s.meanUs
    { s with m2Us2 := CFloat.add s.m2Us2 (CFloat.mul delta delta2) }

def ImuLatencyStats.varianceUs2 (s : ImuLatencyStats F D) : D :=
  if s.sampleCount > 1 then CFloat.div s.m2Us2 (CFloat.lit s.sampleCount.toNat) else CFloat.lit 0

def ImuLatencyStats.snapshotOf (s : ImuLatencyStats F D) : ImuLatencySnapshot F where
  lastUs := s.lastUs
  minUs := s.minUs
  maxUs := s.maxUs
  meanUs := CDouble.narrow s.meanUs
  stddevUs := CDouble.narrow (CMath.sqrt s.varianceUs2)
  sampleCount := s.sampleCount

def imuLatencyStatsUpdate (s : ImuLatencyStats F D) (latencyUs : UInt32) : ImuLatencyStats F D :=
  if latencyUs = 0 then s
  else
    let s := s.take latencyUs
    imuLatencyStatsPublish s s.snapshotOf

variable (F D) in
def latencyStats (latencies : List UInt32) : ImuLatencyStats F D :=
  latencies.foldl imuLatencyStatsUpdate (imuLatencyStatsReset F D)

def counted (latencies : List UInt32) : List UInt32 := latencies.filter (· ≠ 0)

end Update

/-! ## One update -/

theorem imuLatencyStatsUpdate_zero {F D : Type} [CFloat D] [CDouble F D] [CMath D]
    (s : ImuLatencyStats F D) : imuLatencyStatsUpdate s 0 = s := rfl

theorem take_sampleCount {F D : Type} [CFloat D] [CMath D] (s : ImuLatencyStats F D)
    (latencyUs : UInt32) :
    (s.take latencyUs).sampleCount = s.sampleCount + 1 := by
  simp only [ImuLatencyStats.take]
  split_ifs <;> rfl

/-! ## Runs of updates -/

section Runs

variable {F D : Type} [CFloat F] [CFloat D] [CDouble F D] [CMath D]

theorem latencyStats_counted (latencies : List UInt32) :
    latencyStats F D latencies = latencyStats F D (counted latencies) := by
  rw [latencyStats, latencyStats, counted, List.foldl_filter]
  congr 1
  funext s latencyUs
  by_cases h : latencyUs = 0
  · simp [h, imuLatencyStatsUpdate_zero]
  · simp [h]

theorem latencyStats_concat (latencies : List UInt32) {latencyUs : UInt32} (h : latencyUs ≠ 0) :
    let s := (latencyStats F D latencies).take latencyUs
    latencyStats F D (latencies ++ [latencyUs]) = imuLatencyStatsPublish s s.snapshotOf := by
  intro s
  rw [latencyStats, List.foldl_concat, imuLatencyStatsUpdate, if_neg h]
  rfl

theorem latencyStats_sampleCount {latencies : List UInt32} (h : ∀ x ∈ latencies, x ≠ 0) :
    (latencyStats F D latencies).sampleCount = UInt64.ofNat latencies.length := by
  induction latencies using List.reverseRecOn with
  | nil => rfl
  | append_singleton latencies latencyUs ih =>
      rw [List.forall_mem_append, List.forall_mem_singleton] at h
      rw [latencyStats_concat latencies h.2, imuLatencyStatsPublish, take_sampleCount, ih h.1,
        List.length_append, List.length_singleton, UInt64.ofNat_add]
      rfl

/-- What is published last is a snapshot of the statistics. -/
theorem latencyStats_snapshot {latencies : List UInt32} (hsome : latencies ≠ [])
    (h : ∀ x ∈ latencies, x ≠ 0) :
    (latencyStats F D latencies).snapshot = (latencyStats F D latencies).snapshotOf := by
  obtain ⟨before, latencyUs, rfl⟩ := (List.eq_nil_or_concat' latencies).resolve_left hsome
  rw [List.forall_mem_append, List.forall_mem_singleton] at h
  rw [latencyStats_concat before h.2]
  rfl

end Runs

/-! ## Exact arithmetic -/

class ExactMath (K : Type) [Field K] [CMath K] : Prop where
  sub_eq (a b : K) : CMath.sub a b = a - b

section Exact

variable {F K : Type} [Field K]

variable (K) in
def latencyValues (latencies : List UInt32) : List K :=
  latencies.map fun latencyUs => (latencyUs.toNat : K)

structure ImuLatencyStats.Holds (s : ImuLatencyStats F K) (latencies : List UInt32) : Prop where
  count : s.sampleCount.toNat = latencies.length
  last : latencies.getLast? = some s.lastUs
  least : IsLeast {x | x ∈ latencies} s.minUs
  greatest : IsGreatest {x | x ∈ latencies} s.maxUs
  mean : s.meanUs = Moments.mean (latencyValues K latencies)
  m2 : s.m2Us2 = Moments.deviations (latencyValues K latencies)

theorem ImuLatencyStats.Holds.publish {s : ImuLatencyStats F K} {latencies : List UInt32}
    (h : s.Holds latencies) (snapshot : ImuLatencySnapshot F) :
    (imuLatencyStatsPublish s snapshot).Holds latencies :=
  ⟨h.count, h.last, h.least, h.greatest, h.mean, h.m2⟩

variable [CFloat K] [ExactFloat K]

theorem exact_lit (n : Nat) : (CFloat.lit n : K) = n := by
  rw [ExactFloat.lit_eq, Rat.cast_natCast]

theorem ImuLatencyStats.Holds.varianceUs2 {s : ImuLatencyStats F K} {latencies : List UInt32}
    (h : s.Holds latencies) :
    s.varianceUs2 = Moments.variance (latencyValues K latencies) := by
  have hlength : (latencyValues K latencies).length = latencies.length := List.length_map _
  rw [ImuLatencyStats.varianceUs2, exact_lit, h.count, h.m2, ExactFloat.div_eq, Moments.variance,
    hlength]
  split
  · rfl
  · rename_i hone
    have hle : latencies.length ≤ 1 := by
      rw [gt_iff_lt, UInt64.lt_iff_toNat_lt, h.count] at hone
      exact Nat.le_of_not_lt hone
    have hzero : Moments.deviations (latencyValues K latencies) = 0 := by
      match latencies, hle with
      | [], _ => rfl
      | [x], _ => simp [latencyValues, Moments.mean, Moments.deviations]
    rw [hzero, zero_div, ExactFloat.lit_eq, Rat.cast_zero]

variable [CMath K]

theorem take_first {s : ImuLatencyStats F K} (h : s.sampleCount = 0) (latencyUs : UInt32) :
    s.take latencyUs = { s with
      sampleCount := 1
      lastUs := latencyUs
      minUs := latencyUs
      maxUs := latencyUs
      meanUs := (latencyUs.toNat : K)
      m2Us2 := 0 } := by
  have hzero : (CFloat.lit 0 : K) = 0 := by rw [ExactFloat.lit_eq, Rat.cast_zero]
  have hone : s.sampleCount + 1 = 1 := by
    rw [h]
    rfl
  simp only [ImuLatencyStats.take, hone, if_true, exact_lit, hzero]

theorem ImuLatencyStats.Holds.first {s : ImuLatencyStats F K} (h : s.sampleCount = 0)
    (latencyUs : UInt32) : (s.take latencyUs).Holds [latencyUs] := by
  rw [take_first h]
  constructor
  · rfl
  · rfl
  · simp [IsLeast, lowerBounds]
  · simp [IsGreatest, upperBounds]
  · simp [latencyValues, Moments.mean]
  · simp [latencyValues, Moments.mean, Moments.deviations]

section Snapshot

variable [CDouble F K]

variable (K) in
/-- A snapshot of the latencies by its definition. -/
structure Summarises (snapshot : ImuLatencySnapshot F) (latencies : List UInt32) : Prop where
  last : latencies.getLast? = some snapshot.lastUs
  least : IsLeast {x | x ∈ latencies} snapshot.minUs
  greatest : IsGreatest {x | x ∈ latencies} snapshot.maxUs
  count : snapshot.sampleCount.toNat = latencies.length
  mean : snapshot.meanUs = CDouble.narrow (Moments.mean (latencyValues K latencies))
  stddev : snapshot.stddevUs
    = CDouble.narrow (CMath.sqrt (Moments.variance (latencyValues K latencies)))

theorem ImuLatencyStats.Holds.summarises {s : ImuLatencyStats F K} {latencies : List UInt32}
    (h : s.Holds latencies) : Summarises K s.snapshotOf latencies :=
  ⟨h.last, h.least, h.greatest, h.count, congrArg CDouble.narrow h.mean,
    congrArg (fun v => CDouble.narrow (CMath.sqrt v)) h.varianceUs2⟩

end Snapshot

variable [ExactMath K]

theorem take_later {s : ImuLatencyStats F K} (h : s.sampleCount + 1 ≠ 1) (latencyUs : UInt32) :
    let x : K := latencyUs.toNat
    let mean := s.meanUs + (x - s.meanUs) / ((s.sampleCount + 1).toNat : K)
    s.take latencyUs = { s with
      sampleCount := s.sampleCount + 1
      lastUs := latencyUs
      minUs := if latencyUs < s.minUs then latencyUs else s.minUs
      maxUs := if latencyUs > s.maxUs then latencyUs else s.maxUs
      meanUs := mean
      m2Us2 := s.m2Us2 + (x - s.meanUs) * (x - mean) } := by
  simp only [ImuLatencyStats.take, if_neg h, exact_lit, ExactFloat.add_eq, ExactFloat.mul_eq,
    ExactFloat.div_eq, ExactMath.sub_eq]
  split_ifs <;> rfl

/-! ## The invariant -/

/-- An extreme of a list, after one more value: that value, or still the old
one. -/
theorem extreme_concat {r : UInt32 → UInt32 → Prop} (htrans : ∀ {a b c}, r a b → r b c → r a c)
    {xs : List UInt32} {m m' y : UInt32} (h : m ∈ xs ∧ ∀ ⦃x⦄, x ∈ xs → r m x)
    (hnext : (m' = y ∧ r y y ∧ r y m) ∨ (m' = m ∧ r m y)) :
    m' ∈ xs ++ [y] ∧ ∀ ⦃x⦄, x ∈ xs ++ [y] → r m' x := by
  obtain ⟨hmem, hall⟩ := h
  simp only [List.mem_append, List.mem_singleton]
  rcases hnext with ⟨rfl, hrefl, hold⟩ | ⟨rfl, hnew⟩
  · refine ⟨Or.inr rfl, ?_⟩
    rintro x (hx | rfl)
    · exact htrans hold (hall hx)
    · exact hrefl
  · refine ⟨Or.inl hmem, ?_⟩
    rintro x (hx | rfl)
    · exact hall hx
    · exact hnew

theorem isLeast_concat {latencies : List UInt32} {minUs : UInt32}
    (h : IsLeast {x | x ∈ latencies} minUs) (latencyUs : UInt32) :
    IsLeast {x | x ∈ latencies ++ [latencyUs]}
      (if latencyUs < minUs then latencyUs else minUs) := by
  refine extreme_concat (r := (· ≤ ·)) UInt32.le_trans h ?_
  split
  · rename_i hlt
    exact Or.inl ⟨rfl, UInt32.le_refl _, UInt32.le_of_lt hlt⟩
  · rename_i hnot
    exact Or.inr ⟨rfl, UInt32.not_lt.mp hnot⟩

theorem isGreatest_concat {latencies : List UInt32} {maxUs : UInt32}
    (h : IsGreatest {x | x ∈ latencies} maxUs) (latencyUs : UInt32) :
    IsGreatest {x | x ∈ latencies ++ [latencyUs]}
      (if latencyUs > maxUs then latencyUs else maxUs) := by
  refine extreme_concat (r := (· ≥ ·)) (fun hab hbc => UInt32.le_trans hbc hab) h ?_
  split
  · rename_i hlt
    exact Or.inl ⟨rfl, UInt32.le_refl _, UInt32.le_of_lt hlt⟩
  · rename_i hnot
    exact Or.inr ⟨rfl, UInt32.not_lt.mp hnot⟩

/-- While the counter does not come round, a latency taken in is one more of
those the statistics are about. -/
theorem ImuLatencyStats.Holds.take [CharZero K] {s : ImuLatencyStats F K} {latencies : List UInt32}
    (h : s.Holds latencies) (hsome : latencies ≠ []) (hroom : latencies.length + 1 < 2 ^ 64)
    (latencyUs : UInt32) : (s.take latencyUs).Holds (latencies ++ [latencyUs]) := by
  have hcount : (s.sampleCount + 1).toNat = latencies.length + 1 := by
    rw [UInt64.toNat_add, h.count]
    exact Nat.mod_eq_of_lt hroom
  have hmore : s.sampleCount + 1 ≠ 1 := by
    intro hone
    have hpos := List.length_pos_iff.mpr hsome
    have hword : (1 : UInt64).toNat = 1 := rfl
    rw [hone, hword] at hcount
    omega
  have hvalues : latencyValues K (latencies ++ [latencyUs])
      = latencyValues K latencies ++ [(latencyUs.toNat : K)] := by
    simp [latencyValues]
  have hlength : (latencyValues K latencies).length = latencies.length := List.length_map _
  rw [take_later hmore]
  refine ⟨?_, ?_, isLeast_concat h.least latencyUs, isGreatest_concat h.greatest latencyUs, ?_, ?_⟩
  · rw [List.length_append]
    exact hcount
  · simp
  · rw [hvalues, Moments.mean_concat, ← h.mean, hcount, hlength]
  · rw [hvalues, Moments.deviations_concat, Moments.mean_concat, ← h.mean, ← h.m2, hcount, hlength]

/-! ## Snapshots -/

variable [CDouble F K] [CFloat F]

theorem latencyStats_holds [CharZero K] {latencies : List UInt32} (hsome : latencies ≠ [])
    (hcount : ∀ x ∈ latencies, x ≠ 0) (hfew : latencies.length < 2 ^ 64) :
    (latencyStats F K latencies).Holds latencies := by
  induction latencies using List.reverseRecOn with
  | nil => exact absurd rfl hsome
  | append_singleton latencies latencyUs ih =>
      rw [List.forall_mem_append, List.forall_mem_singleton] at hcount
      rw [List.length_append, List.length_singleton] at hfew
      rw [latencyStats_concat latencies hcount.2]
      refine ImuLatencyStats.Holds.publish ?_ _
      by_cases hbefore : latencies = []
      · subst hbefore
        exact ImuLatencyStats.Holds.first rfl latencyUs
      · exact (ih hbefore hcount.1 (by omega)).take hbefore hfew latencyUs

/-- In exact arithmetic and for fewer than 2^64 latencies that count: the
snapshot is their summary, or still that of the reset if there are none; the
variance under the root is theirs and not negative; and zero latencies leave
everything as it was. -/
theorem snapshot_summarises [LinearOrder K] [IsStrictOrderedRing K] (latencies : List UInt32)
    (hfew : (counted latencies).length < 2 ^ 64) :
    (counted latencies = [] → latencyStats F K latencies = imuLatencyStatsReset F K) ∧
      (counted latencies ≠ [] →
        Summarises K (latencyStats F K latencies).snapshot (counted latencies)) ∧
      (latencyStats F K latencies).varianceUs2
        = Moments.variance (latencyValues K (counted latencies)) ∧
      0 ≤ (latencyStats F K latencies).varianceUs2 ∧
      ∀ s : ImuLatencyStats F K, imuLatencyStatsUpdate s 0 = s := by
  have hcounted : ∀ x ∈ counted latencies, x ≠ 0 := by
    intro x hx
    simpa using (List.mem_filter.mp hx).2
  have hvariance : (latencyStats F K latencies).varianceUs2
      = Moments.variance (latencyValues K (counted latencies)) := by
    rw [latencyStats_counted]
    by_cases hsome : counted latencies = []
    · have hzero : (imuLatencyStatsReset F K).varianceUs2 = CFloat.lit 0 := rfl
      rw [hsome, latencyStats, List.foldl_nil, hzero, ExactFloat.lit_eq, Rat.cast_zero]
      simp [latencyValues, Moments.variance, Moments.deviations]
    · exact (latencyStats_holds hsome hcounted hfew).varianceUs2
  refine ⟨fun hnone => ?_, fun hsome => ?_, hvariance, ?_, imuLatencyStatsUpdate_zero⟩
  · rw [latencyStats_counted, hnone]
    rfl
  · rw [latencyStats_counted, latencyStats_snapshot hsome hcounted]
    exact (latencyStats_holds hsome hcounted hfew).summarises
  · rw [hvariance]
    exact Moments.variance_nonneg _

end Exact

/-! ## The reals -/

noncomputable section

instance : CFloat ℝ where
  lit q := q
  add a b := a + b
  mul a b := a * b
  div a b := a / b
  lt a b := decide (a < b)
  le a b := decide (a ≤ b)
  toUInt16 a := UInt16.ofNat ⌊a⌋₊

instance : CDouble ℝ ℝ where
  widen a := a
  narrow a := a

instance : CMath ℝ where
  sub a b := a - b
  sqrt := Real.sqrt

end

instance : ExactFloat ℝ where
  lit_eq _ := rfl
  add_eq _ _ := rfl
  mul_eq _ _ := rfl
  div_eq _ _ := rfl

instance : ExactMath ℝ where
  sub_eq _ _ := rfl

/-- Latencies of 4 and 2 us, and a cycle without one between them. -/
theorem snapshot_summarises_three :
    let s := latencyStats ℝ ℝ [4, 0, 2]
    Summarises ℝ s.snapshot [4, 2] ∧ s.snapshot.meanUs = 3 ∧ s.snapshot.stddevUs = 1 := by
  intro s
  have hcounted : counted [4, 0, 2] = [4, 2] := by decide
  obtain ⟨-, hsome, -, -, -⟩ := snapshot_summarises (F := ℝ) (K := ℝ) [4, 0, 2] (by decide)
  rw [hcounted] at hsome
  have hsummary := hsome (by decide)
  have hvalues : latencyValues ℝ [4, 2] = [4, 2] := by
    have h4 : (4 : UInt32).toNat = 4 := rfl
    have h2 : (2 : UInt32).toNat = 2 := rfl
    simp [latencyValues, h4, h2]
  have hmean : Moments.mean (latencyValues ℝ [4, 2]) = 3 := by
    rw [hvalues]
    norm_num [Moments.mean]
  have hvariance : Moments.variance (latencyValues ℝ [4, 2]) = 1 := by
    rw [Moments.variance, Moments.deviations, hmean, hvalues]
    norm_num
  refine ⟨hsummary, hsummary.mean.trans hmean, hsummary.stddev.trans ?_⟩
  rw [hvariance]
  exact Real.sqrt_one

/-- After 2^64 latencies of 1 us the count is 0 again. -/
theorem count_wraps :
    ¬ Summarises ℝ (latencyStats ℝ ℝ (List.replicate (2 ^ 64) 1)).snapshot
      (counted (List.replicate (2 ^ 64) 1)) := by
  have hmany : ∀ n, 0 < n → Summarises ℝ (latencyStats ℝ ℝ (List.replicate n 1)).snapshot
      (counted (List.replicate n 1)) → n % 2 ^ 64 = n := by
    intro n hn h
    have hone : ∀ x ∈ List.replicate n (1 : UInt32), x ≠ 0 := by
      intro x hx
      rw [List.eq_of_mem_replicate hx]
      decide
    have hsome : List.replicate n (1 : UInt32) ≠ [] := by
      rw [ne_eq, List.replicate_eq_nil_iff]
      exact Nat.ne_of_gt hn
    have hcounted : counted (List.replicate n 1) = List.replicate n 1 := by
      rw [counted, List.filter_eq_self]
      simp
    have hcount := h.count
    rw [hcounted, List.length_replicate, latencyStats_snapshot hsome hone,
      ImuLatencyStats.snapshotOf, latencyStats_sampleCount hone, List.length_replicate,
      UInt64.toNat_ofNat'] at hcount
    exact hcount
  intro h
  have hwrapped := hmany (2 ^ 64) (by norm_num) h
  rw [Nat.mod_self] at hwrapped
  norm_num at hwrapped

end Rdd2
