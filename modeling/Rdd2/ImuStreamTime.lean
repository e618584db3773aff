import Mathlib.Algebra.BigOperators.Group.List.Basic
import Mathlib.Tactic.Ring
import Rdd2.ImuStream
import Rdd2.Succession

/-!
# Time and watchdog of the IMU stream

Two accounts of the same runs. `imu_time_measured`: the steps that the control loop is
handed are positive and, where they were measured, add up to the time that has passed
at the sensor, unless the watchdog's reset comes between two accesses of the control
thread that belong together (`ImuStepOk`). `imu_watchdog_restarts`: the watchdog
restarts the stream when it finds the sample count where it left it, and only then.
-/

namespace Rdd2

/-! ## Time -/

section Time

variable {B F : Type}

def LastStamped (samples : List (ImuSample B F)) (stamp : UInt64) : Prop :=
  ∃ last, samples.getLast? = some last ∧ last.reading.sampleNs = stamp

/-- The second of two samples was measured, or has no later time stamp. -/
def Measured (a b : ImuSample B F) : Prop :=
  b.linked = true ∨ b.reading.sampleNs ≤ a.reading.sampleNs

instance : DecidableRel (Measured (B := B) (F := F)) := fun a b =>
  inferInstanceAs (Decidable (b.linked = true ∨ b.reading.sampleNs ≤ a.reading.sampleNs))

/-- The samples that could have been measured if there had been a stamp: the first,
and those behind a break. -/
def unmeasured (samples : List (ImuSample B F)) : Nat :=
  if samples.isEmpty then 0 else Succession.breaks Measured samples + 1

theorem unmeasured_of_concat (before : List (ImuSample B F)) (last : ImuSample B F) :
    unmeasured (before ++ [last]) = Succession.breaks Measured (before ++ [last]) + 1 :=
  if_neg (by simp)

theorem unmeasured_concat_le (samples : List (ImuSample B F)) (sample : ImuSample B F) :
    unmeasured (samples ++ [sample]) ≤ unmeasured samples + 1 := by
  rcases List.eq_nil_or_concat samples with rfl | ⟨before, last, rfl⟩
  · simp [unmeasured]
  · rw [List.concat_eq_append, unmeasured_of_concat, unmeasured_of_concat,
      Succession.breaks_concat]
    split <;> omega

theorem unmeasured_concat {samples : List (ImuSample B F)} {sample last : ImuSample B F}
    (hlast : samples.getLast? = some last) (h : Measured last sample) :
    unmeasured (samples ++ [sample]) = unmeasured samples := by
  obtain ⟨before, rfl⟩ := List.getLast?_eq_some_iff.mp hlast
  rw [unmeasured_of_concat, unmeasured_of_concat, Succession.breaks_concat, if_pos h]

theorem breaks_lt_unmeasured (samples : List (ImuSample B F)) (sample : ImuSample B F) :
    Succession.breaks Measured samples < unmeasured (samples ++ [sample]) := by
  rw [unmeasured_of_concat, Nat.lt_succ_iff]
  rcases List.eq_nil_or_concat samples with rfl | ⟨before, last, rfl⟩
  · exact Nat.zero_le _
  · rw [List.concat_eq_append, Succession.breaks_concat]
    exact Nat.le_add_right _ _

theorem LastStamped.breaks_lt {samples : List (ImuSample B F)} {stamp : UInt64}
    (h : LastStamped samples stamp) : Succession.breaks Measured samples < unmeasured samples := by
  obtain ⟨last, hlast, -⟩ := h
  obtain ⟨before, rfl⟩ := List.getLast?_eq_some_iff.mp hlast
  rw [unmeasured_of_concat]
  exact Nat.lt_succ_self _

/-- Between two calls: a stamp that is held is the last sample's. -/
def Rested (s : ImuStream B F) : Prop :=
  if s.haveLastSample then
    unmeasured s.samples ≤ s.resets ∧ LastStamped s.samples s.lastSampleNs
  else unmeasured s.samples + 1 ≤ s.resets

variable {s t : ImuStream B F}

theorem restartStep_timing (s : ImuStream B F) (answer : StreamAnswer) (pc : RestartPc) :
    (restartStep s answer pc).1.wait = s.wait ∧ (restartStep s answer pc).1.samples = s.samples ∧
      ((restartStep s answer pc).1.haveLastSample = s.haveLastSample ∧
          (restartStep s answer pc).1.lastSampleNs = s.lastSampleNs ∧
          (restartStep s answer pc).1.resets = s.resets ∨
        pc = .reset ∧ (restartStep s answer pc).1.haveLastSample = false ∧
          (restartStep s answer pc).1.resets = s.resets + 1) := by
  cases pc with
  | cancel | start => exact ⟨rfl, rfl, Or.inl ⟨rfl, rfl, rfl⟩⟩
  | drain =>
      cases hcq : s.cq with
      | nil | cons cqe cq =>
          rw [restartStep, hcq]
          exact ⟨rfl, rfl, Or.inl ⟨rfl, rfl, rfl⟩⟩
  | reset => exact ⟨rfl, rfl, Or.inr ⟨rfl, rfl, rfl⟩⟩

variable [CFloat F]

/-- The `dt` of a sample is the time since the one before it, or one period. -/
def TimedAfter (before : List (ImuSample B F)) (sample : ImuSample B F) : Prop :=
  (sample.linked = false ∧ sample.dt = controlDtS F) ∨
    (sample.linked = true ∧ ∃ last, before.getLast? = some last ∧
      last.reading.sampleNs < sample.reading.sampleNs ∧
      sample.dt = imuDt F sample.reading.sampleNs last.reading.sampleNs)

/-- What the timing statics say of the samples, wherever the control thread is. -/
def TimingAt (s : ImuStream B F) : Prop :=
  match s.wait with
  | .readLast _ _ =>
      LastStamped s.samples s.lastSampleNs ∧ unmeasured s.samples ≤ s.resets
  | .storeLast sample =>
      TimedAfter s.samples sample ∧ unmeasured (s.samples ++ [sample]) ≤ s.resets
  | .storeHave sample =>
      TimedAfter s.samples sample ∧ unmeasured (s.samples ++ [sample]) ≤ s.resets ∧
        s.lastSampleNs = sample.reading.sampleNs
  | .count sample =>
      TimedAfter s.samples sample ∧
        if s.haveLastSample then
          unmeasured (s.samples ++ [sample]) ≤ s.resets ∧
            s.lastSampleNs = sample.reading.sampleNs
        else unmeasured (s.samples ++ [sample]) + 1 ≤ s.resets
  | _ => Rested s

structure TimeInv (s : ImuStream B F) : Prop where
  samples : ∀ before sample after, s.samples = before ++ sample :: after →
    TimedAfter before sample
  timing : TimingAt s

def WatchdogPc.resets : WatchdogPc → Bool
  | .restart .reset _ => true
  | _ => false

/-- Between the two looks at the timing, or between the two stores. -/
def ImuWaitPc.midTiming : ImuWaitPc B F → Bool
  | .readLast _ _ | .storeHave _ => true
  | _ => false

/-- The work item does not reset the timing while the control thread is between two
accesses that belong together. -/
def ImuStepOk (s : ImuStream B F) : ImuEvent B → Prop
  | .watchdog _ => s.watchdog.resets = true → s.wait.midTiming = false
  | _ => True

instance (s : ImuStream B F) : (e : ImuEvent B) → Decidable (ImuStepOk s e)
  | .watchdog _ => inferInstanceAs (Decidable (s.watchdog.resets = true → s.wait.midTiming = false))
  | .complete _ | .call | .consumeFails | .wait _ | .tick => isTrue trivial

theorem TimeInv.breaks_lt (h : TimeInv s) : Succession.breaks Measured s.samples < s.resets := by
  have htiming := h.timing
  have hrested (hs : Rested s) : Succession.breaks Measured s.samples < s.resets := by
    unfold Rested at hs
    split at hs
    · exact Nat.lt_of_lt_of_le hs.2.breaks_lt hs.1
    · unfold unmeasured at hs
      split at hs
      · rename_i hempty
        rw [List.isEmpty_iff.mp hempty]
        exact hs
      · omega
  unfold TimingAt at htiming
  cases hwait : s.wait with
  | readLast buf reading =>
      rw [hwait] at htiming
      exact Nat.lt_of_lt_of_le htiming.1.breaks_lt htiming.2
  | storeLast sample =>
      rw [hwait] at htiming
      exact Nat.lt_of_lt_of_le (breaks_lt_unmeasured _ sample) htiming.2
  | storeHave sample =>
      rw [hwait] at htiming
      exact Nat.lt_of_lt_of_le (breaks_lt_unmeasured _ sample) htiming.2.1
  | count sample =>
      rw [hwait] at htiming
      have hcount := htiming.2
      have hlt := breaks_lt_unmeasured s.samples sample
      split at hcount <;> omega
  | outside | consume | taken cqe | holding buf | decoded buf reading | readHave buf reading
    | restart pc =>
      rw [hwait] at htiming
      exact hrested htiming

theorem TimeInv.congr (h : TimeInv s) (hwait : t.wait = s.wait) (hsamples : t.samples = s.samples)
    (hhave : t.haveLastSample = s.haveLastSample) (hlast : t.lastSampleNs = s.lastSampleNs)
    (hresets : t.resets = s.resets) : TimeInv t where
  samples := by rw [hsamples]; exact h.samples
  timing := by
    have htiming := h.timing
    simp only [TimingAt, Rested] at htiming ⊢
    rw [hwait, hsamples, hhave, hlast, hresets]
    exact htiming

/-- A reset costs one measurement. -/
theorem TimeInv.reset (h : TimeInv s) (hread : ∀ buf reading, s.wait ≠ .readLast buf reading)
    (hstore : ∀ sample, s.wait ≠ .storeHave sample) (hwait : t.wait = s.wait)
    (hsamples : t.samples = s.samples) (hhave : t.haveLastSample = false)
    (hresets : t.resets = s.resets + 1) : TimeInv t where
  samples := by rw [hsamples]; exact h.samples
  timing := by
    have htiming := h.timing
    have hrested (hs : Rested s) : Rested t := by
      unfold Rested at hs ⊢
      rw [hhave, hsamples, hresets, if_neg Bool.false_ne_true]
      split at hs
      · exact Nat.succ_le_succ hs.1
      · exact Nat.le_succ_of_le hs
    unfold TimingAt at htiming ⊢
    rw [hwait]
    cases hpc : s.wait with
    | readLast buf reading => exact absurd hpc (hread buf reading)
    | storeHave sample => exact absurd hpc (hstore sample)
    | storeLast sample =>
        simp only [hpc] at htiming ⊢
        rw [hsamples, hresets]
        exact ⟨htiming.1, Nat.le_succ_of_le htiming.2⟩
    | count sample =>
        simp only [hpc] at htiming ⊢
        rw [hsamples, hresets, hhave, if_neg Bool.false_ne_true]
        refine ⟨htiming.1, ?_⟩
        have hcount := htiming.2
        split at hcount
        · exact Nat.succ_le_succ hcount.1
        · exact Nat.le_succ_of_le hcount
    | outside | consume | taken cqe | holding buf | decoded buf reading | readHave buf reading
      | restart pc =>
        simp only [hpc] at htiming ⊢
        exact hrested htiming

variable [CScale F] {decoder : Option (SensorDecoder B)}

theorem waitStep_time (h : TimeInv s) {answer : StreamAnswer}
    (hstep : waitStep decoder s answer = some t) : TimeInv t := by
  have htiming := h.timing
  -- a restart resets the timing, or leaves it
  have hrestart {pc : RestartPc} (hwait : s.wait = .restart pc) :
      TimeInv (restartStep s answer pc).1 ∧ Rested (restartStep s answer pc).1 := by
    have hnext : TimeInv (restartStep s answer pc).1 := by
      obtain ⟨hsame, hsamples, ⟨hhave, hlast, hresets⟩ | ⟨-, hhave, hresets⟩⟩ :=
        restartStep_timing s answer pc
      · exact h.congr hsame hsamples hhave hlast hresets
      · exact h.reset (fun _ _ hread => by rw [hwait] at hread; cases hread)
          (fun _ hstore => by rw [hwait] at hstore; cases hstore) hsame hsamples hhave hresets
    have htimingNext := hnext.timing
    rw [TimingAt, (restartStep_timing s answer pc).1] at htimingNext
    simp only [hwait] at htimingNext
    exact ⟨hnext, htimingNext⟩
  cases waitStep_cases hstep with
  | consumed hwait | held hwait | failed hwait | decoded hwait | undecoded hwait
  | released hwait =>
      simp only [TimingAt, hwait] at htiming
      exact ⟨h.samples, htiming⟩
  | linked hwait hhave =>
      simp only [TimingAt, Rested, hwait] at htiming
      rw [hhave, if_pos rfl] at htiming
      exact ⟨h.samples, htiming.2, htiming.1⟩
  | unlinked hwait hhave =>
      simp only [TimingAt, Rested, hwait] at htiming
      rw [hhave, if_neg Bool.false_ne_true] at htiming
      exact ⟨h.samples, Or.inl ⟨rfl, rfl⟩, (unmeasured_concat_le _ _).trans htiming⟩
  | measured hwait hlater =>
      simp only [TimingAt, hwait] at htiming
      obtain ⟨⟨last, hlast, hstamp⟩, hresets⟩ := htiming
      refine ⟨h.samples, Or.inr ⟨rfl, last, hlast, ?_, ?_⟩, ?_⟩
      · rw [hstamp]
        exact hlater
      · rw [hstamp]
      · rw [unmeasured_concat hlast (Or.inl rfl)]
        exact hresets
  | unmeasured hwait hlater =>
      simp only [TimingAt, hwait] at htiming
      obtain ⟨⟨last, hlast, hstamp⟩, hresets⟩ := htiming
      refine ⟨h.samples, Or.inl ⟨rfl, rfl⟩, ?_⟩
      rw [unmeasured_concat hlast (Or.inr (by rw [hstamp]; exact UInt64.not_lt.mp hlater))]
      exact hresets
  | storedLast hwait =>
      simp only [TimingAt, hwait] at htiming
      exact ⟨h.samples, htiming.1, htiming.2, rfl⟩
  | storedHave hwait =>
      simp only [TimingAt, hwait] at htiming
      exact ⟨h.samples, htiming.1, htiming.2⟩
  | @counted sample hwait =>
      simp only [TimingAt, hwait] at htiming
      refine ⟨fun before x after hsplit => ?_, ?_⟩
      · rcases List.eq_nil_or_concat after with rfl | ⟨init, last, rfl⟩
        · obtain ⟨rfl, rfl⟩ := List.append_inj' hsplit rfl |>.imp id List.singleton_inj.mp
          exact htiming.1
        · rw [List.concat_eq_append, ← List.cons_append, ← List.append_assoc] at hsplit
          exact h.samples before x init (List.append_inj' hsplit rfl).1
      · have hcount := htiming.2
        cases hhave : s.haveLastSample with
        | true =>
            rw [hhave, if_pos rfl] at hcount
            simp only [TimingAt, Rested, if_true]
            exact ⟨hcount.1, sample, List.getLast?_concat, hcount.2.symm⟩
        | false =>
            rw [hhave, if_neg Bool.false_ne_true] at hcount
            simp only [TimingAt, Rested, Bool.false_eq_true, if_false]
            exact hcount
  | restarting hwait | restarted hwait =>
      obtain ⟨hnext, hrested⟩ := hrestart hwait
      exact ⟨hnext.samples, hrested⟩

theorem imuStep_time (h : TimeInv s) {e : ImuEvent B} (hok : ImuStepOk s e)
    (hstep : imuStep decoder s e = some t) : TimeInv t := by
  have htiming := h.timing
  cases e with
  | complete cqe =>
      cases hstep
      exact h.congr rfl rfl rfl rfl rfl
  | call | consumeFails =>
      unfold imuStep at hstep
      cases hwait : s.wait <;> simp only [hwait] at hstep <;> cases hstep
      simp only [TimingAt, hwait] at htiming
      exact ⟨h.samples, htiming⟩
  | wait answer => exact waitStep_time h hstep
  | tick =>
      unfold imuStep at hstep
      cases hpc : s.watchdog <;> simp only [hpc] at hstep <;> cases hstep
      unfold tickStep
      split <;> exact h.congr rfl rfl rfl rfl rfl
  | watchdog answer =>
      rw [imuStep, watchdogStep] at hstep
      cases hpc : s.watchdog with
      | waiting =>
          rw [hpc] at hstep
          cases hstep
      | restart pc count =>
          simp only [hpc] at hstep
          have hnext : TimeInv (restartStep s answer pc).1 := by
            obtain ⟨hsame, hsamples, ⟨hhave, hlast, hresets⟩ | ⟨rfl, hhave, hresets⟩⟩ :=
              restartStep_timing s answer pc
            · exact h.congr hsame hsamples hhave hlast hresets
            · refine h.reset (fun buf reading hread => ?_) (fun sample hstore => ?_) hsame hsamples
                hhave hresets
              · have hmid := hok (by rw [hpc]; rfl)
                rw [hread] at hmid
                cases hmid
              · have hmid := hok (by rw [hpc]; rfl)
                rw [hstore] at hmid
                cases hmid
          cases hcall : restartStep s answer pc with
          | mk u next =>
              rw [hcall] at hstep hnext
              cases next with
              | some pc' | none =>
                  cases hstep
                  exact hnext.congr rfl rfl rfl rfl rfl
      | store count =>
          simp only [hpc, Option.some.injEq] at hstep
          subst hstep
          exact h.congr rfl rfl rfl rfl rfl

end Time

section Exact

variable {B : Type}

theorem imuDt_eq {sampleNs lastSampleNs : UInt64} (h : lastSampleNs < sampleNs) :
    imuDt Rat sampleNs lastSampleNs
      = ((sampleNs.toNat : Rat) - lastSampleNs.toNat) / 1000000000 := by
  have hle : lastSampleNs ≤ sampleNs := UInt64.le_of_lt h
  have hnat : (sampleNs - lastSampleNs).toNat = sampleNs.toNat - lastSampleNs.toNat :=
    UInt64.toNat_sub_of_le _ _ hle
  have hdt : imuDt Rat sampleNs lastSampleNs
      = ((sampleNs - lastSampleNs).toNat : Rat) * (1 / 1000000000) := rfl
  rw [hdt, hnat, Nat.cast_sub (UInt64.le_iff_toNat_le.mp hle)]
  ring

/-- The measured steps behind a sample add up to the time since then. -/
theorem linked_sum {samples before after : List (ImuSample B Rat)} {first : ImuSample B Rat}
    {rest : List (ImuSample B Rat)}
    (htimed : ∀ before sample after, samples = before ++ sample :: after →
      TimedAfter before sample)
    (hsplit : samples = before ++ first :: (rest ++ after))
    (hlinked : ∀ sample ∈ rest, sample.linked = true) :
    (rest.map ImuSample.dt).sum
      = ((((first :: rest).getLast (List.cons_ne_nil _ _)).reading.sampleNs.toNat : Rat)
          - first.reading.sampleNs.toNat) / 1000000000 := by
  induction rest using List.reverseRecOn generalizing after with
  | nil =>
      rw [List.map_nil, List.sum_nil, List.getLast_singleton, sub_self, zero_div]
  | append_singleton rest x ih =>
      have hrest := @ih (x :: after) (by rw [hsplit]; simp)
        fun sample hsample => hlinked sample (List.mem_append_left _ hsample)
      have hx : x.linked = true := hlinked x (List.mem_append_right _ (List.mem_singleton_self x))
      rcases htimed (before ++ first :: rest) x after (by rw [hsplit]; simp) with
        ⟨hnot, -⟩ | ⟨-, last, hlast, hlt, hdt⟩
      · rw [hx] at hnot
        cases hnot
      · rw [List.getLast?_append_of_ne_nil _ (List.cons_ne_nil _ _),
          List.getLast?_eq_getLast_of_ne_nil (List.cons_ne_nil _ _), Option.some.injEq] at hlast
        have hend : (first :: (rest ++ [x])).getLast (List.cons_ne_nil _ _) = x := by
          rw [List.getLast_cons (by simp), List.getLast_concat]
        rw [List.map_append, List.sum_append, hrest, List.map_singleton, List.sum_singleton, hdt,
          imuDt_eq hlt, hend, hlast]
        ring

/-- In exact arithmetic, however completions, control thread and watchdog interleave, as
long as the watchdog does not reset the timing between two accesses of the control thread
that belong together: every step handed out is positive; steps that were measured add up to
the time between the first and the last stamp; and a sample with a later stamp than the
one before it goes unmeasured only after a reset of its own. -/
theorem imu_time_measured {decoder : Option (SensorDecoder B)} {ready : Bool} {decoderRc : Int}
    {answer : StreamAnswer} {boot s : ImuStream B Rat}
    (hinit : imuStreamInit B Rat ready decoderRc answer = .ok boot) (events : List (ImuEvent B))
    (hok : Guarded.Ok (imuStep decoder) ImuStepOk boot events)
    (hrun : Guarded.run (imuStep decoder) boot events = some s) :
    (∀ sample ∈ s.samples, 0 < sample.dt) ∧
      (∀ before first rest after, s.samples = before ++ first :: (rest ++ after) →
        (∀ sample ∈ rest, sample.linked = true) →
        (rest.map ImuSample.dt).sum
          = ((((first :: rest).getLast (List.cons_ne_nil _ _)).reading.sampleNs.toNat : Rat)
              - first.reading.sampleNs.toNat) / 1000000000) ∧
      Succession.breaks Measured s.samples < s.resets := by
  obtain ⟨-, hwait, -, hsamples, hresets, hhave, -⟩ := imuStreamInit_cases hinit
  have hboot : TimeInv boot := by
    refine ⟨fun before sample after hsplit => ?_, ?_⟩
    · rw [hsamples] at hsplit
      exact absurd hsplit.symm (by simp)
    · simp only [TimingAt, hwait, Rested, hhave, hsamples, hresets]
      exact Nat.le_refl 1
  have h : TimeInv s := Guarded.ok_keeps (imuStep decoder)
    (fun _ _ _ hallowed hs hstep => imuStep_time hs hallowed hstep) hboot hok hrun
  refine ⟨fun sample hsample => ?_, fun before first rest after => linked_sum h.samples,
    h.breaks_lt⟩
  obtain ⟨before, after, hsplit⟩ := List.append_of_mem hsample
  rcases h.samples before sample after hsplit with ⟨-, hdt⟩ | ⟨-, last, -, hlt, hdt⟩
  · rw [hdt]
    have hperiod : (0 : Rat) < 1 / 1600 := by norm_num
    exact hperiod
  · rw [hdt, imuDt_eq hlt]
    have hpos : (last.reading.sampleNs.toNat : Rat) < sample.reading.sampleNs.toNat :=
      Nat.cast_lt.mpr (UInt64.lt_iff_toNat_lt.mp hlt)
    exact div_pos (sub_pos.mpr hpos) (by norm_num)

/-- Two samples two periods apart. -/
theorem imu_time_measured_period :
    ∃ boot s first second, imuStreamInit UInt64 Rat true 0 ⟨0, true⟩ = .ok boot ∧
      Guarded.run (imuStep benchDecoder) boot
        (benchSample 1000000 8 ++ benchSample 2250000 9) = some s ∧
      s.samples = [first, second] ∧ 0 < first.dt ∧ second.dt = 1 / 800 ∧
      Succession.breaks Measured s.samples < s.resets := by
  obtain ⟨s, hs, hseen⟩ : ∃ s, Guarded.run (imuStep benchDecoder) benchStream
      (benchSample 1000000 8 ++ benchSample 2250000 9) = some s ∧
        s.samples.map (fun sample => (sample.reading.sampleNs, sample.linked))
          = [(1000000, false), (2250000, true)] :=
    Guarded.run_any _ (by decide +kernel)
  obtain ⟨first, rest, hsamples, hfirst, hrest⟩ := List.map_eq_cons_iff.mp hseen
  obtain ⟨second, none, rfl, hsecond, hnone⟩ := List.map_eq_cons_iff.mp hrest
  rw [List.map_eq_nil_iff.mp hnone] at hsamples
  obtain ⟨hpositive, hsum, hbreaks⟩ := imu_time_measured benchStream_init
    (benchSample 1000000 8 ++ benchSample 2250000 9) (by decide +kernel) hs
  have hmeasured := hsum [] first [second] [] hsamples (by
    intro sample hsample
    rw [List.mem_singleton.mp hsample]
    exact congrArg Prod.snd hsecond)
  refine ⟨benchStream, s, first, second, rfl, hs, hsamples, ?_, ?_, hbreaks⟩
  · exact hpositive first (by rw [hsamples]; exact List.mem_cons_self)
  · have hstart : first.reading.sampleNs = 1000000 := congrArg Prod.fst hfirst
    have hend : second.reading.sampleNs = 2250000 := congrArg Prod.fst hsecond
    rw [List.map_singleton, List.sum_singleton, List.getLast_cons_cons, List.getLast_singleton,
      hstart, hend] at hmeasured
    rw [hmeasured]
    norm_num [show UInt64.toNat 2250000 = 2250000 from rfl, show UInt64.toNat 1000000 = 1000000 from rfl]

/-- The stamp is reset after the control thread has seen that there is one: the step is the
whole uptime. -/
example : ∃ s, Guarded.run (imuStep benchDecoder) benchStream
    (benchSample 3599000000000 8 ++ [.tick, .watchdog ⟨0, true⟩] ++
      benchSample 3600000000000 5 ++ [.tick] ++
      List.replicate 5 (.watchdog ⟨0, true⟩) ++ List.replicate 4 (.wait ⟨0, true⟩)) = some s ∧
    s.samples.map ImuSample.dt = [1 / 1600, 3600] :=
  Guarded.run_any _ (by decide +kernel)

end Exact

/-! ## The watchdog -/

/-- What a run of the work item does by the one before it. -/
def NextTick (a b : WatchdogTick) : Prop :=
  a.counted ≤ b.counted ∧
    (b.restarts = true ↔ a.counted % 2 ^ 32 ≠ 0 ∧ b.counted % 2 ^ 32 = a.counted % 2 ^ 32)

section Watchdog

variable {B F : Type} {s t : ImuStream B F}

def LastCounted (ticks : List WatchdogTick) (count : UInt32) : Prop :=
  ∃ last, ticks.getLast? = some last ∧ count = UInt32.ofNat last.counted

/-- What the statics of the watchdog say of its runs, wherever it is. -/
def WatchdogAt (s : ImuStream B F) : Prop :=
  match s.watchdog with
  | .waiting =>
      s.ticks = [] ∧ s.watchdogPrimed = false ∨
        LastCounted s.ticks s.watchdogLastCount ∧
          s.watchdogPrimed = (s.watchdogLastCount != 0)
  | .restart _ count | .store count => LastCounted s.ticks count

structure WatchdogInv (s : ImuStream B F) : Prop where
  counted : s.sampleCount = UInt32.ofNat s.samples.length
  first : ∀ tick, s.ticks.head? = some tick → tick.restarts = false
  chain : s.ticks.IsChain NextTick
  latest : ∀ tick ∈ s.ticks, tick.counted ≤ s.samples.length
  watchdog : WatchdogAt s
  restarts : s.restarts.count .watchdog = s.ticks.countP WatchdogTick.restarts

theorem WatchdogInv.enterRestart (h : WatchdogInv s) {reason : RestartReason}
    (hreason : reason ≠ .watchdog) : WatchdogInv (s.enterRestart reason) where
  counted := h.counted
  first := h.first
  chain := h.chain
  latest := h.latest
  watchdog := h.watchdog
  restarts := by
    rw [ImuStream.enterRestart, List.count_append, List.count_singleton,
      beq_eq_false_iff_ne.mpr hreason]
    exact h.restarts

theorem restartStep_watchdog (h : WatchdogInv s) (answer : StreamAnswer) (pc : RestartPc) :
    WatchdogInv (restartStep s answer pc).1 ∧
      (restartStep s answer pc).1.watchdog = s.watchdog := by
  cases pc with
  | cancel | reset | start =>
      exact ⟨⟨h.counted, h.first, h.chain, h.latest, h.watchdog, h.restarts⟩, rfl⟩
  | drain =>
      cases hcq : s.cq with
      | nil | cons cqe cq =>
          rw [restartStep, hcq]
          exact ⟨⟨h.counted, h.first, h.chain, h.latest, h.watchdog, h.restarts⟩, rfl⟩

theorem ofNat_eq_ofNat {m n : Nat} :
    UInt32.ofNat m = UInt32.ofNat n ↔ m % 2 ^ 32 = n % 2 ^ 32 := by
  rw [UInt32.ofNat_eq_iff_mod_eq_toNat, UInt32.toNat_ofNat']

/-- A run of the work item that read the count and restarts the stream as it should. -/
theorem WatchdogInv.concat (h : WatchdogInv s) {tick : WatchdogTick}
    (hcounted : tick.counted = s.samples.length)
    (hfirst : s.ticks = [] → tick.restarts = false)
    (hnext : ∀ last, s.ticks.getLast? = some last → NextTick last tick)
    (hsame : t.samples = s.samples ∧ t.sampleCount = s.sampleCount)
    (hticks : t.ticks = s.ticks ++ [tick])
    (hwatchdog : t.watchdog = .store s.sampleCount ∨ t.watchdog = .restart .cancel s.sampleCount)
    (hrestarts : t.restarts.count .watchdog
      = s.restarts.count .watchdog + if tick.restarts then 1 else 0) : WatchdogInv t where
  counted := by rw [hsame.1, hsame.2, h.counted]
  first := by
    intro x hx
    rw [hticks] at hx
    cases hs : s.ticks with
    | nil =>
        rw [hs, List.nil_append, List.head?_cons, Option.some.injEq] at hx
        rw [← hx]
        exact hfirst hs
    | cons y ys =>
        rw [hs, List.cons_append, List.head?_cons] at hx
        exact h.first x (by rw [hs]; exact hx)
  chain := by
    rw [hticks, List.isChain_append]
    refine ⟨h.chain, List.isChain_singleton tick, fun last hlast y hy => ?_⟩
    rw [List.head?_cons, Option.mem_some_iff] at hy
    rw [← hy]
    exact hnext last hlast
  latest := by
    intro x hx
    rw [hticks] at hx
    rw [hsame.1]
    rcases List.mem_append.mp hx with hx | hx
    · exact h.latest x hx
    · rw [List.mem_singleton.mp hx, hcounted]
  watchdog := by
    have hlast : LastCounted t.ticks s.sampleCount :=
      ⟨tick, by rw [hticks, List.getLast?_concat], by rw [hcounted, h.counted]⟩
    unfold WatchdogAt
    rcases hwatchdog with hpc | hpc
    · rw [hpc]
      exact hlast
    · rw [hpc]
      exact hlast
  restarts := by
    rw [hrestarts, hticks, List.countP_append, List.countP_singleton, h.restarts]

theorem WatchdogInv.tick (h : WatchdogInv s) (hwaiting : s.watchdog = .waiting) :
    WatchdogInv (tickStep s) := by
  have hwatchdog := h.watchdog
  simp only [WatchdogAt, hwaiting] at hwatchdog
  have hnext (b : Bool)
      (hb : b = true ↔ (s.watchdogPrimed && s.sampleCount == s.watchdogLastCount) = true)
      (last : WatchdogTick) (hlast : s.ticks.getLast? = some last) :
      NextTick last ⟨s.samples.length, b⟩ := by
    refine ⟨h.latest last (List.mem_of_getLast? hlast), ?_⟩
    rcases hwatchdog with ⟨hnil, -⟩ | ⟨⟨last', hlast', hcount⟩, hprimed⟩
    · rw [hnil] at hlast
      cases hlast
    · rw [hlast, Option.some.injEq] at hlast'
      subst hlast'
      rw [hb, hprimed, h.counted, hcount, Bool.and_eq_true, bne_iff_ne, beq_iff_eq, ofNat_eq_ofNat,
        show (0 : UInt32) = UInt32.ofNat 0 from rfl, ne_eq, ofNat_eq_ofNat]
      rfl
  unfold tickStep
  split
  · rename_i hcond
    refine h.concat rfl (fun hnil => ?_) (hnext true (by simp [hcond])) ⟨rfl, rfl⟩ rfl
      (Or.inr rfl) ?_
    · rcases hwatchdog with ⟨-, hprimed⟩ | ⟨⟨last, hlast, -⟩, -⟩
      · rw [hprimed] at hcond
        cases hcond
      · rw [hnil] at hlast
        cases hlast
    · rw [List.count_append, List.count_singleton_self, if_pos rfl]
  · rename_i hcond
    exact h.concat rfl (fun _ => rfl) (hnext false (by simp [hcond])) ⟨rfl, rfl⟩ rfl
      (Or.inl rfl) rfl

theorem watchdogStep_watchdog (h : WatchdogInv s) {answer : StreamAnswer}
    (hstep : watchdogStep s answer = some t) : WatchdogInv t := by
  have hwatchdog := h.watchdog
  unfold watchdogStep at hstep
  cases hpc : s.watchdog with
  | waiting =>
      rw [hpc] at hstep
      cases hstep
  | restart pc count =>
      simp only [WatchdogAt, hpc] at hwatchdog
      simp only [hpc] at hstep
      obtain ⟨hnext, hsame⟩ := restartStep_watchdog h answer pc
      have hlast := hnext.watchdog
      simp only [WatchdogAt, hsame, hpc] at hlast
      cases hcall : restartStep s answer pc with
      | mk u next =>
          rw [hcall] at hstep hnext hlast
          cases next with
          | some pc' | none =>
              cases hstep
              exact ⟨hnext.counted, hnext.first, hnext.chain, hnext.latest, hlast, hnext.restarts⟩
  | store count =>
      simp only [WatchdogAt, hpc] at hwatchdog
      simp only [hpc, Option.some.injEq] at hstep
      subst hstep
      exact ⟨h.counted, h.first, h.chain, h.latest, Or.inr ⟨hwatchdog, rfl⟩, h.restarts⟩

variable [CFloat F] [CScale F] {decoder : Option (SensorDecoder B)}

theorem waitStep_watchdog (h : WatchdogInv s) {answer : StreamAnswer}
    (hstep : waitStep decoder s answer = some t) : WatchdogInv t := by
  cases waitStep_cases hstep with
  | failed => exact h.enterRestart (by simp)
  | undecoded =>
      have hrestart : WatchdogInv (s.enterRestart .decode) := h.enterRestart (by simp)
      exact ⟨hrestart.counted, hrestart.first, hrestart.chain, hrestart.latest,
        hrestart.watchdog, hrestart.restarts⟩
  | counted =>
      refine ⟨?_, h.first, h.chain, fun tick htick => ?_, h.watchdog, h.restarts⟩
      · rw [List.length_append, List.length_singleton, UInt32.ofNat_add, ← h.counted]
        rfl
      · rw [List.length_append]
        exact Nat.le_add_right_of_le (h.latest tick htick)
  | @restarting pc pc' | @restarted pc =>
      obtain ⟨hnext, -⟩ := restartStep_watchdog h answer pc
      exact ⟨hnext.counted, hnext.first, hnext.chain, hnext.latest, hnext.watchdog,
        hnext.restarts⟩
  | consumed | held | decoded | released | linked | unlinked | measured | unmeasured | storedLast
  | storedHave =>
      exact ⟨h.counted, h.first, h.chain, h.latest, h.watchdog, h.restarts⟩

theorem imuStep_watchdog (h : WatchdogInv s) {e : ImuEvent B}
    (hstep : imuStep decoder s e = some t) : WatchdogInv t := by
  cases e with
  | complete cqe =>
      cases hstep
      exact ⟨h.counted, h.first, h.chain, h.latest, h.watchdog, h.restarts⟩
  | call =>
      unfold imuStep at hstep
      cases hwait : s.wait <;> simp only [hwait] at hstep <;> cases hstep
      exact ⟨h.counted, h.first, h.chain, h.latest, h.watchdog, h.restarts⟩
  | consumeFails =>
      unfold imuStep at hstep
      cases hwait : s.wait <;> simp only [hwait] at hstep <;> cases hstep
      exact h.enterRestart (by simp)
  | wait answer => exact waitStep_watchdog h hstep
  | tick =>
      unfold imuStep at hstep
      cases hpc : s.watchdog <;> simp only [hpc] at hstep <;> cases hstep
      exact h.tick hpc
  | watchdog answer => exact watchdogStep_watchdog h hstep

/-- However completions, control thread and watchdog interleave: the first run of the work
item restarts nothing, and a later one restarts the stream exactly when the samples
counted at the run before it were not 0 and are the same now, both modulo `2^32`. Until
`2^32` samples that is: when there have been samples, and none since. -/
theorem imu_watchdog_restarts {ready : Bool} {decoderRc : Int} {answer : StreamAnswer}
    {boot : ImuStream B F} (hinit : imuStreamInit B F ready decoderRc answer = .ok boot)
    (events : List (ImuEvent B)) (hrun : Guarded.run (imuStep decoder) boot events = some s) :
    (∀ tick, s.ticks.head? = some tick → tick.restarts = false) ∧
      s.ticks.IsChain NextTick ∧
      s.restarts.count .watchdog = s.ticks.countP WatchdogTick.restarts ∧
      (s.samples.length < 2 ^ 32 → s.ticks.IsChain fun a b =>
        b.restarts = true ↔ a.counted ≠ 0 ∧ b.counted = a.counted) := by
  obtain ⟨-, hwait, hwatchdog, hsamples, -, -, hcount, hprimed, hticks, hrestarts⟩ :=
    imuStreamInit_cases hinit
  have hboot : WatchdogInv boot := by
    refine ⟨by rw [hcount, hsamples]; rfl, ?_, ?_, ?_, ?_, by rw [hrestarts, hticks]; rfl⟩
    · rw [hticks]
      exact fun _ h => by cases h
    · rw [hticks]
      exact List.isChain_nil
    · rw [hticks]
      exact fun _ h => by cases h
    · simp only [WatchdogAt, hwatchdog]
      exact Or.inl ⟨hticks, hprimed⟩
  have h := Guarded.run_inv (imuStep decoder) (fun _ _ _ hs hstep => imuStep_watchdog hs hstep)
    hboot hrun
  refine ⟨h.first, h.chain, h.restarts, fun hfew => ?_⟩
  refine List.IsChain.imp_of_mem_imp (fun a b ha hb hab => ?_) h.chain
  rw [hab.2, Nat.mod_eq_of_lt (Nat.lt_of_le_of_lt (h.latest a ha) hfew),
    Nat.mod_eq_of_lt (Nat.lt_of_le_of_lt (h.latest b hb) hfew)]

/-- A sample, and then silence: the third run of the work item restarts the stream. -/
theorem imu_watchdog_restarts_silence :
    ∃ boot s, imuStreamInit UInt64 Rat true 0 ⟨0, true⟩ = .ok boot ∧
      Guarded.run (imuStep benchDecoder) boot (.tick :: .watchdog ⟨0, true⟩ ::
        benchSample 1000000 8 ++ [.tick, .watchdog ⟨0, true⟩, .tick]) = some s ∧
      s.ticks.length = 3 ∧ s.restarts.count .watchdog = s.ticks.countP WatchdogTick.restarts := by
  obtain ⟨s, hs, hticks⟩ : ∃ s, Guarded.run (imuStep benchDecoder) benchStream (.tick ::
      .watchdog ⟨0, true⟩ :: benchSample 1000000 8 ++ [.tick, .watchdog ⟨0, true⟩, .tick])
        = some s ∧ s.ticks.length = 3 :=
    Guarded.run_any _ (by decide +kernel)
  exact ⟨benchStream, s, rfl, hs, hticks, (imu_watchdog_restarts benchStream_init _ hs).2.2.1⟩

end Watchdog

end Rdd2
