import Mathlib.Data.List.Perm.Basic
import Rdd2.ControlTypes
import Rdd2.Guarded

/-!
# The IMU stream

`imu_stream.c` of the flight build: the sensor completes reads into buffers of a
memory pool, the control thread takes one completion for each
`rdd2_imu_stream_wait_next`, and a work item on the system work queue restarts the
stream when the sample count stands still. Both sides may empty the completion queue
and both reset the timing, so their steps are interleaved here; the reset is one step,
since the control thread does not preempt the work queue.

What a buffer holds the decoder says, which is not this repository's; `rtio_cqe_copy_out`
and `sensor_stream` answer as they like.
-/

namespace Rdd2

/-- `ldexpf` and the change of sign. -/
class CScale (F : Type) where
  ldexp : F → Int → F
  neg : F → F

instance : CScale Rat where
  ldexp a e := if 0 ≤ e then a * (2 ^ e.toNat : Nat) else a / (2 ^ (-e).toNat : Nat)
  neg a := -a

/-! ## Decoding -/

/-- `SENSOR_CHAN_ACCEL_XYZ` and `SENSOR_CHAN_GYRO_XYZ` -/
inductive ImuChan where
  | accel
  | gyro
  deriving DecidableEq, Repr

/-- `struct sensor_three_axis_data` with its one reading. -/
structure ThreeAxisData where
  baseTimestampNs : UInt64
  timestampDelta : UInt32
  shift : Int
  x : Int
  y : Int
  z : Int
  deriving DecidableEq, Repr

/-- `struct sensor_decoder_api`, over the contents of a buffer. -/
structure SensorDecoder (B : Type) where
  getFrameCount : B → ImuChan → Int × UInt16
  decode : B → ImuChan → UInt32 → Int × ThreeAxisData

/-- What `imu_stream_decode_latest` finds. -/
structure ImuReading (F : Type) where
  gyro : Vec3f F
  accel : Vec3f F
  sampleNs : UInt64
  deriving DecidableEq, Repr

section Decode

variable {B F : Type} [CFloat F] [CScale F]

def imuQ31ToFloat (value shift : Int) : F := CScale.ldexp (CFloat.lit value) (shift - 31)

/-- One of the two vectors of `imu_sensor_axes_to_body`. -/
def imuSensorAxesToBody (x y z : F) : Vec3f F := ⟨y, CScale.neg x, z⟩

def ThreeAxisData.toBody (data : ThreeAxisData) : Vec3f F :=
  imuSensorAxesToBody (imuQ31ToFloat data.x data.shift) (imuQ31ToFloat data.y data.shift)
    (imuQ31ToFloat data.z data.shift)

def imuStreamDecodeLatest (decoder : Option (SensorDecoder B)) (buf : B) :
    Option (ImuReading F) :=
  match decoder with
  | none => none
  | some api =>
      let (accelRc, accelFrameCount) := api.getFrameCount buf .accel
      let (gyroRc, gyroFrameCount) := api.getFrameCount buf .gyro
      if accelRc ≠ 0 ∨ gyroRc ≠ 0 ∨ accelFrameCount = 0 ∨ gyroFrameCount = 0 then none
      else
        let (accelDecoded, accelData) := api.decode buf .accel (accelFrameCount.toUInt32 - 1)
        let (gyroDecoded, gyroData) := api.decode buf .gyro (gyroFrameCount.toUInt32 - 1)
        if accelDecoded ≤ 0 ∨ gyroDecoded ≤ 0 then none
        else
          some
            { gyro := gyroData.toBody
              accel := accelData.toBody
              sampleNs := gyroData.baseTimestampNs + gyroData.timestampDelta.toUInt64 }

end Decode

/-! ## The stream -/

/-- `struct rtio_cqe`; `buf` is what `rtio_cqe_get_mempool_buffer` makes of it. -/
structure RtioCqe (B : Type) where
  result : Int
  buf : Except Int B

/-- The buffer of a completion that went well. -/
def RtioCqe.buf? {B : Type} (cqe : RtioCqe B) : Option B :=
  if cqe.result = 0 then cqe.buf.toOption else none

/-- The callers of `imu_stream_restart`. -/
inductive RestartReason where
  | watchdog
  | consume
  | cqe (rc : Int)
  | decode
  deriving DecidableEq, Repr

/-- What `sensor_stream` answers, and whether it leaves a handle. -/
structure StreamAnswer where
  rc : Int
  handle : Bool
  deriving DecidableEq, Repr

inductive StreamCall where
  | cancel
  | start (rc : Int)
  deriving DecidableEq, Repr

inductive RestartPc where
  | cancel
  | drain
  | reset
  | start
  deriving DecidableEq, Repr

/-- A sample that `rdd2_imu_stream_wait_next` hands out; `linked` says whether its `dt`
was measured. -/
structure ImuSample (B F : Type) where
  buf : B
  reading : ImuReading F
  dt : F
  linked : Bool

/-- Where the control thread is in `rdd2_imu_stream_wait_next`. -/
inductive ImuWaitPc (B F : Type) where
  | outside
  | consume
  | taken (cqe : RtioCqe B)
  | holding (buf : B)
  | decoded (buf : B) (reading : Option (ImuReading F))
  | readHave (buf : B) (reading : ImuReading F)
  | readLast (buf : B) (reading : ImuReading F)
  | storeLast (sample : ImuSample B F)
  | storeHave (sample : ImuSample B F)
  | count (sample : ImuSample B F)
  | restart (pc : RestartPc)

/-- Where the work item is in `imu_watchdog_work`; `count` is its local. -/
inductive WatchdogPc where
  | waiting
  | restart (pc : RestartPc) (count : UInt32)
  | store (count : UInt32)
  deriving DecidableEq, Repr

/-- A run of the work item: the samples counted when it read the count, and whether it
restarts the stream. -/
structure WatchdogTick where
  counted : Nat
  restarts : Bool
  deriving DecidableEq, Repr

/-- The statics of `imu_stream.c`, the completion queue and both threads; behind these
the history, which no step reads: completions, what became of their buffers, calls of
the sensor API, restarts, resets of the timing, returns and runs of the watchdog. -/
structure ImuStream (B F : Type) where
  cq : List (RtioCqe B)
  handle : Bool
  lastSampleNs : UInt64
  haveLastSample : Bool
  sampleCount : UInt32
  watchdogLastCount : UInt32
  watchdogPrimed : Bool
  wait : ImuWaitPc B F
  watchdog : WatchdogPc
  completed : List (RtioCqe B)
  consumed : List (RtioCqe B)
  released : List B
  calls : List StreamCall
  restarts : List RestartReason
  resets : Nat
  samples : List (ImuSample B F)
  failures : Nat
  ticks : List WatchdogTick

inductive ImuEvent (B : Type) where
  /-- The sensor completes a read. -/
  | complete (cqe : RtioCqe B)
  /-- The control thread calls `rdd2_imu_stream_wait_next`. -/
  | call
  /-- `rtio_cqe_copy_out` returns something else than 1. -/
  | consumeFails
  /-- The next step of the control thread. -/
  | wait (answer : StreamAnswer)
  /-- The work item runs. -/
  | tick
  /-- The next step of the work item. -/
  | watchdog (answer : StreamAnswer)

section Steps

variable {B F : Type}

/-- The next step of `imu_stream_restart`; `none` is its return. -/
def restartStep (s : ImuStream B F) (answer : StreamAnswer) :
    RestartPc → ImuStream B F × Option RestartPc
  | .cancel =>
      ({ s with calls := if s.handle then s.calls ++ [.cancel] else s.calls }, some .drain)
  | .drain =>
      match s.cq with
      | [] => (s, some .reset)
      | cqe :: cq =>
          ({ s with
              cq := cq
              consumed := s.consumed ++ [cqe]
              released := s.released ++ cqe.buf?.toList }, some .drain)
  | .reset =>
      ({ s with lastSampleNs := 0, haveLastSample := false, resets := s.resets + 1 }, some .start)
  | .start =>
      ({ s with handle := answer.handle, calls := s.calls ++ [.start answer.rc] }, none)

def ImuStream.enterRestart (s : ImuStream B F) (reason : RestartReason) : ImuStream B F :=
  { s with wait := .restart .cancel, restarts := s.restarts ++ [reason] }

variable [CFloat F]

def takenStep (s : ImuStream B F) (cqe : RtioCqe B) : ImuStream B F :=
  if cqe.result = 0 then
    match cqe.buf with
    | .ok buf => { s with wait := .holding buf }
    | .error rc => s.enterRestart (.cqe rc)
  else s.enterRestart (.cqe cqe.result)

/-- `(float)(sample_ns - g_last_sample_ns) * 1.0e-9f` -/
def imuDt (F : Type) [CFloat F] (sampleNs lastSampleNs : UInt64) : F :=
  CFloat.mul (CFloat.lit (sampleNs - lastSampleNs).toNat) (CFloat.lit (1 / 1000000000))

/-- What a step of the control thread inside `rdd2_imu_stream_wait_next` can do. -/
inductive WaitMove (s : ImuStream B F) (answer : StreamAnswer) : ImuStream B F → Prop
  | consumed {cqe : RtioCqe B} {cq : List (RtioCqe B)} (hwait : s.wait = .consume)
      (hcq : s.cq = cqe :: cq) :
      WaitMove s answer { s with cq := cq, consumed := s.consumed ++ [cqe], wait := .taken cqe }
  | held {cqe : RtioCqe B} {buf : B} (hwait : s.wait = .taken cqe) (hbuf : cqe.buf? = some buf) :
      WaitMove s answer { s with wait := .holding buf }
  | failed {cqe : RtioCqe B} {rc : Int} (hwait : s.wait = .taken cqe) (hbuf : cqe.buf? = none) :
      WaitMove s answer (s.enterRestart (.cqe rc))
  | decoded {buf : B} {reading : Option (ImuReading F)} (hwait : s.wait = .holding buf) :
      WaitMove s answer { s with wait := .decoded buf reading }
  | undecoded {buf : B} (hwait : s.wait = .decoded buf none) :
      WaitMove s answer ({ s with released := s.released ++ [buf] }.enterRestart .decode)
  | released {buf : B} {reading : ImuReading F} (hwait : s.wait = .decoded buf (some reading)) :
      WaitMove s answer { s with released := s.released ++ [buf], wait := .readHave buf reading }
  | linked {buf : B} {reading : ImuReading F} (hwait : s.wait = .readHave buf reading)
      (hhave : s.haveLastSample = true) :
      WaitMove s answer { s with wait := .readLast buf reading }
  | unlinked {buf : B} {reading : ImuReading F} (hwait : s.wait = .readHave buf reading)
      (hhave : s.haveLastSample = false) :
      WaitMove s answer { s with wait := .storeLast ⟨buf, reading, controlDtS F, false⟩ }
  | measured {buf : B} {reading : ImuReading F} (hwait : s.wait = .readLast buf reading)
      (hlater : s.lastSampleNs < reading.sampleNs) :
      WaitMove s answer { s with
        wait := .storeLast ⟨buf, reading, imuDt F reading.sampleNs s.lastSampleNs, true⟩ }
  | unmeasured {buf : B} {reading : ImuReading F} (hwait : s.wait = .readLast buf reading)
      (hlater : ¬ s.lastSampleNs < reading.sampleNs) :
      WaitMove s answer { s with wait := .storeLast ⟨buf, reading, controlDtS F, false⟩ }
  | storedLast {sample : ImuSample B F} (hwait : s.wait = .storeLast sample) :
      WaitMove s answer
        { s with lastSampleNs := sample.reading.sampleNs, wait := .storeHave sample }
  | storedHave {sample : ImuSample B F} (hwait : s.wait = .storeHave sample) :
      WaitMove s answer { s with haveLastSample := true, wait := .count sample }
  | counted {sample : ImuSample B F} (hwait : s.wait = .count sample) :
      WaitMove s answer { s with
        sampleCount := s.sampleCount + 1
        samples := s.samples ++ [sample]
        wait := .outside }
  | restarting {pc pc' : RestartPc} (hwait : s.wait = .restart pc) :
      WaitMove s answer { (restartStep s answer pc).1 with wait := .restart pc' }
  | restarted {pc : RestartPc} (hwait : s.wait = .restart pc) :
      WaitMove s answer { (restartStep s answer pc).1 with
        wait := .outside
        failures := (restartStep s answer pc).1.failures + 1 }

/-- A completion with an error has no buffer that is given back. -/
theorem buf?_eq_none {cqe : RtioCqe B} (h : cqe.result ≠ 0 ∨ ∃ rc, cqe.buf = .error rc) :
    cqe.buf? = none := by
  rcases h with hresult | ⟨rc, hrc⟩
  · exact if_neg hresult
  · unfold RtioCqe.buf?
    rw [hrc]
    split <;> rfl

theorem takenStep_cases (s : ImuStream B F) (answer : StreamAnswer) {cqe : RtioCqe B}
    (hwait : s.wait = .taken cqe) : WaitMove s answer (takenStep s cqe) := by
  unfold takenStep
  split
  · rename_i hresult
    cases hbuf : cqe.buf with
    | ok buf =>
        refine .held hwait ?_
        rw [RtioCqe.buf?, if_pos hresult, hbuf]
        rfl
    | error rc => exact .failed hwait (buf?_eq_none (Or.inr ⟨rc, hbuf⟩))
  · rename_i hresult
    exact .failed hwait (buf?_eq_none (Or.inl hresult))

variable [CScale F]

/-- The next step of the control thread inside `rdd2_imu_stream_wait_next`. -/
def waitStep (decoder : Option (SensorDecoder B)) (s : ImuStream B F) (answer : StreamAnswer) :
    Option (ImuStream B F) :=
  match s.wait with
  | .outside => none
  | .consume =>
      match s.cq with
      | [] => none
      | cqe :: cq =>
          some { s with cq := cq, consumed := s.consumed ++ [cqe], wait := .taken cqe }
  | .taken cqe => some (takenStep s cqe)
  | .holding buf => some { s with wait := .decoded buf (imuStreamDecodeLatest decoder buf) }
  | .decoded buf none => some ({ s with released := s.released ++ [buf] }.enterRestart .decode)
  | .decoded buf (some reading) =>
      some { s with released := s.released ++ [buf], wait := .readHave buf reading }
  | .readHave buf reading =>
      some
        { s with
          wait := if s.haveLastSample then .readLast buf reading
            else .storeLast ⟨buf, reading, controlDtS F, false⟩ }
  | .readLast buf reading =>
      some
        { s with
          wait := .storeLast
            (if s.lastSampleNs < reading.sampleNs then
              ⟨buf, reading, imuDt F reading.sampleNs s.lastSampleNs, true⟩
            else ⟨buf, reading, controlDtS F, false⟩) }
  | .storeLast sample =>
      some { s with lastSampleNs := sample.reading.sampleNs, wait := .storeHave sample }
  | .storeHave sample => some { s with haveLastSample := true, wait := .count sample }
  | .count sample =>
      some
        { s with
          sampleCount := s.sampleCount + 1
          samples := s.samples ++ [sample]
          wait := .outside }
  | .restart pc =>
      match restartStep s answer pc with
      | (t, some pc) => some { t with wait := .restart pc }
      | (t, none) => some { t with wait := .outside, failures := t.failures + 1 }

theorem waitStep_cases {decoder : Option (SensorDecoder B)} {s t : ImuStream B F}
    {answer : StreamAnswer} (hstep : waitStep decoder s answer = some t) : WaitMove s answer t := by
  unfold waitStep at hstep
  cases hwait : s.wait with
  | outside =>
      rw [hwait] at hstep
      cases hstep
  | consume =>
      cases hcq : s.cq with
      | nil =>
          simp only [hwait, hcq] at hstep
          cases hstep
      | cons cqe cq =>
          simp only [hwait, hcq, Option.some.injEq] at hstep
          subst hstep
          exact .consumed hwait hcq
  | taken cqe =>
      simp only [hwait, Option.some.injEq] at hstep
      subst hstep
      exact takenStep_cases s answer hwait
  | holding buf =>
      simp only [hwait, Option.some.injEq] at hstep
      subst hstep
      exact .decoded hwait
  | decoded buf reading =>
      cases reading with
      | none =>
          simp only [hwait, Option.some.injEq] at hstep
          subst hstep
          exact .undecoded hwait
      | some reading =>
          simp only [hwait, Option.some.injEq] at hstep
          subst hstep
          exact .released hwait
  | readHave buf reading =>
      simp only [hwait, Option.some.injEq] at hstep
      subst hstep
      split
      · rename_i hhave
        exact .linked hwait hhave
      · rename_i hhave
        exact .unlinked hwait (Bool.eq_false_iff.mpr hhave)
  | readLast buf reading =>
      simp only [hwait, Option.some.injEq] at hstep
      subst hstep
      by_cases hlater : s.lastSampleNs < reading.sampleNs
      · rw [if_pos hlater]
        exact .measured hwait hlater
      · rw [if_neg hlater]
        exact .unmeasured hwait hlater
  | storeLast sample =>
      simp only [hwait, Option.some.injEq] at hstep
      subst hstep
      exact .storedLast hwait
  | storeHave sample =>
      simp only [hwait, Option.some.injEq] at hstep
      subst hstep
      exact .storedHave hwait
  | count sample =>
      simp only [hwait, Option.some.injEq] at hstep
      subst hstep
      exact .counted hwait
  | restart pc =>
      simp only [hwait] at hstep
      have hrestarting (pc' : RestartPc) :
          WaitMove s answer { (restartStep s answer pc).1 with wait := .restart pc' } :=
        .restarting hwait
      have hrestarted : WaitMove s answer _ := .restarted hwait
      cases hnext : restartStep s answer pc with
      | mk u next =>
          rw [hnext] at hstep hrestarting hrestarted
          cases next with
          | some pc' =>
              cases hstep
              exact hrestarting pc'
          | none =>
              cases hstep
              exact hrestarted

def tickStep (s : ImuStream B F) : ImuStream B F :=
  if s.watchdogPrimed && s.sampleCount == s.watchdogLastCount then
    { s with
      watchdog := .restart .cancel s.sampleCount
      restarts := s.restarts ++ [.watchdog]
      ticks := s.ticks ++ [⟨s.samples.length, true⟩] }
  else
    { s with
      watchdog := .store s.sampleCount
      ticks := s.ticks ++ [⟨s.samples.length, false⟩] }

/-- The next step of `imu_watchdog_work`. -/
def watchdogStep (s : ImuStream B F) (answer : StreamAnswer) : Option (ImuStream B F) :=
  match s.watchdog with
  | .waiting => none
  | .restart pc count =>
      match restartStep s answer pc with
      | (t, some pc) => some { t with watchdog := .restart pc count }
      | (t, none) => some { t with watchdog := .store count }
  | .store count =>
      some
        { s with
          watchdogPrimed := count != 0
          watchdogLastCount := count
          watchdog := .waiting }

def imuStep (decoder : Option (SensorDecoder B)) (s : ImuStream B F) :
    ImuEvent B → Option (ImuStream B F)
  | .complete cqe => some { s with cq := s.cq ++ [cqe], completed := s.completed ++ [cqe] }
  | .call =>
      match s.wait with
      | .outside => some { s with wait := .consume }
      | _ => none
  | .consumeFails =>
      match s.wait with
      | .consume => some (s.enterRestart .consume)
      | _ => none
  | .wait answer => waitStep decoder s answer
  | .tick =>
      match s.watchdog with
      | .waiting => some (tickStep s)
      | _ => none
  | .watchdog answer => watchdogStep s answer

end Steps

/-- `rdd2_imu_stream_init`, up to a stream that runs; the error otherwise. Completions
come later, the control thread and the work item too. -/
def imuStreamInit (B F : Type) (ready : Bool) (decoderRc : Int) (answer : StreamAnswer) :
    Except Int (ImuStream B F) :=
  if !ready then .error (-19)
  else if decoderRc ≠ 0 then .error decoderRc
  else if answer.rc ≠ 0 then .error answer.rc
  else
    .ok
      { cq := []
        handle := answer.handle
        lastSampleNs := 0
        haveLastSample := false
        sampleCount := 0
        watchdogLastCount := 0
        watchdogPrimed := false
        wait := .outside
        watchdog := .waiting
        completed := []
        consumed := []
        released := []
        calls := [.start answer.rc]
        restarts := []
        resets := 1
        samples := []
        failures := 0
        ticks := [] }

/-! ## Buffers -/

/-- The buffer the control thread has to give back. -/
def ImuWaitPc.held {B F : Type} : ImuWaitPc B F → List B
  | .taken cqe => cqe.buf?.toList
  | .holding buf | .decoded buf _ => [buf]
  | _ => []

/-- The buffer whose sample the control thread may still return. -/
def ImuWaitPc.busy {B F : Type} : ImuWaitPc B F → List B
  | .taken cqe => cqe.buf?.toList
  | .holding buf | .decoded buf _ | .readHave buf _ | .readLast buf _ => [buf]
  | .storeLast sample | .storeHave sample | .count sample => [sample.buf]
  | _ => []

structure PoolInv {B F : Type} (s : ImuStream B F) : Prop where
  fifo : s.completed = s.consumed ++ s.cq
  released : (s.consumed.filterMap RtioCqe.buf?).Perm (s.released ++ s.wait.held)
  samples : (s.samples.map ImuSample.buf ++ s.wait.busy).Sublist
    (s.consumed.filterMap RtioCqe.buf?)

section Pool

variable {B F : Type} {s t : ImuStream B F}

theorem PoolInv.goto (h : PoolInv s) {pc : ImuWaitPc B F} (hheld : pc.held = s.wait.held)
    (hbusy : pc.busy = s.wait.busy) : PoolInv { s with wait := pc } where
  fifo := h.fifo
  released := by rw [hheld]; exact h.released
  samples := by rw [hbusy]; exact h.samples

theorem PoolInv.abandon (h : PoolInv s) {pc : ImuWaitPc B F} (hheld : pc.held = s.wait.held)
    (hbusy : pc.busy = []) : PoolInv { s with wait := pc } where
  fifo := h.fifo
  released := by rw [hheld]; exact h.released
  samples := by
    rw [hbusy, List.append_nil]
    exact (List.sublist_append_left _ _).trans h.samples

theorem PoolInv.enterRestart (h : PoolInv s) (hheld : s.wait.held = []) (reason : RestartReason) :
    PoolInv (s.enterRestart reason) := by
  have hgone : PoolInv { s with wait := .restart .cancel } := h.abandon hheld.symm rfl
  exact ⟨hgone.fifo, hgone.released, hgone.samples⟩

theorem PoolInv.release (h : PoolInv s) {buf : B} {pc : ImuWaitPc B F} (hbuf : s.wait.held = [buf])
    (hheld : pc.held = []) (hbusy : pc.busy = s.wait.busy) :
    PoolInv { s with released := s.released ++ [buf], wait := pc } where
  fifo := h.fifo
  released := by
    rw [hheld, List.append_nil, ← hbuf]
    exact h.released
  samples := by rw [hbusy]; exact h.samples

theorem filterMap_buf?_concat (cqes : List (RtioCqe B)) (cqe : RtioCqe B) :
    (cqes ++ [cqe]).filterMap RtioCqe.buf? = cqes.filterMap RtioCqe.buf? ++ cqe.buf?.toList := by
  rw [List.filterMap_append]
  cases hbuf : cqe.buf? with
  | none => simp [hbuf]
  | some buf => simp [hbuf]

/-- What `imu_stream_drain_cq` takes it gives back at once. -/
theorem restartStep_pool (h : PoolInv s) (answer : StreamAnswer) (pc : RestartPc) :
    PoolInv (restartStep s answer pc).1 ∧ (restartStep s answer pc).1.wait = s.wait := by
  cases pc with
  | cancel | reset | start => exact ⟨⟨h.fifo, h.released, h.samples⟩, rfl⟩
  | drain =>
      cases hcq : s.cq with
      | nil =>
          rw [restartStep, hcq]
          exact ⟨h, rfl⟩
      | cons cqe cq =>
          rw [restartStep, hcq]
          refine ⟨⟨?_, ?_, ?_⟩, rfl⟩
          · rw [h.fifo, hcq, List.append_assoc, List.singleton_append]
          · rw [filterMap_buf?_concat]
            refine (h.released.append_right _).trans ?_
            rw [List.append_assoc, List.append_assoc]
            exact List.Perm.append_left _ List.perm_append_comm
          · rw [List.filterMap_append]
            exact h.samples.trans (List.sublist_append_left _ _)

theorem watchdogStep_pool (h : PoolInv s) {answer : StreamAnswer}
    (hstep : watchdogStep s answer = some t) : PoolInv t := by
  unfold watchdogStep at hstep
  cases hpc : s.watchdog with
  | waiting =>
      rw [hpc] at hstep
      cases hstep
  | restart pc count =>
      simp only [hpc] at hstep
      obtain ⟨hpool, -⟩ := restartStep_pool h answer pc
      cases hnext : restartStep s answer pc with
      | mk u next =>
          rw [hnext] at hstep hpool
          cases next with
          | some pc' | none =>
              cases hstep
              exact ⟨hpool.fifo, hpool.released, hpool.samples⟩
  | store count =>
      simp only [hpc, Option.some.injEq] at hstep
      subst hstep
      exact ⟨h.fifo, h.released, h.samples⟩

theorem imuStreamInit_cases {ready : Bool} {decoderRc : Int} {answer : StreamAnswer}
    (h : imuStreamInit B F ready decoderRc answer = .ok s) :
    PoolInv s ∧ s.wait = .outside ∧ s.watchdog = .waiting ∧ s.samples = [] ∧ s.resets = 1 ∧
      s.haveLastSample = false ∧ s.sampleCount = 0 ∧ s.watchdogPrimed = false ∧ s.ticks = [] ∧
      s.restarts = [] := by
  unfold imuStreamInit at h
  split at h
  · cases h
  · split at h
    · cases h
    · split at h
      · cases h
      · cases h
        exact ⟨⟨rfl, .refl _, .refl _⟩, rfl, rfl, rfl, rfl, rfl, rfl, rfl, rfl, rfl⟩

variable [CFloat F] [CScale F] {decoder : Option (SensorDecoder B)}

theorem waitStep_pool (h : PoolInv s) {answer : StreamAnswer}
    (hstep : waitStep decoder s answer = some t) : PoolInv t := by
  have hreleased := h.released
  have hsamples := h.samples
  cases waitStep_cases hstep with
  | consumed hwait hcq =>
      rw [hwait] at hreleased hsamples
      simp only [ImuWaitPc.held, ImuWaitPc.busy, List.append_nil] at hreleased hsamples
      refine ⟨?_, ?_, ?_⟩
      · rw [h.fifo, hcq, List.append_assoc, List.singleton_append]
      · rw [filterMap_buf?_concat]
        exact hreleased.append_right _
      · rw [filterMap_buf?_concat]
        exact hsamples.append_right _
  | held hwait hbuf =>
      exact h.goto (by rw [hwait, ImuWaitPc.held, ImuWaitPc.held, hbuf]; rfl)
        (by rw [hwait, ImuWaitPc.busy, ImuWaitPc.busy, hbuf]; rfl)
  | failed hwait hbuf =>
      refine h.enterRestart ?_ _
      rw [hwait, ImuWaitPc.held, hbuf, Option.toList_none]
  | undecoded hwait =>
      rw [hwait] at hreleased
      refine ⟨h.fifo, ?_, ?_⟩
      · simp only [ImuStream.enterRestart, ImuWaitPc.held, List.append_nil]
        exact hreleased
      · simp only [ImuStream.enterRestart, ImuWaitPc.busy, List.append_nil]
        exact (List.sublist_append_left _ _).trans hsamples
  | released hwait => exact h.release (by rw [hwait]; rfl) rfl (by rw [hwait]; rfl)
  | decoded hwait | linked hwait | unlinked hwait | measured hwait | unmeasured hwait =>
      exact h.goto (by rw [hwait]; rfl) (by rw [hwait]; rfl)
  | @storedLast sample hwait | @storedHave sample hwait =>
      have hgo : PoolInv { s with wait := .count sample } :=
        h.goto (by rw [hwait]; rfl) (by rw [hwait]; rfl)
      exact ⟨hgo.fifo, hgo.released, hgo.samples⟩
  | counted hwait =>
      rw [hwait] at hreleased hsamples
      refine ⟨h.fifo, hreleased, ?_⟩
      simp only [List.map_append, ImuWaitPc.busy, List.append_nil]
      exact hsamples
  | @restarting pc pc' hwait =>
      obtain ⟨hpool, hsame⟩ := restartStep_pool h answer pc
      rw [hwait] at hsame
      exact hpool.goto (by rw [hsame]; rfl) (by rw [hsame]; rfl)
  | @restarted pc hwait =>
      obtain ⟨hpool, hsame⟩ := restartStep_pool h answer pc
      rw [hwait] at hsame
      have hgo : PoolInv { (restartStep s answer pc).1 with wait := .outside } :=
        hpool.goto (by rw [hsame]; rfl) (by rw [hsame]; rfl)
      exact ⟨hgo.fifo, hgo.released, hgo.samples⟩

theorem imuStep_pool (h : PoolInv s) {e : ImuEvent B} (hstep : imuStep decoder s e = some t) :
    PoolInv t := by
  cases e with
  | complete cqe =>
      cases hstep
      refine ⟨?_, h.released, h.samples⟩
      rw [h.fifo, List.append_assoc]
  | call =>
      unfold imuStep at hstep
      cases hwait : s.wait <;> simp only [hwait] at hstep <;> cases hstep
      exact h.goto (by rw [hwait]; rfl) (by rw [hwait]; rfl)
  | consumeFails =>
      unfold imuStep at hstep
      cases hwait : s.wait <;> simp only [hwait] at hstep <;> cases hstep
      exact h.enterRestart (by rw [hwait]; rfl) _
  | wait answer => exact waitStep_pool h hstep
  | tick =>
      unfold imuStep at hstep
      cases hpc : s.watchdog <;> simp only [hpc] at hstep <;> cases hstep
      unfold tickStep
      split <;> exact ⟨h.fifo, h.released, h.samples⟩
  | watchdog answer => exact watchdogStep_pool h hstep

/-- However completions, control thread and watchdog interleave: the buffers of the
completions that went well and were consumed are those given back, each once, and the one
the control thread has in hand; samples come from them in order, each from a buffer of its
own. A completion that failed has its buffer never given back. -/
theorem imu_buffers_accounted {ready : Bool} {decoderRc : Int} {answer : StreamAnswer}
    {boot : ImuStream B F} (hinit : imuStreamInit B F ready decoderRc answer = .ok boot)
    (events : List (ImuEvent B)) (hrun : Guarded.run (imuStep decoder) boot events = some s) :
    s.completed = s.consumed ++ s.cq ∧
      (s.consumed.filterMap RtioCqe.buf?).Perm (s.released ++ s.wait.held) ∧
      (s.samples.map ImuSample.buf).Sublist (s.completed.filterMap RtioCqe.buf?) := by
  have h := Guarded.run_inv (imuStep decoder) (fun _ _ _ hs hstep => imuStep_pool hs hstep)
    (imuStreamInit_cases hinit).1 hrun
  refine ⟨h.fifo, h.released, ?_⟩
  rw [h.fifo, List.filterMap_append]
  exact ((List.sublist_append_left _ _).trans h.samples).trans (List.sublist_append_left _ _)

end Pool

/-! ## A bench -/

def benchDecoder : SensorDecoder UInt64 where
  getFrameCount _ _ := (0, 1)
  decode stamp _ _ := (1, ⟨stamp, 0, 0, 0, 0, 0⟩)

def benchStream : ImuStream UInt64 Rat where
  cq := []
  handle := true
  lastSampleNs := 0
  haveLastSample := false
  sampleCount := 0
  watchdogLastCount := 0
  watchdogPrimed := false
  wait := .outside
  watchdog := .waiting
  completed := []
  consumed := []
  released := []
  calls := [.start 0]
  restarts := []
  resets := 1
  samples := []
  failures := 0
  ticks := []

theorem benchStream_init : imuStreamInit UInt64 Rat true 0 ⟨0, true⟩ = .ok benchStream := rfl

/-- A read completes, and the control thread takes some steps in a new call. -/
def benchSample (stamp : UInt64) (steps : Nat) : List (ImuEvent UInt64) :=
  [.complete ⟨0, .ok stamp⟩, .call] ++ List.replicate steps (.wait ⟨0, true⟩)

/-- One completion of three fails, and the restart drains the third. -/
theorem imu_buffers_accounted_failed :
    ∃ boot s, imuStreamInit UInt64 Rat true 0 ⟨0, true⟩ = .ok boot ∧
      Guarded.run (imuStep benchDecoder) boot
        (benchSample 1000000 8 ++ .complete ⟨-5, .ok 1625000⟩ :: benchSample 2250000 7) = some s ∧
      s.released = [1000000, 2250000] ∧
      (s.samples.map ImuSample.buf).Sublist (s.completed.filterMap RtioCqe.buf?) := by
  obtain ⟨s, hs, hreleased⟩ : ∃ s, Guarded.run (imuStep benchDecoder) benchStream
      (benchSample 1000000 8 ++ .complete ⟨-5, .ok 1625000⟩ :: benchSample 2250000 7) = some s ∧
        s.released = [1000000, 2250000] :=
    Guarded.run_any _ (by decide +kernel)
  exact ⟨benchStream, s, rfl, hs, hreleased, (imu_buffers_accounted benchStream_init _ hs).2.2⟩

end Rdd2
