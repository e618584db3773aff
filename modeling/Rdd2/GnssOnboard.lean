import Mathlib.Data.List.Induction
import Rdd2.InterruptRing
import Rdd2.NavPvt
import Rdd2.UbxFraming

/-!
# The onboard GNSS source

The rest of `subsys/gnss_source/gnss_onboard.c` around `rx_byte`: `uart_isr` fills
`g_ring`, `gnss_thread` empties it in chunks of 64, and `publish_nav_pvt` makes a
sample of every NAV-PVT payload, hands it to ZROS and counts what came of it.

What the source says of itself in `struct rdd2_gnss_onboard_stats` is what it has
done, however the interrupt and the thread run into each other
(`onboard_samples_accounted`); and a line of frames whose bursts fit the ring becomes
the fixes of its NAV-PVT frames, one by one (`onboard_fixes_published`).

The conversion is undefined for one velocity (`gnssFix_overflow`). What the source
does after it met that is left open: there is no `Samples` to speak of then.
-/

namespace Rdd2.Ubx

/-! ## The source -/

/-- What `k_uptime_get` and `zros_pub_update` return to `publish_nav_pvt`, call by
call. -/
structure OnboardEnv where
  uptimeMs : Nat → Int64
  pubUpdate : Nat → Int

/-- The rest of `struct rdd2_gnss_onboard_stats`, and the samples that
`zros_pub_update` was called with. -/
structure Samples where
  samples : UInt32 := 0
  published : UInt32 := 0
  publishFailed : UInt32 := 0
  ringOverrun : UInt32 := 0
  lastSampleMs : Int64 := 0
  lastFixType : FixType := .noFix
  lastSatellites : UInt8 := 0
  lastHdopCenti : UInt16 := 0
  lastHaccMm : UInt16 := 0
  fixes : List GnssFix := []
  deriving DecidableEq, Repr

/-- `publish_nav_pvt`, which asks for the time twice. -/
def publishSample (env : OnboardEnv) (s : Samples) (pvt : List UInt8) : Option Samples := do
  let n := s.fixes.length
  let fix ← gnssFix (env.uptimeMs (2 * n)).toUInt64 (NavPvt.ofBytes pvt)
  let s := { s with
    samples := s.samples + 1
    lastSampleMs := env.uptimeMs (2 * n + 1)
    lastFixType := fix.fixType
    lastSatellites := fix.satellitesUsed
    lastHdopCenti := fix.hdopCenti
    lastHaccMm := fix.horizontalAccuracyMm
    fixes := s.fixes ++ [fix] }
  if env.pubUpdate n ≠ 0 then some { s with publishFailed := s.publishFailed + 1 }
  else some { s with published := s.published + 1 }

/-- `rx_byte` and what it has called `publish_nav_pvt` for; nothing after an
overflow. -/
structure Onboard where
  rx : Rx
  out : Option Samples

def onboardInit (cfg : Config) : Onboard := ⟨rxInit cfg, some {}⟩

/-- `rx_byte`, with `publish_nav_pvt` where it calls it. -/
def onboardByte (cfg : Config) (env : OnboardEnv) (o : Onboard) (byte : UInt8) : Onboard where
  rx := rxByte cfg o.rx byte
  out := o.out.bind fun s =>
    ((rxByte cfg o.rx byte).link.published.drop o.rx.link.published.length).foldlM
      (publishSample env) s

/-- What `uart_isr` writes to `g_stats`. -/
def Samples.overrun (s : Samples) (lost : Nat) : Samples :=
  { s with ringOverrun := s.ringOverrun + UInt32.ofNat lost }

/-- `g_ring` between `uart_isr` and `gnss_thread`. -/
def onboardReader (cfg : Config) (env : OnboardEnv) (rxRingSize : Nat) :
    InterruptRing.Reader UInt8 Onboard where
  capacity := rxRingSize
  chunkMax := 64
  handle := onboardByte cfg env
  overrun := fun o lost => { o with out := o.out.map fun s => s.overrun lost }

/-- Interrupts and steps of the thread, in any order that can happen. -/
def onboardRun (cfg : Config) (env : OnboardEnv) (rxRingSize : Nat)
    (events : List (InterruptRing.Event UInt8)) : Option (InterruptRing.State UInt8 Onboard) :=
  Guarded.run (InterruptRing.step (onboardReader cfg env rxRingSize))
    (InterruptRing.init (onboardInit cfg)) events

/-! ## The interrupt's counter -/

theorem publishSample_overrun (env : OnboardEnv) (s : Samples) (lost : Nat) (pvt : List UInt8) :
    publishSample env (s.overrun lost) pvt
      = (publishSample env s pvt).map fun s => s.overrun lost := by
  simp only [publishSample, Samples.overrun]
  cases gnssFix (env.uptimeMs (2 * s.fixes.length)).toUInt64 (NavPvt.ofBytes pvt) with
  | none => rfl
  | some fix =>
      simp only [Option.bind_eq_bind, Option.bind_some]
      by_cases hrc : env.pubUpdate s.fixes.length = 0 <;> simp [hrc]

theorem publishAll_overrun (env : OnboardEnv) (s : Samples) (lost : Nat)
    (pvts : List (List UInt8)) :
    pvts.foldlM (publishSample env) (s.overrun lost)
      = (pvts.foldlM (publishSample env) s).map fun s => s.overrun lost := by
  induction pvts generalizing s with
  | nil => rfl
  | cons pvt pvts ih =>
      rw [List.foldlM_cons, List.foldlM_cons, publishSample_overrun]
      cases publishSample env s pvt with
      | none => rfl
      | some t => exact ih t

theorem onboardReader_lawful (cfg : Config) (env : OnboardEnv) (rxRingSize : Nat) :
    (onboardReader cfg env rxRingSize).Lawful where
  overrun_zero := by
    rintro ⟨rx, out⟩
    cases out with
    | none => rfl
    | some s => simp [onboardReader, Samples.overrun]
  overrun_add := by
    rintro ⟨rx, out⟩ m n
    cases out with
    | none => rfl
    | some s => simp [onboardReader, Samples.overrun, UInt32.ofNat_add, UInt32.add_assoc]
  handle_overrun := by
    rintro ⟨rx, out⟩ n byte
    cases out with
    | none => rfl
    | some s =>
        simp only [onboardReader, onboardByte, Option.map_some, Option.bind_some,
          publishAll_overrun]

/-! ## The source over a stretch of the line -/

theorem onboardByte_feed (cfg : Config) (env : OnboardEnv) (bytes : List UInt8) :
    bytes.foldl (onboardByte cfg env) (onboardInit cfg)
      = ⟨feed cfg (rxInit cfg) bytes, (calls cfg bytes).foldlM (publishSample env) {}⟩ := by
  induction bytes using List.reverseRecOn with
  | nil => rfl
  | append_singleton bytes b ih =>
      have hfeed : feed cfg (rxInit cfg) (bytes ++ [b])
          = rxByte cfg (feed cfg (rxInit cfg) bytes) b := List.foldl_concat ..
      obtain ⟨hpending, -, -⟩ := feed_refines cfg (rxInit_pending cfg) bytes
      obtain ⟨-, -, hlink⟩ := feed_refines cfg hpending [b]
      have hgrow : calls cfg (bytes ++ [b]) = calls cfg bytes ++
          (calls cfg (bytes ++ [b])).drop (calls cfg bytes).length := by
        rw [calls, calls, hfeed, show rxByte cfg (feed cfg (rxInit cfg) bytes) b
          = feed cfg (feed cfg (rxInit cfg) bytes) [b] from rfl, hlink, Link.published_after,
          List.drop_left]
      rw [List.foldl_concat, ih, hfeed, hgrow, List.foldlM_append, onboardByte]
      rw [calls, calls, hfeed]
      rfl

/-- What has come of the payloads of the NAV-PVT frames, with `lost` bytes missing. -/
structure SamplesOf (env : OnboardEnv) (pvts : List (List UInt8)) (lost : Nat) (s : Samples) :
    Prop where
  /-- Each is converted once, with the time of its own call. -/
  fixes : s.fixes.map some
    = pvts.zipIdx.map fun p => gnssFix (env.uptimeMs (2 * p.2)).toUInt64 (NavPvt.ofBytes p.1)
  samples : s.samples = UInt32.ofNat pvts.length
  published : s.published
    = UInt32.ofNat ((List.range pvts.length).countP fun k => env.pubUpdate k = 0)
  publishFailed : s.publishFailed
    = UInt32.ofNat ((List.range pvts.length).countP fun k => ¬ env.pubUpdate k = 0)
  ringOverrun : s.ringOverrun = UInt32.ofNat lost
  /-- The `last` fields are of the last sample. -/
  last : ∀ fix, s.fixes.getLast? = some fix →
    s.lastSampleMs = env.uptimeMs (2 * pvts.length - 1) ∧ s.lastFixType = fix.fixType ∧
      s.lastSatellites = fix.satellitesUsed ∧ s.lastHdopCenti = fix.hdopCenti ∧
      s.lastHaccMm = fix.horizontalAccuracyMm

/-- A velocity whose negation fits. -/
def Convertible (pvt : List UInt8) : Prop := (NavPvt.ofBytes pvt).velDown.toInt ≠ -2 ^ 31

instance (pvt : List UInt8) : Decidable (Convertible pvt) := inferInstanceAs (Decidable (_ ≠ _))

theorem SamplesOf.length {env : OnboardEnv} {pvts : List (List UInt8)} {lost : Nat} {s : Samples}
    (h : SamplesOf env pvts lost s) : s.fixes.length = pvts.length := by
  have hlength := congrArg List.length h.fixes
  rwa [List.length_map, List.length_map, List.length_zipIdx] at hlength

theorem SamplesOf.concat {env : OnboardEnv} {pvts : List (List UInt8)} {s : Samples}
    (h : SamplesOf env pvts 0 s) {pvt : List UInt8} (hpvt : Convertible pvt) :
    ∃ t, publishSample env s pvt = some t ∧ SamplesOf env (pvts ++ [pvt]) 0 t := by
  obtain ⟨fix, hfix, -⟩ :=
    gnssFix_converted (env.uptimeMs (2 * s.fixes.length)).toUInt64 hpvt
  have hlast : 2 * (pvts ++ [pvt]).length - 1 = 2 * s.fixes.length + 1 := by
    rw [h.length, List.length_append, List.length_singleton]
    omega
  have hfixes : (s.fixes ++ [fix]).map some = (pvts ++ [pvt]).zipIdx.map fun p =>
      gnssFix (env.uptimeMs (2 * p.2)).toUInt64 (NavPvt.ofBytes p.1) := by
    rw [List.map_append, h.fixes, List.zipIdx_append, List.map_append, ← h.length]
    simp [hfix]
  have hsamples : s.samples + 1 = UInt32.ofNat (pvts ++ [pvt]).length := by
    rw [h.samples, List.length_append, List.length_singleton, UInt32.ofNat_add]
    rfl
  simp only [publishSample, hfix, Option.bind_eq_bind, Option.bind_some]
  split
  · rename_i hfailed
    refine ⟨_, rfl, hfixes, hsamples, ?_, ?_, h.ringOverrun, ?_⟩
    · simp only [List.length_append, List.length_singleton, List.range_succ, List.countP_append]
      rw [h.length] at hfailed
      simp [h.published, hfailed]
    · simp only [List.length_append, List.length_singleton, List.range_succ, List.countP_append]
      rw [h.length] at hfailed
      simp [h.publishFailed, hfailed, UInt32.ofNat_add]
    · intro last hlastFix
      rw [List.getLast?_concat, Option.some.injEq] at hlastFix
      subst hlastFix
      exact ⟨by rw [hlast], rfl, rfl, rfl, rfl⟩
  · rename_i hpublished
    rw [not_not] at hpublished
    refine ⟨_, rfl, hfixes, hsamples, ?_, ?_, h.ringOverrun, ?_⟩
    · simp only [List.length_append, List.length_singleton, List.range_succ, List.countP_append]
      rw [h.length] at hpublished
      simp [h.published, hpublished, UInt32.ofNat_add]
    · simp only [List.length_append, List.length_singleton, List.range_succ, List.countP_append]
      rw [h.length] at hpublished
      simp [h.publishFailed, hpublished]
    · intro last hlastFix
      rw [List.getLast?_concat, Option.some.injEq] at hlastFix
      subst hlastFix
      exact ⟨by rw [hlast], rfl, rfl, rfl, rfl⟩

theorem publishAll_of_convertible (env : OnboardEnv) {pvts : List (List UInt8)}
    (h : ∀ pvt ∈ pvts, Convertible pvt) :
    ∃ s, pvts.foldlM (publishSample env) {} = some s ∧ SamplesOf env pvts 0 s := by
  induction pvts using List.reverseRecOn with
  | nil => exact ⟨{}, rfl, rfl, rfl, rfl, rfl, rfl, fun _ h => by cases h⟩
  | append_singleton pvts pvt ih =>
      rw [List.forall_mem_append, List.forall_mem_singleton] at h
      obtain ⟨s, hs, hsamples⟩ := ih h.1
      obtain ⟨t, ht, hnext⟩ := hsamples.concat h.2
      refine ⟨t, ?_, hnext⟩
      rw [List.foldlM_append, hs]
      simp [ht]

/-- One payload that overflows is enough. -/
theorem convertible_of_publishAll {env : OnboardEnv} {pvts : List (List UInt8)} {s t : Samples}
    (h : pvts.foldlM (publishSample env) s = some t) : ∀ pvt ∈ pvts, Convertible pvt := by
  induction pvts generalizing s with
  | nil => exact fun _ h => by cases h
  | cons pvt pvts ih =>
      rw [List.foldlM_cons] at h
      obtain ⟨m, hm, hrest⟩ := Option.bind_eq_some_iff.mp h
      refine List.forall_mem_cons.mpr ⟨fun hvel => ?_, ih hrest⟩
      simp only [publishSample, gnssFix_overflow _ hvel, Option.bind_eq_bind,
        Option.bind_none] at hm
      cases hm

/-! ## The counters of the framing -/

/-- Every frame that passed its checksum is of another kind, of another length, or a
sample. -/
def Link.Counted (l : Link) : Prop :=
  l.stats.frames = l.stats.otherFrames + l.stats.badLength + UInt32.ofNat l.published.length

theorem Link.Counted.acceptFrame {l : Link} (h : l.Counted) (f : Frame) :
    (l.acceptFrame f).Counted := by
  unfold Link.Counted at h ⊢
  simp only [Link.acceptFrame]
  split
  · simp only [h]
    ac_rfl
  · split
    · simp only [h]
      ac_rfl
    · simp only [publishNavPvt, h, List.length_append, List.length_singleton, UInt32.ofNat_add]
      rw [UInt32.add_assoc]
      rfl

theorem Link.Counted.countFault {l : Link} (h : l.Counted) (e : Fault) :
    (l.countFault e).Counted := by
  cases e <;> exact h

theorem feed_counted (cfg : Config) (bytes : List UInt8) :
    (feed cfg (rxInit cfg) bytes).link.Counted := by
  obtain ⟨-, -, hlink⟩ := feed_refines cfg (rxInit_pending cfg) bytes
  have hframes (fs : List Frame) {l : Link} (hl : l.Counted) :
      (fs.foldl Link.acceptFrame l).Counted := by
    induction fs generalizing l with
    | nil => exact hl
    | cons f fs ih => exact ih (hl.acceptFrame f)
  have hfaults (es : List Fault) {l : Link} (hl : l.Counted) :
      (es.foldl Link.countFault l).Counted := by
    induction es generalizing l with
    | nil => exact hl
    | cons e es ih => exact ih (hl.countFault e)
  rw [hlink]
  exact hfaults _ (hframes _ rfl)

/-! ## Over a run -/

/-- What has become of the bytes handled, behind whatever interrupts. -/
theorem onboard_out {cfg : Config} {env : OnboardEnv} {rxRingSize : Nat}
    {s : InterruptRing.State UInt8 Onboard}
    (h : InterruptRing.Account (onboardReader cfg env rxRingSize) (onboardInit cfg) s) :
    s.reader.rx = feed cfg (rxInit cfg) s.handled ∧
      s.reader.out = ((calls cfg s.handled).foldlM (publishSample env) {}).map
        fun o => o.overrun (s.offered.length - s.stored.length) := by
  have hreader := h.reader_eq
  rw [show s.handled.foldl (onboardReader cfg env rxRingSize).handle (onboardInit cfg) = _ from
    onboardByte_feed cfg env s.handled] at hreader
  rw [hreader]
  exact ⟨rfl, rfl⟩

theorem SamplesOf.overrun {env : OnboardEnv} {pvts : List (List UInt8)} {s : Samples}
    (h : SamplesOf env pvts 0 s) (lost : Nat) : SamplesOf env pvts lost (s.overrun lost) where
  fixes := h.fixes
  samples := h.samples
  published := h.published
  publishFailed := h.publishFailed
  ringOverrun := by
    rw [Samples.overrun, h.ringOverrun]
    exact UInt32.zero_add _
  last := h.last

theorem SamplesOf.samples_eq {env : OnboardEnv} {pvts : List (List UInt8)} {lost : Nat}
    {s : Samples} (h : SamplesOf env pvts lost s) : s.samples = s.published + s.publishFailed := by
  have hsplit := List.length_eq_countP_add_countP (fun k => decide (env.pubUpdate k = 0))
    (l := List.range pvts.length)
  rw [List.length_range] at hsplit
  rw [h.samples, h.published, h.publishFailed, ← UInt32.ofNat_add]
  exact congrArg UInt32.ofNat (hsplit.trans (by simp))

/-- However the interrupt and the thread run into each other: the source has a result
if and only if no velocity overflowed, and then its samples are the conversions of the
NAV-PVT payloads that the leftmost scan of the handled bytes finds, in order, each with
the time of its own call; `samples` and `published`, `publish_failed` and `frames`,
`other_frames` and `bad_length` add up; `ring_overrun` counts the bytes that were never
stored, and all others are handled, in the chunk or in the ring. -/
theorem onboard_samples_accounted (cfg : Config) (env : OnboardEnv) (rxRingSize : Nat)
    (events : List (InterruptRing.Event UInt8)) (s : InterruptRing.State UInt8 Onboard)
    (hrun : onboardRun cfg env rxRingSize events = some s) :
    s.stored = s.handled ++ s.chunk ++ s.ring ∧ s.stored.Sublist s.offered ∧
      (s.reader.out.isSome = true ↔ ∀ pvt ∈ calls cfg s.handled, Convertible pvt) ∧
      ∀ o, s.reader.out = some o →
        SamplesOf env (calls cfg s.handled) (s.offered.length - s.stored.length) o ∧
          o.samples = o.published + o.publishFailed ∧
          s.reader.rx.link.stats.frames = s.reader.rx.link.stats.otherFrames
            + s.reader.rx.link.stats.badLength + o.samples := by
  have h := InterruptRing.run_account (onboardReader_lawful cfg env rxRingSize) _ hrun
  obtain ⟨hrx, hout⟩ := onboard_out h
  refine ⟨h.stored_eq, h.stored_sublist, ⟨fun hsome => ?_, fun hall => ?_⟩, fun o ho => ?_⟩
  · rw [hout, Option.isSome_map] at hsome
    obtain ⟨o, ho⟩ := Option.isSome_iff_exists.mp hsome
    exact convertible_of_publishAll ho
  · obtain ⟨o, ho, -⟩ := publishAll_of_convertible env hall
    rw [hout, ho]
    rfl
  · rw [hout] at ho
    obtain ⟨before, hbefore, rfl⟩ := Option.map_eq_some_iff.mp ho
    obtain ⟨other, hother, hsamples⟩ :=
      publishAll_of_convertible env (convertible_of_publishAll hbefore)
    obtain rfl : other = before := Option.some.inj (hother.symm.trans hbefore)
    have hlost := hsamples.overrun (s.offered.length - s.stored.length)
    refine ⟨hlost, hlost.samples_eq, ?_⟩
    have hcounted := feed_counted cfg s.handled
    rw [hrx, hlost.samples]
    exact hcounted

/-- What `k_uptime_get` and `zros_pub_update` say on the bench: a second has passed, and
the first fix is taken. -/
def OnboardEnv.bench : OnboardEnv := ⟨fun _ => 1000, fun call => if call = 0 then 0 else -11⟩

def benchLine : List (InterruptRing.Event UInt8) :=
  [.offer stillFix.wire, .wake, .take] ++ List.replicate 64 .handle ++ [.take] ++
    List.replicate 36 .handle ++ [.take]

/-- After the two chunks of `benchLine` the same fix again, and then more than the ring
holds. -/
def benchOverrun : List (InterruptRing.Event UInt8) :=
  benchLine ++ [.offer (stillFix.wire ++ List.replicate 40 0), .wake, .take] ++
    List.replicate 64 .handle ++ [.take] ++ List.replicate 36 .handle

/-- Two samples, of which one is not taken, and twelve bytes lost. -/
theorem onboard_samples_accounted_overrun :
    ∃ s o, onboardRun .standard .bench 128 benchOverrun = some s ∧ s.reader.out = some o ∧
      SamplesOf .bench [stillFix.payload, stillFix.payload] 12 o ∧
      o.samples = o.published + o.publishFailed ∧
      s.reader.rx.link.stats.frames = s.reader.rx.link.stats.otherFrames
        + s.reader.rx.link.stats.badLength + o.samples := by
  obtain ⟨s, hs, hcalls, hlost, hout⟩ : ∃ s, onboardRun .standard .bench 128 benchOverrun = some s ∧
      calls .standard s.handled = [stillFix.payload, stillFix.payload] ∧
      s.offered.length - s.stored.length = 12 ∧ s.reader.out.isSome = true :=
    Guarded.run_any _ (by decide +kernel)
  obtain ⟨o, ho⟩ := Option.isSome_iff_exists.mp hout
  obtain ⟨-, -, -, hsamples⟩ := onboard_samples_accounted .standard .bench 128 _ s hs
  obtain ⟨hsamples, hsum, hframes⟩ := hsamples o ho
  rw [hcalls, hlost] at hsamples
  exact ⟨s, o, hs, ho, hsamples, hsum, hframes⟩

/-- While no more bytes arrive between two looks at an empty ring than it holds: once
the thread is asleep with nothing in the ring, the frames on the line have become the
fixes of their NAV-PVT frames, each once and in order, provided that what follows the
header of an oversize frame is inert; no byte is counted lost. -/
theorem onboard_fixes_published (cfg : Config) (env : OnboardEnv) (rxRingSize : Nat)
    (fs : List Frame)
    (hinert : ∀ f ∈ fs, cfg.maxPayload < f.payload.length → Inert cfg.maxPayload f.tail)
    (hconvertible : ∀ pvt ∈ navPvts fs, Convertible pvt)
    (events : List (InterruptRing.Event UInt8)) (s : InterruptRing.State UInt8 Onboard)
    (hfits : Guarded.Ok (InterruptRing.step (onboardReader cfg env rxRingSize))
      (InterruptRing.BurstFits (onboardReader cfg env rxRingSize))
      (InterruptRing.init (onboardInit cfg)) events)
    (hrun : onboardRun cfg env rxRingSize events = some s) (hline : s.offered = stream fs)
    (hasleep : s.draining = false) (hring : s.ring = []) :
    ∃ o, s.reader.out = some o ∧ SamplesOf env (navPvts fs) 0 o := by
  have hR := onboardReader_lawful cfg env rxRingSize
  have h := InterruptRing.run_account hR _ hrun
  have hstored : s.stored = s.offered := InterruptRing.run_lossless hR _ hfits hrun
  have hhandled : s.handled = stream fs := by
    rw [h.handled_of_idle (h.asleep hasleep) hring, hstored, hline]
  have hcalls : calls cfg s.handled = navPvts fs := by
    rw [hhandled, calls_eq_scan]
    exact scan_stream cfg.maxPayload_ge hinert (Or.inl rfl)
  obtain ⟨o, ho, hsamples⟩ := publishAll_of_convertible env hconvertible
  obtain ⟨-, hout⟩ := onboard_out h
  rw [hcalls, ho, hstored, Nat.sub_self] at hout
  exact ⟨_, hout, hsamples.overrun 0⟩

theorem onboard_fixes_published_bench :
    ∃ s o, onboardRun .standard .bench 128 benchLine = some s ∧ s.reader.out = some o ∧
      SamplesOf .bench [stillFix.payload] 0 o := by
  obtain ⟨s, hs, hline, hasleep, hring⟩ : ∃ s, onboardRun .standard .bench 128 benchLine = some s ∧
      s.offered = stream [stillFix] ∧ s.draining = false ∧ s.ring = [] :=
    Guarded.run_any _ (by decide +kernel)
  obtain ⟨o, ho, hsamples⟩ := onboard_fixes_published .standard .bench 128 [stillFix]
    (List.forall_mem_singleton.mpr fun hbig => absurd hbig (by decide)) (by decide +kernel)
    benchLine s (by decide +kernel) hs hline hasleep hring
  exact ⟨s, o, hs, ho, hsamples⟩

end Rdd2.Ubx
