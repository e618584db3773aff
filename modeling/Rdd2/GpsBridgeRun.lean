import Rdd2.GpsBridge
import Rdd2.Guarded

/-!
# The bridge at work

`class Bridge` of `publish_gps_zenoh.py`. Samples come in on threads of the transport,
`tick` runs on its own and shares with them what `self.lock` guards; it looks at the
clock before it takes the lock, so a sample may be younger than what it holds for now.
A number is used up by every send, also by one that failed.

`bridged_fixes_published` follows the fixes into the vehicle: what is published there
with a position is what somebody has lately vouched for.
-/

namespace Rdd2.GpsBridge

open Succession

/-! ## The bridge -/

structure Stored (F : Type) where
  payload : Payload F
  sample : PoseSample F
  time : Rat

inductive Ticking (F : Type) where
  | idle
  | timed (now : Rat)
  /-- Out of the lock, with its locals, and the number of samples taken in by then. -/
  | holding (now : Rat) (seen : Nat) (sample : PoseSample F) (accuracy : Option (F × F))

/-- A send, which no step reads: the clock and the number of samples when it looked, the
fix, and the frame if it was written. -/
structure Send where
  now : Rat
  seen : Nat
  fix : GnssFix
  frame : Option (List UInt8)

/-- `class Bridge`; `decoding` is what `on_sample` has not decoded yet, and `failed` says
that an exception has ended the loop. No step reads `stored` and `sends`. -/
structure Bridge (F : Type) where
  sample : Option (PoseSample F)
  sampleAt : F
  accuracy : Option (F × F)
  accuracyAt : F
  arrived : Nat
  dropped : Nat
  decodeErrors : Nat
  received : Nat
  sent : Nat
  seq : UInt8
  start : F
  prev : Option (F × F × F × F)
  decoding : Option (Payload F)
  ticking : Ticking F
  failed : Bool
  stored : List (Stored F)
  sends : List Send

inductive BridgeEvent (F : Type) where
  /-- `on_sample` up to its `decode`. -/
  | arrive (payload : Payload F)
  /-- The rest of it. -/
  | take (now : Rat)
  /-- `on_covariance`; `none` if the payload is malformed. -/
  | covariance (data : Option (Covariance F)) (now : Rat)
  /-- `tick` up to the lock. -/
  | clock (now : Rat)
  /-- To where it has the lock no more. -/
  | look
  /-- The rest of it; `written` says that `write` wrote all of the frame. -/
  | send (now : Rat) (timeS : F) (written : Bool)

section Code

variable {F : Type} [CFloat F]

/-- `Bridge.__init__` -/
def Bridge.new (start : Rat) : Bridge F where
  sample := none
  sampleAt := CFloat.lit 0
  accuracy := none
  accuracyAt := CFloat.lit 0
  arrived := 0
  dropped := 0
  decodeErrors := 0
  received := 0
  sent := 0
  seq := 0
  start := CFloat.lit start
  prev := none
  decoding := none
  ticking := .idle
  failed := false
  stored := []
  sends := []

/-- The rest of `on_sample`. -/
def Bridge.take (schema : Schema) (args : Args F) (b : Bridge F) (payload : Payload F)
    (now : Rat) : Bridge F :=
  match decode schema args payload with
  | none => { b with decoding := none, decodeErrors := b.decodeErrors + 1 }
  | some none => { b with decoding := none, dropped := b.dropped + 1 }
  | some (some sample) =>
      { b with
        decoding := none
        sample := some sample
        sampleAt := CFloat.lit now
        received := b.received + 1
        stored := b.stored ++ [⟨payload, sample, now⟩] }

/-- What `tick` goes on with: a sample that is too old is called lost, and loses its
attitude and velocity. -/
def agedSample (args : Args F) (sample : PoseSample F) (age : F) (accuracy : Option (F × F)) :
    PoseSample F × Option (F × F) :=
  if CFloat.lt args.timeout age then
    ({ timestampUs := sample.timestampUs, east := sample.east, north := sample.north
       up := sample.up, lost := true }, none)
  else (sample, accuracy)

/-- `tick` from the lock on. -/
def Bridge.look (args : Args F) (b : Bridge F) (now : Rat) : Bridge F :=
  let accuracy :=
    if CFloat.lt (sub (CFloat.lit now) b.accuracyAt) args.timeout then b.accuracy else none
  match b.sample with
  | none => { b with ticking := .idle }
  | some sample =>
      let aged := agedSample args sample (sub (CFloat.lit now) b.sampleAt) accuracy
      { b with ticking := .holding now b.stored.length aged.1 aged.2 }

/-- `tick` once it has a fix: the position it reports, and whether the frame was written.
What `pack` and `encode_frame` raise is caught like what `write` does. -/
def Bridge.sendFix (args : Args F) (b : Bridge F) (now : Rat) (seen : Nat) (fix : GnssFix)
    (position : F × F × F) (written : Bool) : Bridge F :=
  let frame :=
    if args.dryRun || !written then none
    else fix.pack.bind fun payload => encodeFrame topicGnssFix payload b.seq
  { b with
    prev := some (position.1, position.2.1, position.2.2, CFloat.lit now)
    seq := b.seq + 1
    sent := b.sent + 1
    ticking := .idle
    sends := b.sends ++ [⟨now, seen, fix, frame⟩] }

variable [PyInt F]

def bridgeStep (schema : Schema) (geo : Geodesy F) (args : Args F) (b : Bridge F) :
    BridgeEvent F → Option (Bridge F)
  | .arrive payload =>
      if b.decoding.isSome then none
      else some { b with arrived := b.arrived + 1, decoding := some payload }
  | .take now => b.decoding.map fun payload => b.take schema args payload now
  | .covariance data now =>
      match data.bind (decodeCovariance geo args.instance?) with
      | none => some b
      | some accuracy => some { b with accuracy := some accuracy, accuracyAt := CFloat.lit now }
  | .clock now =>
      match b.ticking with
      | .idle => if b.failed then none else some { b with ticking := .timed now }
      | _ => none
  | .look =>
      match b.ticking with
      | .timed now => some (b.look args now)
      | _ => none
  | .send later timeS written =>
      match b.ticking with
      | .holding now seen sample accuracy =>
          match sampleToFix geo args sample b.prev (micro (sub (CFloat.lit now) b.start))
            (CFloat.lit later) timeS accuracy with
          | none => some { b with ticking := .idle, failed := true }
          | some (fix, position) => some (b.sendFix args now seen fix position written)
      | _ => none

end Code

/-! ## What a send looked at -/

section Exact

variable {schema : Schema} {geo : Geodesy RatNan} {args : Args RatNan} {timeout : Rat}

theorem sub_rat (x y : Rat) : sub (RatNan.rat x) (.rat y) = .rat (x - y) := by
  show RatNan.rat (x + -1 * y) = _
  congr 1
  ring

/-- Not lost, and no older than the limit. -/
def Stored.Fresh (timeout : Rat) (s : Stored RatNan) (now : Rat) : Prop :=
  s.sample.lost = false ∧ now - s.time ≤ timeout

/-- A fix has a position exactly if the sample is fresh; else it says so, and saturates
both accuracies. -/
structure Honest (timeout : Rat) (s : Stored RatNan) (send : Send) : Prop where
  position : s.Fresh timeout send.now → send.fix.fixType = fix3d
  none : ¬ s.Fresh timeout send.now → send.fix.fixType = noFix ∧
    send.fix.horizontalAccuracyMm = 65535 ∧ send.fix.verticalAccuracyMm = 65535

/-- A tick that holds a sample has it of the newest one there was. -/
def Held (timeout : Rat) (stored : List (Stored RatNan)) : Ticking RatNan → Prop
  | .holding now seen sample _ =>
      ∃ s, (stored.take seen).getLast? = some s ∧
        (s.Fresh timeout now → sample.lost = false) ∧ (¬ s.Fresh timeout now → sample.lost = true)
  | _ => True

/-- What a send was made of, and its frame if there is one. -/
structure Sent (timeout : Rat) (stored : List (Stored RatNan)) (k : Nat) (send : Send) :
    Prop where
  honest : ∃ s, (stored.take send.seen).getLast? = some s ∧ Honest timeout s send
  frame : ∀ bytes, send.frame = some bytes →
    (∃ payload, send.fix.pack = some payload) ∧ bytes = (gnssFrame k send.fix).wire 0

/-- What was taken in later is not what somebody looked at. -/
theorem take_getLast?_append {stored later : List (Stored RatNan)} {seen : Nat} {s : Stored RatNan}
    (hseen : seen ≤ stored.length) (h : (stored.take seen).getLast? = some s) :
    ((stored ++ later).take seen).getLast? = some s := by
  rw [List.take_append_of_le_length hseen]
  exact h

theorem agedSample_lost (htimeout : args.timeout = .rat timeout) (s : Stored RatNan) (now : Rat)
    (accuracy : Option (RatNan × RatNan)) :
    let aged := (agedSample args s.sample (sub (.rat now) (.rat s.time)) accuracy).1
    (s.Fresh timeout now → aged.lost = false) ∧ (¬ s.Fresh timeout now → aged.lost = true) := by
  intro aged
  have hage : CFloat.lt args.timeout (sub (.rat now) (.rat s.time))
      = decide (timeout < now - s.time) := by
    rw [htimeout, sub_rat]
    rfl
  by_cases hold : timeout < now - s.time
  · have hlost : aged.lost = true := by
      simp only [aged, agedSample, hage, hold, decide_true, if_true]
    exact ⟨fun hfresh => absurd hfresh.2 (not_le.mpr hold), fun _ => hlost⟩
  · have hsame : aged = s.sample := by
      simp only [aged, agedSample, hage, hold, decide_false, Bool.false_eq_true, if_false]
    rw [hsame]
    refine ⟨fun hfresh => hfresh.1, fun hstale => ?_⟩
    by_contra hlost
    exact hstale ⟨Bool.eq_false_iff.mpr hlost, not_lt.mp hold⟩

theorem sampleToFix_lost {sample : PoseSample RatNan} {prev : Option (RatNan × RatNan × RatNan × RatNan)}
    {bootUs later timeS : RatNan} {accuracy : Option (RatNan × RatNan)} {fix : GnssFix}
    {position : RatNan × RatNan × RatNan}
    (h : sampleToFix geo args sample prev bootUs later timeS accuracy = some (fix, position)) :
    (sample.lost = false → fix.fixType = fix3d) ∧
      (sample.lost = true → fix.fixType = noFix ∧ fix.horizontalAccuracyMm = 65535 ∧
        fix.verticalAccuracyMm = 65535) := by
  obtain ⟨htype, hhacc, hvacc⟩ := sampleToFix_trust h
  refine ⟨fun hlost => ?_, fun hlost => ?_⟩
  · rw [htype, trustOf, if_neg (by simp [hlost])]
    cases hdegraded : sample.degraded <;> simp
  · have htrust : trustOf args sample accuracy = ⟨noFix, accuracyUnusableM, accuracyUnusableM⟩ := by
      rw [trustOf, if_pos hlost]
    rw [htrust, saturateU16_unusable, Option.some.injEq] at hhacc hvacc
    rw [htype, htrust]
    exact ⟨rfl, hhacc.symm, hvacc.symm⟩

/-! ## Runs -/

structure BridgeInv (schema : Schema) (args : Args RatNan) (timeout : Rat) (b : Bridge RatNan) :
    Prop where
  account : b.arrived = b.received + b.dropped + b.decodeErrors + b.decoding.toList.length
  received : b.stored.length = b.received
  stored : ∀ s ∈ b.stored, decode schema args s.payload = some (some s.sample)
  newest : ∀ sample, b.sample = some sample →
    ∃ s, b.stored.getLast? = some s ∧ s.sample = sample ∧ b.sampleAt = .rat s.time
  held : Held timeout b.stored b.ticking
  seen : ∀ now seen sample accuracy, b.ticking = .holding now seen sample accuracy →
    seen ≤ b.stored.length
  seq : b.seq = UInt8.ofNat b.sends.length
  sent : b.sent = b.sends.length
  looked : ∀ send ∈ b.sends, send.seen ≤ b.stored.length
  sends : ∀ k send, b.sends[k]? = some send → Sent timeout b.stored k send

theorem Bridge.new_inv (start : Rat) : BridgeInv schema args timeout (Bridge.new start) where
  account := rfl
  received := rfl
  stored := fun _ h => by cases h
  newest := fun _ h => by cases h
  held := trivial
  seen := fun _ _ _ _ h => by cases h
  seq := rfl
  sent := rfl
  looked := fun _ h => by cases h
  sends := fun _ _ h => by cases h

/-- More samples leave what was seen as it was. -/
theorem Held.mono {stored : List (Stored RatNan)} {ticking : Ticking RatNan}
    (h : Held timeout stored ticking)
    (hseen : ∀ now seen sample accuracy, ticking = .holding now seen sample accuracy →
      seen ≤ stored.length) (later : List (Stored RatNan)) :
    Held timeout (stored ++ later) ticking := by
  cases ticking with
  | idle => trivial
  | timed now => trivial
  | holding now seen sample accuracy =>
      obtain ⟨s, hs, hlost⟩ := h
      exact ⟨s, take_getLast?_append (hseen _ _ _ _ rfl) hs, hlost⟩

theorem Sent.mono {stored : List (Stored RatNan)} {k : Nat} {send : Send}
    (h : Sent timeout stored k send) (hseen : send.seen ≤ stored.length)
    (later : List (Stored RatNan)) : Sent timeout (stored ++ later) k send where
  honest := by
    obtain ⟨s, hs, hhonest⟩ := h.honest
    exact ⟨s, take_getLast?_append hseen hs, hhonest⟩
  frame := h.frame

theorem BridgeInv.take {b : Bridge RatNan} (h : BridgeInv schema args timeout b)
    {payload : Payload RatNan} (hdecoding : b.decoding = some payload) (now : Rat) :
    BridgeInv schema args timeout (b.take schema args payload now) := by
  have haccount : b.arrived = b.received + b.dropped + b.decodeErrors + 1 := by
    rw [h.account, hdecoding]
    rfl
  unfold Bridge.take
  cases hdecode : decode schema args payload with
  | none =>
      exact { h with account := by rw [haccount]; simp only [Option.toList_none, List.length_nil]; omega }
  | some decoded =>
      cases decoded with
      | none =>
          exact { h with
            account := by rw [haccount]; simp only [Option.toList_none, List.length_nil]; omega }
      | some sample =>
          refine ⟨?_, ?_, ?_, ?_, h.held.mono h.seen _, ?_, h.seq, h.sent, ?_, ?_⟩
          · rw [haccount]
            simp only [Option.toList_none, List.length_nil]
            omega
          · rw [List.length_append, h.received]
            rfl
          · intro s hs
            rcases List.mem_append.mp hs with hs | hs
            · exact h.stored s hs
            · rw [List.mem_singleton.mp hs]
              exact hdecode
          · intro sample' hsample
            cases hsample
            exact ⟨⟨payload, sample, now⟩, List.getLast?_concat, rfl, rfl⟩
          · intro now' seen sample' accuracy hticking
            rw [List.length_append]
            exact Nat.le_add_right_of_le (h.seen _ _ _ _ hticking)
          · intro send hsend
            rw [List.length_append]
            exact Nat.le_add_right_of_le (h.looked send hsend)
          · intro k send hsend
            exact (h.sends k send hsend).mono (h.looked send (List.mem_of_getElem? hsend)) _

theorem BridgeInv.look {b : Bridge RatNan} (h : BridgeInv schema args timeout b)
    (htimeout : args.timeout = .rat timeout) (now : Rat) :
    BridgeInv schema args timeout (b.look args now) := by
  unfold Bridge.look
  cases hsample : b.sample with
  | none =>
      exact { h with
        newest := fun sample' hsample' => h.newest sample' (hsample.trans hsample')
        held := trivial
        seen := fun _ _ _ _ hticking => by cases hticking }
  | some sample =>
      obtain ⟨s, hlast, hsame, hat⟩ := h.newest sample hsample
      refine { h with newest := ?_, held := ?_, seen := ?_ }
      · intro sample' hsample'
        exact h.newest sample' (hsample.trans hsample')
      · refine ⟨s, ?_, ?_⟩
        · rw [List.take_length]
          exact hlast
        · rw [← hsame, hat]
          exact agedSample_lost htimeout s now _
      · intro now' seen sample' accuracy hticking
        cases hticking
        exact Nat.le_refl _

theorem BridgeInv.sendFix {b : Bridge RatNan} (h : BridgeInv schema args timeout b) {now : Rat}
    {seen : Nat} {sample : PoseSample RatNan} {accuracy : Option (RatNan × RatNan)}
    (hticking : b.ticking = .holding now seen sample accuracy) {bootUs later timeS : RatNan}
    {fix : GnssFix} {position : RatNan × RatNan × RatNan}
    (hfix : sampleToFix geo args sample b.prev bootUs later timeS accuracy = some (fix, position))
    (written : Bool) :
    BridgeInv schema args timeout (b.sendFix args now seen fix position written) := by
  have hheld := h.held
  rw [hticking] at hheld
  obtain ⟨s, hs, hfresh, hstale⟩ := hheld
  obtain ⟨htold, hlost⟩ := sampleToFix_lost hfix
  unfold Bridge.sendFix
  refine { h with held := trivial, seen := ?_, seq := ?_, sent := ?_, looked := ?_, sends := ?_ }
  · intro now' seen' sample' accuracy' hidle
    cases hidle
  · show b.seq + 1 = _
    rw [h.seq, List.length_append, UInt8.ofNat_add]
    rfl
  · rw [List.length_append, ← h.sent]
    rfl
  · intro send hsend
    rcases List.mem_append.mp hsend with hsend | hsend
    · exact h.looked send hsend
    · rw [List.mem_singleton.mp hsend]
      exact h.seen now seen sample accuracy hticking
  · refine Guarded.history_concat h.sends ⟨⟨s, hs, ?_, ?_⟩, ?_⟩
    · intro hf
      exact htold (hfresh hf)
    · intro hf
      exact hlost (hstale hf)
    · intro bytes hbytes
      dsimp only at hbytes ⊢
      split at hbytes
      · cases hbytes
      · obtain ⟨payload, hpayload, hframe⟩ := Option.bind_eq_some_iff.mp hbytes
        refine ⟨⟨payload, hpayload⟩, ?_⟩
        have hwire := encodeFrame_eq_wire (Nat.le_refl 512)
          (gnssFrame_valid hpayload (by decide) b.sends.length)
        rw [gnssFrame, hpayload, Option.getD_some, ← h.seq, hframe] at hwire
        rw [gnssFrame, hpayload, Option.getD_some, ← h.seq]
        exact Option.some.inj hwire

theorem bridgeStep_inv (htimeout : args.timeout = .rat timeout) (b : Bridge RatNan)
    (e : BridgeEvent RatNan) (t : Bridge RatNan) (h : BridgeInv schema args timeout b)
    (hstep : bridgeStep schema geo args b e = some t) : BridgeInv schema args timeout t := by
  cases e with
  | arrive payload =>
      rw [bridgeStep] at hstep
      split at hstep
      · cases hstep
      · rename_i hfree
        cases hstep
        rw [Option.not_isSome_iff_eq_none] at hfree
        refine { h with account := ?_ }
        rw [h.account, hfree]
        rfl
  | take now =>
      obtain ⟨payload, hdecoding, rfl⟩ := Option.map_eq_some_iff.mp hstep
      exact h.take hdecoding now
  | covariance data now =>
      rw [bridgeStep] at hstep
      split at hstep
      · cases hstep
        exact h
      · cases hstep
        exact { h with }
  | clock now =>
      rw [bridgeStep] at hstep
      split at hstep
      · split at hstep
        · cases hstep
        · cases hstep
          exact { h with held := trivial, seen := fun _ _ _ _ hticking => by cases hticking }
      · cases hstep
  | look =>
      rw [bridgeStep] at hstep
      split at hstep
      · cases hstep
        exact h.look htimeout _
      · cases hstep
  | send later timeS written =>
      rw [bridgeStep] at hstep
      split at hstep
      · rename_i hticking
        split at hstep
        · cases hstep
          exact { h with held := trivial, seen := fun _ _ _ _ hticking => by cases hticking }
        · rename_i hfix
          cases hstep
          exact h.sendFix hticking hfix written
      · cases hstep

/-! ## Into the vehicle -/

/-- What the radio got of a send. -/
def Bridge.written {F : Type} (b : Bridge F) (k : Nat) : List UInt8 :=
  ((b.sends[k]?).bind Send.frame).getD []

/-- What a fix in the vehicle goes back to: a sample that was the newest one when the bridge
looked, whose producer vouches for it, if the fix has a position. -/
structure Certified (schema : Schema) (args : Args RatNan) (timeout : Rat)
    (stored : List (Stored RatNan)) (send : Send) (s : Stored RatNan) : Prop where
  newest : (stored.take send.seen).getLast? = some s
  decoded : decode schema args s.payload = some (some s.sample)
  honest : Honest timeout s send
  tracked : send.fix.fixType = fix3d → Tracked schema args.ignoreFlags s.payload

theorem BridgeInv.certified {b : Bridge RatNan} (h : BridgeInv schema args timeout b) {k : Nat}
    {send : Send} (hsend : b.sends[k]? = some send) :
    ∃ s, Certified schema args timeout b.stored send s := by
  obtain ⟨s, hs, hhonest⟩ := (h.sends k send hsend).honest
  have hdecoded := h.stored s (List.mem_of_mem_take (List.mem_of_getLast? hs))
  refine ⟨s, hs, hdecoded, hhonest, fun hfix => ?_⟩
  by_cases hfresh : s.Fresh timeout send.now
  · exact decode_tracked hdecoded hfresh.1
  · have hno := (hhonest.none hfresh).1
    rw [hfix] at hno
    exact absurd hno (by decide)

/-- In exact arithmetic, over every run of the threads of the bridge, in any order, with
whatever is published, whatever the clock is found to be, and whichever writes fail: of the
frames that were written whole and came through, the vehicle publishes each fix once and
in order, as it was sent, and counts the places where the numbers do not go on. A
published fix has a position if and only if the newest sample when the bridge looked was
not called lost and no older than the limit, and then its producer had vouched for it; else
it says that there is none, with both accuracies saturated. -/
theorem bridged_fixes_published (schema : Schema) (geo : Geodesy RatNan) (args : Args RatNan)
    (timeout : Rat) (htimeout : args.timeout = .rat timeout) (cfg : SerialConfig)
    (entry : SerialTopic) (hcarries : CarriesGnss cfg entry) (hok : ∀ n, cfg.pubUpdate n = 0)
    (start : Rat) (events : List (BridgeEvent RatNan)) (b : Bridge RatNan)
    (hrun : Guarded.run (bridgeStep schema geo args) (Bridge.new start) events = some b)
    (arrived : List Nat) (horder : arrived.Pairwise (· < ·))
    (hwritten : ∀ k ∈ arrived, ∃ send ∈ b.sends[k]?, send.frame.isSome = true) :
    let link := (rxFeed cfg (rxInit cfg) (arrived.flatMap b.written)).link
    let gaps := breaks (fun i j => j % 256 = (i + 1) % 256) arrived
    link.log.published.map (fun p => (p.entry, GnssFix.unpack p.msg))
        = arrived.map (fun k => (entry, b.sends[k]?.map Send.fix)) ∧
      link.stats = { rxFrames := UInt32.ofNat arrived.length, rxSeqGaps := UInt32.ofNat gaps } ∧
      gaps + arrived.length ≤ b.sent ∧
      ∀ k ∈ arrived, ∃ send ∈ b.sends[k]?, ∃ s, Certified schema args timeout b.stored send s := by
  intro link gaps
  have hnew : BridgeInv schema args timeout (Bridge.new start) := Bridge.new_inv start
  have hinv := Guarded.run_inv (bridgeStep schema geo args) (bridgeStep_inv htimeout) hnew hrun
  let fix : Nat → GnssFix := fun k => (b.sends[k]?.map Send.fix).getD {}
  have hsent (k : Nat) (hk : k ∈ arrived) : b.sends[k]?.map Send.fix = some (fix k) ∧
      (∃ payload, (fix k).pack = some payload) ∧ b.written k = (gnssFrame k (fix k)).wire 0 := by
    obtain ⟨send, hsend, hframe⟩ := hwritten k hk
    obtain ⟨bytes, hbytes⟩ := Option.isSome_iff_exists.mp hframe
    obtain ⟨hpack, hwire⟩ := (hinv.sends k send hsend).frame bytes hbytes
    have hfix : fix k = send.fix := by
      simp only [fix, Option.mem_def.mp hsend, Option.map_some, Option.getD_some]
    refine ⟨?_, ?_, ?_⟩
    · rw [hfix, Option.mem_def.mp hsend, Option.map_some]
    · rw [hfix]
      exact hpack
    · rw [hfix, Bridge.written, Option.mem_def.mp hsend, Option.bind_some, hbytes, ← hwire,
        Option.getD_some]
  have hbytes : arrived.flatMap b.written
      = arrived.flatMap fun k => (gnssFrame k (fix k)).wire 0 :=
    List.flatMap_congr fun k hk => (hsent k hk).2.2
  obtain ⟨hpublished, hstats⟩ :=
    gnssFrames_published hcarries hok fix arrived fun k hk => (hsent k hk).2.1
  rw [← hbytes] at hpublished hstats
  refine ⟨?_, hstats, ?_, ?_⟩
  · rw [hpublished]
    exact List.map_congr_left fun k hk => by rw [(hsent k hk).1]
  · rw [hinv.sent]
    refine gaps_add_length_le horder fun k hk => ?_
    obtain ⟨send, hsend, -⟩ := hwritten k hk
    exact (List.getElem?_eq_some_iff.mp hsend).1
  · intro k hk
    obtain ⟨send, hsend, -⟩ := hwritten k hk
    exact ⟨send, hsend, hinv.certified hsend⟩

/-! ## A source that falls silent -/

def benchSchema : Schema where
  positionValid := 1
  attitudeValid := 2
  linearVelocityValid := 4
  lost := 128
  extrapolated := 16
  outlierRejected := 32
  degraded := 64
  statusLost := 6
  statusDegraded := [2, 3, 4, 5]
  bodyValid := 1

/-- On the equator, where a degree is a degree. -/
def benchGeodesy : Geodesy RatNan where
  enuToGeodetic := fun east north up lat0 lon0 alt0 =>
    some (CFloat.add lat0 north, CFloat.add lon0 east, CFloat.add alt0 up)
  quaternionToYaw := fun _ _ _ _ => .rat 0
  rotate2d := fun x y _ => (x, y)
  hypot := fun x _ => x
  course := fun _ _ => .rat 0
  mod360 := id
  sqrt := id

def benchArgs : Args RatNan where
  instance? := none
  ignoreFlags := false
  dryRun := false
  timeout := .rat (1 / 2)
  originLat := .rat 0
  originLon := .rat 0
  originAlt := .rat 0
  yawOffset := .rat 0
  headingOffset := .rat 0
  publishYaw := false
  hacc := .rat (5 / 100)
  vacc := .rat (8 / 100)
  degradedScale := .rat 4
  hdop := .rat (3 / 10)
  vdop := .rat (4 / 10)
  satellites := 14
  gnssInstance := 0

/-- One pose is published; the first send is in time for it, the second fails, and by the
third the pose is old. -/
def benchSilence : List (BridgeEvent RatNan) :=
  [.arrive (.externalPose ⟨0, 3, ⟨.rat 1, .rat 2, .rat 3⟩, (.rat 1, .rat 0, .rat 0, .rat 0),
      ⟨.rat 0, .rat 0, .rat 0⟩, 5, 1⟩),
    .take (1 / 10), .clock (2 / 10), .look, .send (2 / 10) (.rat 100) true,
    .clock (3 / 10), .look, .send (3 / 10) (.rat 100) false,
    .clock 1, .look, .send 1 (.rat 101) true]

def benchFix : GnssFix where
  timestampUs := 200000
  timeUnixUs := 100000000
  latitudeDegE7 := 20000000
  longitudeDegE7 := 10000000
  altitudeMslMm := 3000
  altitudeEllipsoidMm := 3000
  horizontalAccuracyMm := 50
  verticalAccuracyMm := 80
  velocityAccuracyMmS := 100
  hdopCenti := 30
  vdopCenti := 40
  flags := 9
  satellitesUsed := 14
  satellitesVisible := 14

def benchNoFix : GnssFix :=
  { benchFix with
    timestampUs := 1000000
    timeUnixUs := 101000000
    horizontalAccuracyMm := 65535
    verticalAccuracyMm := 65535
    fixType := 0 }

theorem bridged_fixes_published_silence :
    let gnss : SerialTopic := ⟨"gnss", true, true, true, 8, 64⟩
    ∃ b, Guarded.run (bridgeStep benchSchema benchGeodesy benchArgs) (Bridge.new 0) benchSilence
        = some b ∧
      let link := (rxFeed .mocap (rxInit .mocap) ([0, 2].flatMap b.written)).link
      link.log.published.map (fun p => (p.entry, GnssFix.unpack p.msg))
          = [(gnss, some benchFix), (gnss, some benchNoFix)] ∧
        link.stats = { rxFrames := 2, rxSeqGaps := 1 } := by
  intro gnss
  obtain ⟨b, hb, hwritten, hfix, hnoFix⟩ : ∃ b,
      Guarded.run (bridgeStep benchSchema benchGeodesy benchArgs) (Bridge.new 0) benchSilence
        = some b ∧ (∀ k ∈ [0, 2], ∃ send ∈ b.sends[k]?, send.frame.isSome = true) ∧
        b.sends[0]?.map Send.fix = some benchFix ∧ b.sends[2]?.map Send.fix = some benchNoFix :=
    Guarded.run_any _ (by decide +kernel)
  obtain ⟨hpublished, hstats, -⟩ := bridged_fixes_published benchSchema benchGeodesy benchArgs
    (1 / 2) rfl .mocap gnss ⟨by decide, rfl, rfl, rfl, by decide⟩ (fun _ => rfl) 0 benchSilence b hb
    [0, 2] (by decide) hwritten
  refine ⟨b, hb, ?_, hstats⟩
  rw [hpublished, List.map_cons, List.map_singleton, hfix, hnoFix]

end Exact

end Rdd2.GpsBridge
