import Mathlib.Data.List.Basic
import Mathlib.Data.List.ReduceOption
import Rdd2.FlightSystem

/-!
# RC by manual control message

In lockstep there is no receiver: `rdd2_lockstep_handle_manual_control` reports the
channels of a message as input events of the RC device, one event a channel, and only the
last of them makes `rc_input_cb` publish. The channels of a snapshot have thus come
through eighteen events, a staging area that is never cleared, and a sequence lock.

`cycle_flies_one_message`: none of this mixes messages. A cycle that calls its channels
valid has all sixteen of them from one message that was sent as valid.
-/

/-! ## Blocks that end themselves

A stream of blocks of which the last element, and no other, is an end mark. Whoever
reads a piece of the stream up to some end mark has read whole blocks
(`prefix_flatMap`). -/

namespace Delimited

variable {A B : Type*} {ends : A → Prop}

/-- The last element of the block is an end mark, and no other is. -/
def IsBlock (ends : A → Prop) (block : List A) : Prop :=
  ∃ body last, block = body ++ [last] ∧ ends last ∧ ∀ a ∈ body, ¬ ends a

/-- A piece that begins where the block does, and stops at an end mark, has the block. -/
theorem IsBlock.begins {block front rest : List A} {last : A} (hblock : IsBlock ends block)
    (hlast : ends last) (hpiece : front ++ [last] <+: block ++ rest) :
    block <+: front ++ [last] := by
  obtain ⟨body, mark, rfl, _, hbody⟩ := hblock
  rcases List.prefix_or_prefix_of_prefix hpiece (List.prefix_append _ rest) with hshort | hlong
  · rcases List.prefix_concat_iff.mp hshort with hwhole | hinside
    · exact hwhole ▸ List.prefix_rfl
    · have hmem : last ∈ body := hinside.subset (List.mem_append_right _ (List.mem_singleton_self _))
      exact absurd hlast (hbody last hmem)
  · exact hlong

/-- A piece of the stream that stops at an end mark is a run of whole blocks. -/
theorem prefix_flatMap {f : B → List A} (hf : ∀ b, IsBlock ends (f b)) {bs : List B}
    {front : List A} {last : A} (hlast : ends last) (hpiece : front ++ [last] <+: bs.flatMap f) :
    ∃ done b later, bs = done ++ b :: later ∧ front ++ [last] = (done ++ [b]).flatMap f := by
  induction bs generalizing front with
  | nil =>
      rw [List.flatMap_nil, List.prefix_nil] at hpiece
      exact absurd hpiece (List.concat_ne_nil last front)
  | cons b bs ih =>
      rw [List.flatMap_cons] at hpiece
      obtain ⟨rest, hrest⟩ := (hf b).begins hlast hpiece
      rcases List.eq_nil_or_concat rest with rfl | ⟨front', last', rfl⟩
      · refine ⟨[], b, bs, rfl, ?_⟩
        rw [← hrest]
        simp
      · rw [List.concat_eq_append, ← List.append_assoc] at hrest
        obtain ⟨rfl, hsame⟩ := List.append_inj' hrest rfl
        cases hsame
        rw [List.append_assoc, List.prefix_append_right_inj] at hpiece
        obtain ⟨done, c, later, rfl, heq⟩ := ih hpiece
        exact ⟨b :: done, c, later, rfl, by
          rw [List.cons_append, List.flatMap_cons, ← heq, List.append_assoc]⟩

end Delimited

namespace Rdd2

open Delimited

/-! ## Messages -/

/-- `struct csyn_manual_control`, which is not in this repository: `data` is what
`csyn_rc_channels_data` points to, and `ch4` and `ch6` are read by name. -/
structure ManualControl where
  valid : Bool
  data : Fin 16 → Int
  ch4 : Int
  ch6 : Int

/-- The channels as the controller numbers them: arm switch and mode change places. -/
def manualChannels (manual : ManualControl) : RcChannels :=
  Function.update (Function.update manual.data rcArmIndex manual.ch6) flightModeChannelIndex
    manual.ch4

def channelEvent (rc : RcChannels) (i : Fin 16) : InputEvent :=
  ⟨false, inputEvAbs, i.val + 1, rc i⟩

/-- The events of `lockstep_report_rc_input`; `ready` is `device_is_ready`. -/
def lockstepReportRcInput (ready : Bool) (rc : RcChannels) (rcLinkQuality : Int)
    (rcValid : Bool) : List InputEvent :=
  if ready then
    (List.finRange 16).map (channelEvent rc) ++
      [⟨false, inputEvMsc, rcInputEventLinkQuality, rcLinkQuality⟩,
        ⟨true, inputEvMsc, rcInputEventValid, if rcValid then 1 else 0⟩]
  else []

/-- The answer of `rdd2_lockstep_handle_manual_control`, and the events it reports. -/
def handleManualControl (ready : Bool) : Option ManualControl → Bool × List InputEvent
  | none => (false, [])
  | some manual =>
      (true, lockstepReportRcInput ready (manualChannels manual)
        (if manual.valid then 100 else 0) manual.valid)

/-! ## What a message leaves staged -/

theorem stageEvent_channel (p : RcChannels × Bool) (rc : RcChannels) (i : Fin 16) :
    stageEvent p (channelEvent rc i) = (Function.update p.1 i (rc i), true) := by
  rw [stageEvent, dif_pos ⟨rfl, Nat.succ_le_succ (Nat.zero_le _), i.isLt⟩]
  rfl

theorem foldl_channels (rc : RcChannels) (is : List (Fin 16)) (p : RcChannels × Bool)
    (j : Fin 16) :
    (j ∈ is → ((is.map (channelEvent rc)).foldl stageEvent p).1 j = rc j) ∧
      (j ∉ is → ((is.map (channelEvent rc)).foldl stageEvent p).1 j = p.1 j) := by
  induction is generalizing p with
  | nil => exact ⟨fun h => absurd h List.not_mem_nil, fun _ => rfl⟩
  | cons i is ih =>
      rw [List.map_cons, List.foldl_cons, stageEvent_channel]
      obtain ⟨hin, hout⟩ := ih (Function.update p.1 i (rc i), true)
      constructor
      · intro hj
        by_cases hlater : j ∈ is
        · exact hin hlater
        · rcases List.mem_cons.mp hj with rfl | hj
          · rw [hout hlater]
            exact Function.update_self ..
          · exact absurd hj hlater
      · intro hj
        rw [List.mem_cons, not_or] at hj
        rw [hout hj.2]
        exact Function.update_of_ne hj.1 ..

/-- Whatever was staged before, a message leaves its own channels and validity. -/
theorem foldl_report (rc : RcChannels) (rcLinkQuality : Int) (rcValid : Bool)
    (p : RcChannels × Bool) :
    (lockstepReportRcInput true rc rcLinkQuality rcValid).foldl stageEvent p = (rc, rcValid) := by
  rw [lockstepReportRcInput, if_pos rfl, List.foldl_append]
  have hchannels : (((List.finRange 16).map (channelEvent rc)).foldl stageEvent p).1 = rc := by
    funext j
    exact (foldl_channels rc _ p j).1 (List.mem_finRange j)
  have hquality (q : RcChannels × Bool) :
      stageEvent q ⟨false, inputEvMsc, rcInputEventLinkQuality, rcLinkQuality⟩ = q := by
    rw [stageEvent, dif_neg (by simp [inputEvMsc, inputEvAbs]), if_pos ⟨rfl, rfl⟩]
  have hvalid (q : RcChannels × Bool) (v : Int) :
      stageEvent q ⟨true, inputEvMsc, rcInputEventValid, v⟩ = (q.1, decide (v ≠ 0)) := by
    rw [stageEvent, dif_neg (by simp [inputEvMsc, inputEvAbs]),
      if_neg (by simp [rcInputEventValid, rcInputEventLinkQuality]), if_pos ⟨rfl, rfl⟩]
  rw [List.foldl_cons, List.foldl_cons, List.foldl_nil, hquality, hvalid, hchannels]
  cases rcValid <;> rfl

/-- Only the last event of a message makes the callback publish. -/
theorem report_isBlock (rc : RcChannels) (rcLinkQuality : Int) (rcValid : Bool) :
    IsBlock (fun evt : InputEvent => evt.sync = true)
      (lockstepReportRcInput true rc rcLinkQuality rcValid) := by
  refine ⟨(List.finRange 16).map (channelEvent rc) ++
    [⟨false, inputEvMsc, rcInputEventLinkQuality, rcLinkQuality⟩],
    ⟨true, inputEvMsc, rcInputEventValid, if rcValid then 1 else 0⟩, ?_, rfl, ?_⟩
  · rw [lockstepReportRcInput, if_pos rfl, List.append_assoc]
    rfl
  · intro evt hevt
    rcases List.mem_append.mp hevt with hchannel | hquality
    · obtain ⟨i, _, rfl⟩ := List.mem_map.mp hchannel
      exact Bool.false_ne_true
    · rw [List.mem_singleton.mp hquality]
      exact Bool.false_ne_true

/-! ## Streams of messages -/

def manualEvents (manual : ManualControl) : List InputEvent :=
  (handleManualControl true (some manual)).2

/-- A missing message, and one for a device that is not ready, report nothing. -/
theorem flatMap_handleManualControl (calls : List (Option ManualControl)) :
    calls.flatMap (fun call => (handleManualControl true call).2)
      = calls.reduceOption.flatMap manualEvents := by
  induction calls with
  | nil => rfl
  | cons call calls ih =>
      cases call with
      | none => rw [List.flatMap_cons, List.reduceOption_cons_of_none, ih]; rfl
      | some manual =>
          rw [List.flatMap_cons, List.reduceOption_cons_of_some, List.flatMap_cons, ih]
          rfl

theorem flatMap_handleManualControl_false (calls : List (Option ManualControl)) :
    calls.flatMap (fun call => (handleManualControl false call).2) = [] := by
  rw [List.flatMap_eq_nil_iff]
  intro call _
  cases call <;> rfl

theorem staged_messages (done : List ManualControl) (manual : ManualControl) :
    staged ((done ++ [manual]).flatMap manualEvents) = (manualChannels manual, manual.valid) := by
  rw [staged, List.flatMap_append, List.foldl_append, List.flatMap_singleton]
  exact foldl_report ..

/-- An update that belongs to a sync event of the stream ends with a message. -/
theorem RcUpdate.Synced.whole {u : RcUpdate} {seen : List InputEvent} (h : u.Synced seen)
    {ready : Bool} {calls : List (Option ManualControl)}
    (hcalls : seen <+: calls.flatMap fun call => (handleManualControl ready call).2) :
    ∃ done manual later, calls.reduceOption = done ++ manual :: later ∧
      u.seen = (done ++ [manual]).flatMap manualEvents := by
  obtain ⟨hseen, before, evt, hlast, hsync⟩ := h
  have hpiece := hlast ▸ hseen.trans hcalls
  cases ready with
  | false =>
      rw [flatMap_handleManualControl_false, List.prefix_nil] at hpiece
      exact absurd hpiece (List.concat_ne_nil evt before)
  | true =>
      rw [flatMap_handleManualControl] at hpiece
      rw [hlast]
      exact prefix_flatMap (fun _ => report_isBlock ..) hsync hpiece

/-! ## Runs -/

section Runs

variable {D R E : Type} [CFloat D] [CDouble RatNan D]

/-- The input of a cycle is the message of a call, in full, and nothing else. -/
structure FliesMessage (calls : List (Option ManualControl)) (updates : List RcUpdate)
    (input : CycleInput RatNan) (manual : ManualControl) : Prop where
  called : some manual ∈ calls
  valid : manual.valid = true
  rc : input.rc = manualChannels manual
  /-- The update was published at the last event of the message, with that time. -/
  update : ∃ done later, calls.reduceOption = done ++ manual :: later ∧
    ⟨(done ++ [manual]).flatMap manualEvents, input.rcStampMs⟩ ∈ updates

/-- In every run of callbacks, snapshots, orders for the motor tests and cycles, in any
order that can happen, in which the snapshot meets no hazard and the events of the RC
device are those of calls of `rdd2_lockstep_handle_manual_control`, be the last of them
half reported: every cycle that has called its RC channels valid has flown one message,
sent as valid; its sixteen channels are that message's, and its time stamp that of its
last event. -/
theorem cycle_flies_one_message (gen : Generated D R E) (board : Board) (rcPubReady ready : Bool)
    (events : List (FlightEvent RatNan)) (s : FlightSystem RatNan D R E)
    (hok : Guarded.Ok (flightStep gen board) FlightStepOk (bootSystem gen rcPubReady) events)
    (hrun : Guarded.run (flightStep gen board) (bootSystem gen rcPubReady) events = some s)
    (calls : List (Option ManualControl))
    (hcalls : s.seen <+: calls.flatMap fun call => (handleManualControl ready call).2)
    (input : CycleInput RatNan) (hinput : input ∈ s.cycles) (hvalid : input.rcValid = true) :
    ∃ manual, FliesMessage calls s.updates input manual := by
  have hinv := Guarded.ok_keeps (flightStep gen board) (flightStep_inv gen board)
    (bootSystem_inv gen board rcPubReady) hok hrun
  obtain ⟨u, hu, hrc, hstaged, hstamp⟩ := hinv.cycles input hinput hvalid
  obtain ⟨done, manual, later, hsplit, hseen⟩ := (hinv.history.updates u hu).whole hcalls
  rw [hseen, staged_messages] at hrc hstaged
  refine ⟨manual, ?_, hstaged, hrc, done, later, hsplit, ?_⟩
  · rw [← List.reduceOption_mem_iff, hsplit]
    exact List.mem_append_right _ List.mem_cons_self
  · rw [← hseen, hstamp]
    exact hu

end Runs

/-! ## One message -/

def benchManual : ManualControl := ⟨true, rcChannelsSetDefaults, 1000, 2000⟩

/-- The message is reported and published, a snapshot is taken, and a cycle flies it. -/
def benchMessage : List (FlightEvent RatNan) :=
  (manualEvents benchManual).map (fun evt => .rc (.event evt)) ++
    List.replicate 21 (.rc (.write 7)) ++
    [.rc (.call (rcSample (fun _ => 0) false 0))] ++ List.replicate 21 (.rc .read) ++
    [.cycle benchStillInput]

theorem cycle_flies_one_message_bench :
    ∃ (s : FlightSystem RatNan RatNan Unit Unit) (input : CycleInput RatNan)
      (manual : ManualControl), input ∈ s.cycles ∧
        FliesMessage [none, some benchManual] s.updates input manual := by
  obtain ⟨s, hs, hseen, hvalid⟩ : ∃ s, Guarded.run (flightStep idleGenerated benchBoard)
      (bootSystem idleGenerated true) benchMessage = some s ∧
        s.seen = manualEvents benchManual ∧ (s.cycles.any fun c => c.rcValid) = true :=
    Guarded.run_any _ (by decide +kernel)
  obtain ⟨input, hinput, hrc⟩ := List.any_eq_true.mp hvalid
  have hcalls : s.seen <+: [none, some benchManual].flatMap
      fun call => (handleManualControl true call).2 := hseen ▸ List.prefix_rfl
  obtain ⟨manual, hflies⟩ := cycle_flies_one_message idleGenerated benchBoard true true
    benchMessage s (by decide +kernel) hs [none, some benchManual] hcalls input hinput hrc
  exact ⟨s, input, manual, hinput, hflies⟩

end Rdd2
