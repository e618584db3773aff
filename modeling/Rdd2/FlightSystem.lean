import Rdd2.MainLoopArming
import Rdd2.MotorCommand
import Rdd2.RcInput

/-!
# The vehicle between its inputs

The control loop of `main()` together with what shares memory with it: the RC
callback that publishes channels under `g_rc_seq`, and whoever sets and clears the
motor tests of `motor_output.c`. A cycle reads the snapshot that
`rdd2_rc_input_latest_get` has returned and the tests as they stand; callbacks, steps of
the snapshot and orders for the tests come in between in any order.

`motors_move_only_when_told` is what the parts say together: a motor that gets a
throttle was set to it by a test that nobody cleared, or is flown armed, on the channels
of one RC update that is not stale, and has been since the throttle was low.
-/

namespace Rdd2

/-! ## Motor tests -/

/-- The calls of `motor_output.c` that change the tests. Nobody checks the index. -/
inductive TestOrder (F : Type) where
  | set (index : Fin 4) (value : F)
  | clear
  | rawSet (index : Fin 4) (value : UInt16)
  | rawSetAll (value : UInt16)
  | rawClear
  deriving DecidableEq, Repr

section Orders

variable {F : Type} [CFloat F]

def motorTestSet (test : MotorTest F) (index : Fin 4) (value : F) : MotorTest F where
  active := true
  values := Function.update test.values index (clampf value (CFloat.lit 0) (CFloat.lit 1))

variable (F) in
def motorTestClear : MotorTest F := ⟨false, fun _ => CFloat.lit 0⟩

def motorRawTestSet (test : MotorTest UInt16) (index : Fin 4) (value : UInt16) :
    MotorTest UInt16 :=
  ⟨true, Function.update test.values index value⟩

def motorRawTestSetAll (value : UInt16) : MotorTest UInt16 := ⟨true, fun _ => value⟩

def motorRawTestClear : MotorTest UInt16 := ⟨false, fun _ => dshotDisarmed⟩

def applyOrder (tests : MotorTest F × MotorTest UInt16) :
    TestOrder F → MotorTest F × MotorTest UInt16
  | .set index value => (motorTestSet tests.1 index value, tests.2)
  | .clear => (motorTestClear F, tests.2)
  | .rawSet index value => (tests.1, motorRawTestSet tests.2 index value)
  | .rawSetAll value => (tests.1, motorRawTestSetAll value)
  | .rawClear => (tests.1, motorRawTestClear)

end Orders

def TestOrder.sets {F : Type} (channel : Fin 4) : TestOrder F → Option F
  | .set index value => if index = channel then some value else none
  | _ => none

def TestOrder.clears {F : Type} : TestOrder F → Bool
  | .clear => true
  | _ => false

def TestOrder.rawSets {F : Type} (channel : Fin 4) : TestOrder F → Option UInt16
  | .rawSet index value => if index = channel then some value else none
  | .rawSetAll value => some value
  | _ => none

def TestOrder.rawClears {F : Type} : TestOrder F → Bool
  | .rawClear => true
  | _ => false

/-! ## RC updates -/

theorem rcChannel_lt {evt : InputEvent}
    (h : evt.type = inputEvAbs ∧ 1 ≤ evt.code ∧ evt.code ≤ 16) : evt.code - 1 < 16 := by
  omega

/-- What an event does to `g_rc_staging` and `g_rc_staging_valid`. -/
def stageEvent (p : RcChannels × Bool) (evt : InputEvent) : RcChannels × Bool :=
  if h : evt.type = inputEvAbs ∧ 1 ≤ evt.code ∧ evt.code ≤ 16 then
    (Function.update p.1 ⟨evt.code - 1, rcChannel_lt h⟩ evt.value, true)
  else if evt.type = inputEvMsc ∧ evt.code = rcInputEventLinkQuality then p
  else if evt.type = inputEvMsc ∧ evt.code = rcInputEventValid then (p.1, evt.value ≠ 0)
  else p

def staged (seen : List InputEvent) : RcChannels × Bool :=
  seen.foldl stageEvent (rcChannelsSetDefaults, false)

/-- An update of `g_rc_latest`: the events up to its own, and its time stamp. -/
structure RcUpdate where
  seen : List InputEvent
  uptimeMs : Int
  deriving DecidableEq, Repr

def RcUpdate.sample (u : RcUpdate) : RcSample :=
  rcSample (staged u.seen).1 (staged u.seen).2 u.uptimeMs

def RcAction.event? : RcAction → Option InputEvent
  | .event evt => some evt
  | _ => none

/-- The update whose time stamp an action stores. -/
def RcInput.update? (rc : RcInput) (seen : List InputEvent) : RcAction → Option RcUpdate
  | .write uptime => if rc.writer = .setStamp then some ⟨seen, uptime⟩ else none
  | _ => none

/-! ## The system -/

/-- The statics, and the history that no step reads: the events and updates of the RC
input, the orders for the tests, and the inputs of the cycles. -/
structure FlightSystem (F D R E : Type) where
  rc : RcInput
  tests : MotorTest F × MotorTest UInt16
  loop : Loop F D R E
  seen : List InputEvent
  updates : List RcUpdate
  orders : List (TestOrder F)
  cycles : List (CycleInput F)

inductive FlightEvent (F : Type) where
  | rc (action : RcAction)
  | order (order : TestOrder F)
  /-- The body of the loop, on the snapshot just returned; what it reads of the RC
  input and of the tests is not in `input` but in the system. -/
  | cycle (input : CycleInput F)

section System

variable {F D R E : Type} [CFloat F] [CFloat D] [CDouble F D]

/-- `main` before its loop. -/
def bootSystem (gen : Generated D R E) (rcPubReady : Bool) : FlightSystem F D R E where
  rc := rcInputInit rcPubReady
  tests := (motorTestClear F, motorRawTestClear)
  loop := bootLoop gen
  seen := []
  updates := []
  orders := []
  cycles := []

def FlightSystem.input (s : FlightSystem F D R E) (input : CycleInput F) : CycleInput F :=
  { input with
    rc := fun k => s.rc.reader.dest (.channel k)
    rcValid := s.rc.reader.dest .valid
    rcStampMs := s.rc.reader.dest .stampMs
    motorTest := s.tests.1
    motorRawTest := s.tests.2 }

def flightStep (gen : Generated D R E) (board : Board) (s : FlightSystem F D R E) :
    FlightEvent F → Option (FlightSystem F D R E)
  | .rc action =>
      (rcStep s.rc action).map fun rc =>
        { s with
          rc := rc
          seen := s.seen ++ action.event?.toList
          updates := s.updates ++ (s.rc.update? s.seen action).toList }
  | .order order =>
      some { s with tests := applyOrder s.tests order, orders := s.orders ++ [order] }
  | .cycle input =>
      if s.rc.reader.pc = .returned then
        some { s with
          rc := { s.rc with reader := { s.rc.reader with pc := .idle } }
          loop := (cycle gen board s.loop (s.input input)).1
          cycles := s.cycles ++ [s.input input] }
      else none

/-- The snapshot takes no step that goes wrong (`RcHazard`). -/
def FlightStepOk (s : FlightSystem F D R E) : FlightEvent F → Prop
  | .rc action => RcStepOk s.rc action
  | _ => True

instance (s : FlightSystem F D R E) : (e : FlightEvent F) → Decidable (FlightStepOk s e)
  | .rc action => inferInstanceAs (Decidable (RcStepOk s.rc action))
  | .order _ | .cycle _ => isTrue trivial

end System

/-! ## The last order for a channel -/

/-- One of the orders set `v`, and none since has set it again or cleared it. -/
def LastSet {O V : Type} (sets : O → Option V) (clears : O → Bool) (orders : List O) (v : V) :
    Prop :=
  ∃ before o after, orders = before ++ o :: after ∧ sets o = some v ∧
    ∀ p ∈ after, sets p = none ∧ clears p = false

section LastSet

variable {O V : Type} {sets : O → Option V} {clears : O → Bool} {orders : List O} {v : V}

theorem LastSet.of_concat {o : O} (h : sets o = some v) :
    LastSet sets clears (orders ++ [o]) v :=
  ⟨orders, o, [], rfl, h, fun _ hp => by cases hp⟩

theorem LastSet.concat (h : LastSet sets clears orders v) {o : O} (hset : sets o = none)
    (hclear : clears o = false) : LastSet sets clears (orders ++ [o]) v := by
  obtain ⟨before, p, after, rfl, hp, hafter⟩ := h
  refine ⟨before, p, after ++ [o], by simp, hp, fun q hq => ?_⟩
  rcases List.mem_append.mp hq with hq | hq
  · exact hafter q hq
  · rw [List.mem_singleton.mp hq]
    exact ⟨hset, hclear⟩

end LastSet

structure TestsOrdered (orders : List (TestOrder RatNan))
    (tests : MotorTest RatNan × MotorTest UInt16) : Prop where
  values : ∀ channel, tests.1.values channel = .rat 0 ∨
    ∃ v, LastSet (TestOrder.sets channel) TestOrder.clears orders v ∧
      tests.1.values channel = clampf v (CFloat.lit 0) (CFloat.lit 1)
  raw : ∀ channel, tests.2.values channel = dshotDisarmed ∨
    LastSet (TestOrder.rawSets channel) TestOrder.rawClears orders (tests.2.values channel)

theorem TestsOrdered.values_concat {orders : List (TestOrder RatNan)}
    {tests : MotorTest RatNan × MotorTest UInt16} (h : TestsOrdered orders tests)
    {order : TestOrder RatNan} {channel : Fin 4} (hset : order.sets channel = none)
    (hclear : order.clears = false) :
    tests.1.values channel = .rat 0 ∨
      ∃ v, LastSet (TestOrder.sets channel) TestOrder.clears (orders ++ [order]) v ∧
        tests.1.values channel = clampf v (CFloat.lit 0) (CFloat.lit 1) := by
  rcases h.values channel with hzero | ⟨v, hv, hvalue⟩
  · exact Or.inl hzero
  · exact Or.inr ⟨v, hv.concat hset hclear, hvalue⟩

theorem TestsOrdered.raw_concat {orders : List (TestOrder RatNan)}
    {tests : MotorTest RatNan × MotorTest UInt16} (h : TestsOrdered orders tests)
    {order : TestOrder RatNan} {channel : Fin 4} (hset : order.rawSets channel = none)
    (hclear : order.rawClears = false) :
    tests.2.values channel = dshotDisarmed ∨
      LastSet (TestOrder.rawSets channel) TestOrder.rawClears (orders ++ [order])
        (tests.2.values channel) := by
  rcases h.raw channel with hzero | hset'
  · exact Or.inl hzero
  · exact Or.inr (hset'.concat hset hclear)

theorem applyOrder_ordered {orders : List (TestOrder RatNan)}
    {tests : MotorTest RatNan × MotorTest UInt16} (h : TestsOrdered orders tests)
    (order : TestOrder RatNan) : TestsOrdered (orders ++ [order]) (applyOrder tests order) := by
  cases order with
  | set index value =>
      refine ⟨fun channel => ?_, fun channel => h.raw_concat rfl rfl⟩
      by_cases hchannel : index = channel
      · subst hchannel
        exact Or.inr ⟨value, .of_concat (if_pos rfl), Function.update_self ..⟩
      · have hkept : (applyOrder tests (.set index value)).1.values channel
            = tests.1.values channel := Function.update_of_ne (Ne.symm hchannel) ..
        rw [hkept]
        exact h.values_concat (if_neg hchannel) rfl
  | clear => exact ⟨fun _ => Or.inl rfl, fun channel => h.raw_concat rfl rfl⟩
  | rawSet index value =>
      refine ⟨fun channel => h.values_concat rfl rfl, fun channel => ?_⟩
      by_cases hchannel : index = channel
      · subst hchannel
        have hset : (applyOrder tests (.rawSet index value)).2.values index = value :=
          Function.update_self ..
        rw [hset]
        exact Or.inr (.of_concat (if_pos rfl))
      · have hkept : (applyOrder tests (.rawSet index value)).2.values channel
            = tests.2.values channel := Function.update_of_ne (Ne.symm hchannel) ..
        rw [hkept]
        exact h.raw_concat (if_neg hchannel) rfl
  | rawSetAll value =>
      exact ⟨fun channel => h.values_concat rfl rfl, fun _ => Or.inr (.of_concat rfl)⟩
  | rawClear => exact ⟨fun channel => h.values_concat rfl rfl, fun _ => Or.inl rfl⟩

/-! ## The RC input and its history -/

theorem rcInputStage_staged (s : RcInput) (evt : InputEvent) :
    ((rcInputStage s evt).staging, (rcInputStage s evt).stagingValid)
      = stageEvent (s.staging, s.stagingValid) evt := by
  unfold rcInputStage stageEvent
  split
  · rfl
  · split
    · rfl
    · split <;> rfl

/-- The update belongs to a sync event, and to what was seen. -/
def RcUpdate.Synced (u : RcUpdate) (seen : List InputEvent) : Prop :=
  u.seen <+: seen ∧ ∃ before evt, u.seen = before ++ [evt] ∧ evt.sync = true

structure RcHistory (rc : RcInput) (seen : List InputEvent) (updates : List RcUpdate) : Prop where
  staged : (rc.staging, rc.stagingValid) = staged seen
  synced : rc.writer ≠ .idle → ∃ before evt, seen = before ++ [evt] ∧ evt.sync = true
  leaving : ∀ stampMs, rc.writer = .leave stampMs → ⟨seen, stampMs⟩ ∈ updates
  committed : ∀ c ∈ rc.latest.committed, c .valid = false ∨ ∃ u ∈ updates, c = u.sample
  updates : ∀ u ∈ updates, u.Synced seen

theorem rcInputInit_history (pubReady : Bool) : RcHistory (rcInputInit pubReady) [] [] where
  staged := rfl
  synced := fun h => absurd rfl h
  leaving := fun _ h => by cases h
  committed := fun c hc => by
    rw [List.mem_singleton.mp hc]
    exact Or.inl rfl
  updates := fun _ h => by cases h

/-- One of the writer's steps that neither stamps nor commits. -/
theorem RcHistory.keep {rc rc' : RcInput} {seen : List InputEvent} {updates : List RcUpdate}
    (h : RcHistory rc seen updates) (hbusy : rc.writer ≠ .idle)
    (hstaging : rc'.staging = rc.staging) (hvalid : rc'.stagingValid = rc.stagingValid)
    (hcommitted : rc'.latest.committed = rc.latest.committed)
    (hleave : ∀ stampMs, rc'.writer ≠ .leave stampMs) : RcHistory rc' seen updates where
  staged := by rw [hstaging, hvalid, h.staged]
  synced := fun _ => h.synced hbusy
  leaving := fun stampMs hleaving => absurd hleaving (hleave stampMs)
  committed := by
    rw [hcommitted]
    exact h.committed
  updates := h.updates

theorem rcInputWrite_history {rc rc' : RcInput} {seen : List InputEvent}
    {updates : List RcUpdate} {uptime : Int} (h : RcHistory rc seen updates)
    (hstep : rcInputWrite rc uptime = some rc') :
    RcHistory rc' seen
      (updates ++ (if rc.writer = .setStamp then some ⟨seen, uptime⟩ else none).toList) := by
  cases rcInputWrite_cases hstep with
  | enter hw =>
      rw [if_neg (by simp [hw]), Option.toList_none, List.append_nil]
      exact h.keep (by simp [hw]) rfl rfl rfl (by simp)
  | @copyChannel k hw =>
      rw [if_neg (by simp [hw]), Option.toList_none, List.append_nil]
      refine h.keep (by simp [hw]) rfl rfl rfl fun stampMs => ?_
      by_cases hk : k.val + 1 < 16
      · simp [hk]
      · simp [hk]
  | setValid hw =>
      rw [if_neg (by simp [hw]), Option.toList_none, List.append_nil]
      exact h.keep (by simp [hw]) rfl rfl rfl (by simp)
  | setStamp hw =>
      rw [if_pos hw, Option.toList_some]
      obtain ⟨before, evt, hseen, hsync⟩ := h.synced (by simp [hw])
      refine ⟨h.staged, fun _ => ⟨before, evt, hseen, hsync⟩, fun stampMs hleaving => ?_, ?_, ?_⟩
      · rw [RcWriterPc.leave.injEq] at hleaving
        rw [hleaving]
        exact List.mem_append_right _ (List.mem_singleton_self _)
      · intro c hc
        rcases h.committed c hc with hdefault | ⟨u, hu, rfl⟩
        · exact Or.inl hdefault
        · exact Or.inr ⟨u, List.mem_append_left _ hu, rfl⟩
      · intro u hu
        rcases List.mem_append.mp hu with hu | hu
        · exact h.updates u hu
        · rw [List.mem_singleton.mp hu]
          exact ⟨List.prefix_rfl, before, evt, hseen, hsync⟩
  | @leave stampMs hw =>
      rw [if_neg (by simp [hw]), Option.toList_none, List.append_nil]
      refine ⟨h.staged, fun _ => h.synced (by simp [hw]), fun _ h => by simp at h, ?_, h.updates⟩
      intro c hc
      rcases List.mem_cons.mp hc with rfl | hc
      · refine Or.inr ⟨⟨seen, stampMs⟩, h.leaving stampMs hw, ?_⟩
        rw [RcUpdate.sample, ← h.staged]
      · exact h.committed c hc
  | publish hw | unready hw =>
      rw [if_neg (by simp [hw]), Option.toList_none, List.append_nil]
      exact h.keep (by simp [hw]) rfl rfl rfl (by simp)

/-- A new event is staged, and begins an update if it says so. -/
theorem RcHistory.event {rc : RcInput} {seen : List InputEvent} {updates : List RcUpdate}
    (h : RcHistory rc seen updates) (evt : InputEvent) :
    RcHistory { rcInputStage rc evt with writer := if evt.sync then .enter else .idle }
      (seen ++ [evt]) updates where
  staged := by
    have hnext : Rdd2.staged (seen ++ [evt]) = stageEvent (Rdd2.staged seen) evt :=
      List.foldl_concat ..
    rw [hnext, ← h.staged]
    exact rcInputStage_staged rc evt
  synced := fun hbusy => by
    refine ⟨seen, evt, rfl, ?_⟩
    by_contra hsync
    exact hbusy (if_neg hsync)
  leaving := fun stampMs hleaving => by
    cases hsync : evt.sync <;> simp [hsync] at hleaving
  committed := fun c hc => by
    rw [show (rcInputStage rc evt).latest = rc.latest from (rcInputStage_keeps rc evt).1] at hc
    exact h.committed c hc
  updates := fun u hu => ⟨(h.updates u hu).1.trans (List.prefix_append _ _), (h.updates u hu).2⟩

theorem rcInputLatestGet_keeps {rc rc' : RcInput} (hstep : rcInputLatestGet rc = some rc') :
    ∃ r, rc' = { rc with reader := r } := by
  cases rcInputLatestGet_cases hstep <;> exact ⟨_, rfl⟩

theorem rcStep_history {rc rc' : RcInput} {seen : List InputEvent} {updates : List RcUpdate}
    {action : RcAction} (h : RcHistory rc seen updates) (hstep : rcStep rc action = some rc') :
    RcHistory rc' (seen ++ action.event?.toList) (updates ++ (rc.update? seen action).toList) := by
  cases action with
  | event evt =>
      simp only [rcStep] at hstep
      split at hstep
      · cases hstep
        simp only [RcInput.update?, Option.toList_none, List.append_nil]
        exact h.event evt
      · cases hstep
  | write uptime =>
      simp only [RcAction.event?, Option.toList_none, List.append_nil]
      exact rcInputWrite_history h hstep
  | call dest =>
      simp only [rcStep] at hstep
      split at hstep
      · cases hstep
        simp only [RcAction.event?, RcInput.update?, Option.toList_none, List.append_nil]
        exact ⟨h.staged, h.synced, h.leaving, h.committed, h.updates⟩
      · cases hstep
  | read =>
      obtain ⟨r, rfl⟩ := rcInputLatestGet_keeps hstep
      simp only [RcAction.event?, RcInput.update?, Option.toList_none, List.append_nil]
      exact ⟨h.staged, h.synced, h.leaving, h.committed, h.updates⟩

/-! ## Runs -/

section Runs

variable {D R E : Type} [CFloat D] [CDouble RatNan D]

/-- The input of a cycle was ready for flight, and the RC channels in it are those of one
update, which the receiver called valid. -/
structure FlownOn (gen : Generated D R E) (updates : List RcUpdate) (input : CycleInput RatNan) :
    Prop where
  ready : FlightReady gen input
  update : ∃ u ∈ updates, input.rc = (staged u.seen).1 ∧ (staged u.seen).2 = true ∧
    input.rcStampMs = u.uptimeMs

def OnUpdate (updates : List RcUpdate) (input : CycleInput RatNan) : Prop :=
  input.rcValid = true → ∃ u ∈ updates, input.rc = (staged u.seen).1 ∧
    (staged u.seen).2 = true ∧ input.rcStampMs = u.uptimeMs

theorem OnUpdate.mono {updates later : List RcUpdate} {input : CycleInput RatNan}
    (h : OnUpdate updates input) : OnUpdate (updates ++ later) input := by
  intro hvalid
  obtain ⟨u, hu, hsame⟩ := h hvalid
  exact ⟨u, List.mem_append_left _ hu, hsame⟩

structure FlightInv (gen : Generated D R E) (board : Board) (s : FlightSystem RatNan D R E) :
    Prop where
  writer : RcWriterInv s.rc
  reader : RcReaderFacts s.rc
  history : RcHistory s.rc s.seen s.updates
  tests : TestsOrdered s.orders s.tests
  loop : s.loop = loopAfter gen board s.cycles
  cycles : ∀ input ∈ s.cycles, OnUpdate s.updates input

theorem bootSystem_inv (gen : Generated D R E) (board : Board) (rcPubReady : Bool) :
    FlightInv gen board (bootSystem gen rcPubReady) where
  writer := (rcInputInit_inv rcPubReady).1
  reader := (rcInputInit_inv rcPubReady).2
  history := rcInputInit_history rcPubReady
  tests := ⟨fun _ => Or.inl rfl, fun _ => Or.inl rfl⟩
  loop := rfl
  cycles := fun _ h => by cases h

/-- A snapshot that was returned is that of an update, if it is valid. -/
theorem FlightInv.onUpdate {gen : Generated D R E} {board : Board}
    {s : FlightSystem RatNan D R E} (h : FlightInv gen board s)
    (hreturned : s.rc.reader.pc = .returned) (input : CycleInput RatNan) :
    OnUpdate s.updates (s.input input) := by
  intro hvalid
  have hcommitted : s.rc.reader.dest ∈ s.rc.latest.committed := by
    have hfacts := h.reader
    simpa only [RcReaderFacts, hreturned] using hfacts
  rcases h.history.committed _ hcommitted with hdefault | ⟨u, hu, hsample⟩
  · have hvalid' : s.rc.reader.dest .valid = true := hvalid
    rw [hdefault] at hvalid'
    cases hvalid'
  · refine ⟨u, hu, ?_, ?_, ?_⟩
    · funext k
      exact congrFun hsample (.channel k)
    · have hsame : s.rc.reader.dest .valid = (staged u.seen).2 := congrFun hsample .valid
      rw [← hsame]
      exact hvalid
    · exact congrFun hsample .stampMs

theorem flightStep_inv (gen : Generated D R E) (board : Board) (s : FlightSystem RatNan D R E)
    (e : FlightEvent RatNan) (t : FlightSystem RatNan D R E) (hok : FlightStepOk s e)
    (h : FlightInv gen board s) (hstep : flightStep gen board s e = some t) :
    FlightInv gen board t := by
  cases e with
  | rc action =>
      rw [flightStep] at hstep
      obtain ⟨rc, hrc, rfl⟩ := Option.map_eq_some_iff.mp hstep
      obtain ⟨hwriter, hreader⟩ := rcStep_inv s.rc action rc hok ⟨h.writer, h.reader⟩ hrc
      exact ⟨hwriter, hreader, rcStep_history h.history hrc, h.tests, h.loop,
        fun input hinput => (h.cycles input hinput).mono⟩
  | order order =>
      cases hstep
      exact ⟨h.writer, h.reader, h.history, applyOrder_ordered h.tests order, h.loop, h.cycles⟩
  | cycle input =>
      rw [flightStep] at hstep
      split at hstep
      · rename_i hreturned
        cases hstep
        have hhistory := h.history
        refine ⟨h.writer.read _, trivial, ⟨hhistory.staged, hhistory.synced, hhistory.leaving,
          hhistory.committed, hhistory.updates⟩, h.tests, ?_, ?_⟩
        · rw [loopAfter_concat, ← h.loop]
        · intro c hc
          rcases List.mem_append.mp hc with hc | hc
          · exact h.cycles c hc
          · rw [List.mem_singleton.mp hc]
            exact h.onUpdate hreturned input
      · cases hstep

/-! ## Who moves a motor -/

theorem cycle_test_throttle {gen : Generated D R E} {board : Board} {loop : Loop RatNan D R E}
    {input : CycleInput RatNan} (hactive : input.motorTest.active = true) {channel : Fin 4}
    {throttle : UInt16}
    (h : (channel, throttle) ∈ dshotThrottles (cycle gen board loop input).2.calls) :
    throttle = rawValue true true (input.motorTest.values channel) := by
  simp only [cycle, dshotThrottles_append, updateEstimator_throttles, resetControllers_throttles,
    finalizeCycle_throttles, List.nil_append, List.append_nil] at h
  simp only [commandMotors, motorTestGet, hactive, if_true, writeMotors, mem_dshotThrottles] at h
  obtain ⟨call, hcall, heq⟩ := List.mem_map.mp h
  cases heq
  rw [motorOutputWriteAll_eq] at hcall
  split at hcall
  · cases hcall
  · exact mem_motorOutputSend hcall

theorem cycle_rawTest_throttle {gen : Generated D R E} {board : Board}
    {loop : Loop RatNan D R E} {input : CycleInput RatNan}
    (htest : input.motorTest.active = false) (hactive : input.motorRawTest.active = true)
    {channel : Fin 4} {throttle : UInt16}
    (h : (channel, throttle) ∈ dshotThrottles (cycle gen board loop input).2.calls) :
    throttle = clampRaw (input.motorRawTest.values channel) := by
  simp only [cycle, dshotThrottles_append, updateEstimator_throttles, resetControllers_throttles,
    finalizeCycle_throttles, List.nil_append, List.append_nil] at h
  simp only [commandMotors, motorTestGet, htest, hactive, Bool.false_eq_true, if_false, if_true,
    writeMotorsRaw, mem_dshotThrottles] at h
  obtain ⟨call, hcall, heq⟩ := List.mem_map.mp h
  cases heq
  rw [motorOutputWriteAllRaw] at hcall
  split at hcall
  · cases hcall
  · exact mem_motorOutputSend hcall

/-- A test value that turns the motor is positive, and sent as it was set. -/
theorem rawValue_clampf {v : RatNan} {throttle : UInt16}
    (h : throttle = rawValue true true (clampf v (CFloat.lit 0) (CFloat.lit 1)))
    (hthrottle : throttle ≠ dshotDisarmed) :
    ∃ q : Rat, v = .rat q ∧ 0 < q ∧ throttle.toNat = dshotOf (unitClamp q) := by
  cases v with
  | nan =>
      rw [clampf_nan, rawValue_nan] at h
      exact absurd h hthrottle
  | rat q =>
      have hclamp : clampf (RatNan.rat q) (CFloat.lit 0) (CFloat.lit 1) = .rat (unitClamp q) :=
        clampf_rat q
      obtain ⟨h0, h1⟩ := unitClamp_mem q
      rw [hclamp, rawValue_rat] at h
      split at h
      · rename_i hpos
        refine ⟨q, rfl, unitClamp_pos.mp hpos, ?_⟩
        have hle := (dshotOf_mem h0 h1).2
        rw [h, unitClamp_of_mem h0 h1]
        exact UInt16.toNat_ofNat_of_lt (Nat.lt_of_le_of_lt hle (by decide))
      · exact absurd h hthrottle

/-- Over every run of RC callbacks, snapshots, orders for the motor tests and cycles of
the flight build, in any order that can happen, in which the snapshot meets no hazard: a
channel that gets a throttle in a cycle either is in a motor test, and gets what the last
order set it to since the last clear; or is in a raw test, likewise; or is flown. Then
IMU and arm switch are in order, the RC channels are those staged up to one sync event,
called valid, and stamped no longer ago than the limit; and the same goes for every
cycle since one with the throttle channel low. -/
theorem motors_move_only_when_told (gen : Generated D R E) (board : Board)
    (hboard : board.lockstep = false) (rcPubReady : Bool) (events : List (FlightEvent RatNan))
    (s : FlightSystem RatNan D R E)
    (hok : Guarded.Ok (flightStep gen board) FlightStepOk (bootSystem gen rcPubReady) events)
    (hrun : Guarded.run (flightStep gen board) (bootSystem gen rcPubReady) events = some s)
    (hreturned : s.rc.reader.pc = .returned) (input : CycleInput RatNan) (channel : Fin 4)
    (throttle : UInt16)
    (hcall : (channel, throttle) ∈
      dshotThrottles (cycle gen board s.loop (s.input input)).2.calls)
    (hthrottle : throttle ≠ dshotDisarmed) :
    (∀ u ∈ s.updates, u.Synced s.seen) ∧
      ((∃ q, LastSet (TestOrder.sets channel) TestOrder.clears s.orders (.rat q) ∧ 0 < q ∧
          throttle.toNat = dshotOf (unitClamp q)) ∨
        (∃ v, LastSet (TestOrder.rawSets channel) TestOrder.rawClears s.orders v ∧
          throttle = clampRaw v) ∨
        (FlownOn gen s.updates (s.input input) ∧
          ∃ early low held, s.cycles ++ [s.input input] = early ++ low :: held ∧
            low.rc rcThrottleIndex ≤ throttleArmMax ∧
            ∀ c ∈ low :: held, FlownOn gen s.updates c)) := by
  have hinv := Guarded.ok_keeps (flightStep gen board) (flightStep_inv gen board)
    (bootSystem_inv gen board rcPubReady) hok hrun
  refine ⟨hinv.history.updates, ?_⟩
  cases htest : s.tests.1.active with
  | true =>
      have hvalue : throttle = rawValue true true ((s.input input).motorTest.values channel) :=
        cycle_test_throttle htest hcall
      rcases hinv.tests.values channel with hzero | ⟨v, hv, hset⟩
      · rw [show (s.input input).motorTest.values channel = s.tests.1.values channel from rfl,
          hzero, rawValue_rat, if_neg (lt_irrefl 0)] at hvalue
        exact absurd hvalue hthrottle
      · rw [show (s.input input).motorTest.values channel = s.tests.1.values channel from rfl,
          hset] at hvalue
        obtain ⟨q, rfl, hpos, hdshot⟩ := rawValue_clampf hvalue hthrottle
        exact Or.inl ⟨q, hv, hpos, hdshot⟩
  | false =>
      cases hraw : s.tests.2.active with
      | true =>
          have hvalue : throttle = clampRaw ((s.input input).motorRawTest.values channel) :=
            cycle_rawTest_throttle htest hraw hcall
          rcases hinv.tests.raw channel with hzero | hset
          · rw [show (s.input input).motorRawTest.values channel = s.tests.2.values channel
              from rfl, hzero] at hvalue
            exact absurd (hvalue.trans (by decide)) hthrottle
          · exact Or.inr (Or.inl ⟨_, hset, hvalue⟩)
      | false =>
          rw [hinv.loop] at hcall
          have hupdate (c : CycleInput RatNan) (hc : c ∈ s.cycles ++ [s.input input]) :
              OnUpdate s.updates c := by
            rcases List.mem_append.mp hc with hc | hc
            · exact hinv.cycles c hc
            · rw [List.mem_singleton.mp hc]
              exact hinv.onUpdate hreturned input
          have harmed := cycle_throttle gen board (s.input input) htest hraw hcall hthrottle
          rw [← loopAfter_concat] at harmed
          obtain ⟨early, low, held, hsplit, hlow, hready⟩ := armed_since gen board hboard harmed
          have hflown (c : CycleInput RatNan) (hc : c ∈ low :: held) : FlownOn gen s.updates c :=
            ⟨hready c hc, hupdate c (hsplit ▸ List.mem_append_right _ hc) (hready c hc).rcValid⟩
          refine Or.inr (Or.inr ⟨?_, early, low, held, hsplit, hlow, hflown⟩)
          have hlast : s.input input ∈ low :: held := by
            have hmem := congrArg List.getLast? hsplit
            rw [List.getLast?_concat, List.getLast?_append_of_ne_nil _ (List.cons_ne_nil _ _)] at hmem
            exact List.mem_of_getLast? hmem.symm
          exact hflown _ hlast

end Runs

/-! ## A bench flight -/

instance : CDouble RatNan RatNan := ⟨id, id⟩

def idleGenerated : Generated RatNan Unit Unit where
  zeroRest := ()
  startup := id
  recalibrate := id
  dostep := id
  estimatorZeroRest := ()
  estimatorStartup := id
  estimatorRecalibrate := id
  estimatorDostep := id

/-- One that looks at the arm switch and gives every motor the same. -/
def hoverGenerated : Generated RatNan Unit Unit :=
  { idleGenerated with
    dostep := fun s =>
      { s with
        armSwitchHigh := decide (s.rcArmUs = .rat 2000)
        motor0 := .rat (1 / 2)
        motor1 := .rat (1 / 2)
        motor2 := .rat (1 / 2)
        motor3 := .rat (1 / 2) } }

def benchUpdate (code : Nat) (value : Int) : List (FlightEvent RatNan) :=
  [.rc (.event ⟨true, inputEvAbs, code, value⟩)] ++ List.replicate 21 (.rc (.write 7)) ++
    [.rc (.call (rcSample (fun _ => 0) false 0))] ++ List.replicate 21 (.rc .read)

def benchStillInput : CycleInput RatNan where
  imuOk := true
  gyro := ⟨.rat 0, .rat 0, .rat 0⟩
  accel := ⟨.rat 0, .rat 0, .rat 10⟩
  dt := .rat (1 / 1600)
  imuInterruptTimestampNs := 1000
  rcLinkQuality := 100
  rc := fun _ => 0
  rcStampMs := 0
  rcValid := false
  nowMs := 30
  motorTest := motorTestClear RatNan
  motorRawTest := motorRawTestClear
  motorClock := ⟨2000, 0⟩
  atTarget := true

/-- Armed with the throttle low, which is then opened. -/
def benchFlight : List (FlightEvent RatNan) :=
  benchUpdate 5 2000 ++ [.cycle benchStillInput] ++ benchUpdate 3 1500

/-- Nobody has ordered a test, so the motors are flown. -/
theorem motors_move_only_when_told_half :
    ∃ s, Guarded.run (flightStep hoverGenerated benchBoard) (bootSystem hoverGenerated true)
        benchFlight = some s ∧
      (∀ u ∈ s.updates, u.Synced s.seen) ∧
      FlownOn hoverGenerated s.updates (s.input benchStillInput) ∧
      ∃ early low held, s.cycles ++ [s.input benchStillInput] = early ++ low :: held ∧
        low.rc rcThrottleIndex ≤ throttleArmMax ∧
        ∀ c ∈ low :: held, FlownOn hoverGenerated s.updates c := by
  obtain ⟨s, hs, hreturned, horders, hcall⟩ : ∃ s, Guarded.run
      (flightStep hoverGenerated benchBoard) (bootSystem hoverGenerated true) benchFlight = some s ∧
        s.rc.reader.pc = .returned ∧ s.orders = [] ∧
        ((0 : Fin 4), (1048 : UInt16)) ∈ dshotThrottles
          (cycle hoverGenerated benchBoard s.loop (s.input benchStillInput)).2.calls :=
    Guarded.run_any _ (by decide +kernel)
  obtain ⟨hupdates, htold⟩ := motors_move_only_when_told hoverGenerated benchBoard rfl true
    benchFlight s (by decide +kernel) hs hreturned benchStillInput 0 1048 hcall (by decide)
  rw [horders] at htold
  refine ⟨s, hs, hupdates, ?_⟩
  rcases htold with ⟨q, ⟨before, o, after, hnone, -⟩, -⟩ | ⟨v, ⟨before, o, after, hnone, -⟩, -⟩ | hflown
  · exact absurd hnone.symm (by simp)
  · exact absurd hnone.symm (by simp)
  · exact hflown

end Rdd2
