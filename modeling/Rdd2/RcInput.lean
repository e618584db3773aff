import Mathlib.Algebra.GroupWithZero.Nat
import Rdd2.Guarded
import Rdd2.Seqlock

/-!
# RC snapshots

`rc_input.c`: the input callback stages one RC event after the other and
publishes the staged channels under `g_rc_seq`; the control loop takes a
snapshot with `rdd2_rc_input_latest_get`. Writer and reader are step
relations over one shared state, one memory access to a step, interleaved
in any order. Definitions have their source's names in camel case.

The reader's loop has a defect. When `g_rc_seq` is odd it says `continue`,
which in a `do`-loop goes to the condition, and the condition compares with
a `seq_end` from an earlier turn. If that turn ended inside the same
update, both are the same odd count and the half-updated copy is returned
(`latest_get_torn`). Apart from that, and from a counter that comes round
to the same word, a snapshot is a committed one (`latest_get_committed`).
-/

namespace Rdd2

open Seqlock

/-! ## Data -/

/-- The words of `g_rc_latest`, `g_rc_latest_valid` and
`g_rc_latest_stamp_ms`. -/
inductive RcCell where
  | channel (k : Fin 16)
  | valid
  | stampMs
  deriving DecidableEq, Repr

abbrev RcCell.Val : RcCell → Type
  | .channel _ => Int
  | .valid => Bool
  | .stampMs => Int

abbrev RcSample : Type := ∀ c : RcCell, c.Val

def rcSample (channels : Fin 16 → Int) (valid : Bool) (stampMs : Int) : RcSample
  | .channel k => channels k
  | .valid => valid
  | .stampMs => stampMs

/-- There are channels. -/
local instance channelsNeZero : NeZero 16 := ⟨Nat.succ_ne_zero 15⟩

def throttleChannelIndex : Fin 16 := 2
def rcUsCenter : Int := 1500
def rcUsMin : Int := 1000

def rcChannelsSetDefaults : Fin 16 → Int :=
  Function.update (fun _ => rcUsCenter) throttleChannelIndex rcUsMin

def inputEvAbs : Nat := 0x03
def inputEvMsc : Nat := 0x04
def rcInputEventLinkQuality : Nat := 0x1000
def rcInputEventValid : Nat := 0x1001

structure InputEvent where
  sync : Bool
  type : Nat
  code : Nat
  value : Int
  deriving DecidableEq, Repr

/-- Where `rc_input_cb` is. `leave` keeps the time stamp of the update. -/
inductive RcWriterPc where
  | idle
  | enter
  | copyChannel (k : Fin 16)
  | setValid
  | setStamp
  | leave (stampMs : Int)
  | publish
  deriving DecidableEq, Repr

/-- Where `rdd2_rc_input_latest_get` is. -/
inductive RcReaderPc where
  | idle
  | head
  | copyChannel (k : Fin 16)
  | copyStamp
  | copyValid
  | tail
  | test
  | returned
  deriving DecidableEq, Repr

/-- A call of `rdd2_rc_input_latest_get`: its locals, what its arguments
point to, and how many increments `g_rc_seq` had seen when this turn of the
loop began, which no step reads. -/
structure RcReader where
  pc : RcReaderPc
  seqStart : UInt32
  seqEnd : UInt32
  dest : RcSample
  incsAtHead : Nat

/-- The statics of `rc_input.c`, and the two threads. `g_rc_seq` is a 32-bit
word; `latest` has the memory it protects with the history that no step
reads: the number of increments and the samples of the completed updates. -/
structure RcInput where
  staging : Fin 16 → Int
  stagingValid : Bool
  latest : Shared RcCell.Val
  seq : UInt32
  linkQuality : Int
  pubReady : Bool
  msg : Fin 16 → Int
  published : List (Fin 16 → Int)
  writer : RcWriterPc
  reader : RcReader

/-- `rdd2_rc_input_init`; `pubReady` is whether `zros_pub_init` succeeded. -/
def rcInputInit (pubReady : Bool) : RcInput :=
  let defaults := rcSample rcChannelsSetDefaults false 0
  { staging := rcChannelsSetDefaults
    stagingValid := false
    latest := ⟨0, defaults, [defaults]⟩
    seq := 0
    linkQuality := 0
    pubReady := pubReady
    msg := fun _ => 0
    published := []
    writer := .idle
    reader := ⟨.idle, 0, 0, defaults, 0⟩ }

/-! ## Steps -/

/-- `rc_input_cb` up to its test of `evt->sync`. -/
def rcInputStage (s : RcInput) (evt : InputEvent) : RcInput :=
  if h : evt.type = inputEvAbs ∧ 1 ≤ evt.code ∧ evt.code ≤ 16 then
    { s with
      staging := Function.update s.staging ⟨evt.code - 1, by omega⟩ evt.value
      stagingValid := true }
  else if evt.type = inputEvMsc ∧ evt.code = rcInputEventLinkQuality then
    { s with linkQuality := evt.value }
  else if evt.type = inputEvMsc ∧ evt.code = rcInputEventValid then
    { s with stagingValid := evt.value ≠ 0 }
  else s

/-- The next step of a `rc_input_cb` with `evt->sync` set; `uptime` is what
`k_uptime_get` would return. -/
def rcInputWrite (s : RcInput) (uptime : Int) : Option RcInput :=
  match s.writer with
  | .idle => none
  | .enter => some { s with
      seq := s.seq + 1
      latest.incs := s.latest.incs + 1
      writer := .copyChannel 0 }
  | .copyChannel k => some { s with
      latest.mem := Function.update s.latest.mem (.channel k) (s.staging k)
      writer := if h : k.val + 1 < 16 then .copyChannel ⟨k.val + 1, h⟩ else .setValid }
  | .setValid => some { s with
      latest.mem := Function.update s.latest.mem .valid s.stagingValid
      writer := .setStamp }
  | .setStamp => some { s with
      latest.mem := Function.update s.latest.mem .stampMs uptime
      writer := .leave uptime }
  | .leave stampMs => some { s with
      seq := s.seq + 1
      latest.incs := s.latest.incs + 1
      latest.committed := rcSample s.staging s.stagingValid stampMs :: s.latest.committed
      writer := .publish }
  | .publish =>
      let msg := fun k => s.latest.mem (.channel k)
      if s.pubReady then
        some { s with msg := msg, published := s.published ++ [msg], writer := .idle }
      else some { s with writer := .idle }

inductive RcWriterMove (s : RcInput) (uptime : Int) : RcInput → Prop
  | enter (hw : s.writer = .enter) :
      RcWriterMove s uptime { s with
        seq := s.seq + 1
        latest.incs := s.latest.incs + 1
        writer := .copyChannel 0 }
  | copyChannel {k : Fin 16} (hw : s.writer = .copyChannel k) :
      RcWriterMove s uptime { s with
        latest.mem := Function.update s.latest.mem (.channel k) (s.staging k)
        writer := if h : k.val + 1 < 16 then .copyChannel ⟨k.val + 1, h⟩ else .setValid }
  | setValid (hw : s.writer = .setValid) :
      RcWriterMove s uptime { s with
        latest.mem := Function.update s.latest.mem .valid s.stagingValid
        writer := .setStamp }
  | setStamp (hw : s.writer = .setStamp) :
      RcWriterMove s uptime { s with
        latest.mem := Function.update s.latest.mem .stampMs uptime
        writer := .leave uptime }
  | leave {stampMs : Int} (hw : s.writer = .leave stampMs) :
      RcWriterMove s uptime { s with
        seq := s.seq + 1
        latest.incs := s.latest.incs + 1
        latest.committed := rcSample s.staging s.stagingValid stampMs :: s.latest.committed
        writer := .publish }
  | publish (hw : s.writer = .publish) (hready : s.pubReady = true) :
      RcWriterMove s uptime { s with
        msg := fun k => s.latest.mem (.channel k)
        published := s.published ++ [fun k => s.latest.mem (.channel k)]
        writer := .idle }
  | unready (hw : s.writer = .publish) (hready : s.pubReady = false) :
      RcWriterMove s uptime { s with writer := .idle }

theorem rcInputWrite_cases {s s' : RcInput} {uptime : Int} (h : rcInputWrite s uptime = some s') :
    RcWriterMove s uptime s' := by
  cases hw : s.writer with
  | idle => simp only [rcInputWrite, hw, reduceCtorEq] at h
  | enter =>
      simp only [rcInputWrite, hw, Option.some.injEq] at h
      subst h
      exact .enter hw
  | copyChannel k =>
      simp only [rcInputWrite, hw, Option.some.injEq] at h
      subst h
      exact .copyChannel hw
  | setValid =>
      simp only [rcInputWrite, hw, Option.some.injEq] at h
      subst h
      exact .setValid hw
  | setStamp =>
      simp only [rcInputWrite, hw, Option.some.injEq] at h
      subst h
      exact .setStamp hw
  | leave stampMs =>
      simp only [rcInputWrite, hw, Option.some.injEq] at h
      subst h
      exact .leave hw
  | publish =>
      simp only [rcInputWrite, hw] at h
      split at h
      · rename_i hready
        cases h
        exact .publish hw hready
      · rename_i hready
        cases h
        exact .unready hw (Bool.eq_false_iff.mpr hready)

def rcInputLatestGet (s : RcInput) : Option RcInput :=
  let r := s.reader
  match r.pc with
  | .idle => none
  | .head =>
      let r := { r with seqStart := s.seq, incsAtHead := s.latest.incs }
      -- `continue` goes to the condition of the loop
      if s.seq &&& 1 ≠ 0 then some { s with reader := { r with pc := .test } }
      else some { s with reader := { r with pc := .copyChannel 0 } }
  | .copyChannel k => some { s with reader := { r with
      dest := Function.update r.dest (.channel k) (s.latest.mem (.channel k))
      pc := if h : k.val + 1 < 16 then .copyChannel ⟨k.val + 1, h⟩ else .copyStamp } }
  | .copyStamp => some { s with reader := { r with
      dest := Function.update r.dest .stampMs (s.latest.mem .stampMs), pc := .copyValid } }
  | .copyValid => some { s with reader := { r with
      dest := Function.update r.dest .valid (s.latest.mem .valid), pc := .tail } }
  | .tail => some { s with reader := { r with seqEnd := s.seq, pc := .test } }
  | .test => some { s with reader := { r with
      pc := if r.seqStart ≠ r.seqEnd then .head else .returned } }
  | .returned => none

inductive RcReaderMove (s : RcInput) : RcInput → Prop
  | odd (hpc : s.reader.pc = .head) (hodd : s.seq &&& 1 ≠ 0) :
      RcReaderMove s { s with reader := { s.reader with
        seqStart := s.seq, incsAtHead := s.latest.incs, pc := .test } }
  | even (hpc : s.reader.pc = .head) (heven : ¬ s.seq &&& 1 ≠ 0) :
      RcReaderMove s { s with reader := { s.reader with
        seqStart := s.seq, incsAtHead := s.latest.incs, pc := .copyChannel 0 } }
  | copyChannel {k : Fin 16} (hpc : s.reader.pc = .copyChannel k) :
      RcReaderMove s { s with reader := { s.reader with
        dest := Function.update s.reader.dest (.channel k) (s.latest.mem (.channel k))
        pc := if h : k.val + 1 < 16 then .copyChannel ⟨k.val + 1, h⟩ else .copyStamp } }
  | copyStamp (hpc : s.reader.pc = .copyStamp) :
      RcReaderMove s { s with reader := { s.reader with
        dest := Function.update s.reader.dest .stampMs (s.latest.mem .stampMs)
        pc := .copyValid } }
  | copyValid (hpc : s.reader.pc = .copyValid) :
      RcReaderMove s { s with reader := { s.reader with
        dest := Function.update s.reader.dest .valid (s.latest.mem .valid), pc := .tail } }
  | tail (hpc : s.reader.pc = .tail) :
      RcReaderMove s { s with reader := { s.reader with seqEnd := s.seq, pc := .test } }
  | again (hpc : s.reader.pc = .test) (hne : s.reader.seqStart ≠ s.reader.seqEnd) :
      RcReaderMove s { s with reader := { s.reader with pc := .head } }
  | done (hpc : s.reader.pc = .test) (heq : s.reader.seqStart = s.reader.seqEnd) :
      RcReaderMove s { s with reader := { s.reader with pc := .returned } }

theorem rcInputLatestGet_cases {s s' : RcInput} (h : rcInputLatestGet s = some s') :
    RcReaderMove s s' := by
  cases hpc : s.reader.pc with
  | idle | returned => simp only [rcInputLatestGet, hpc, reduceCtorEq] at h
  | head =>
      simp only [rcInputLatestGet, hpc] at h
      split at h
      · rename_i hodd
        cases h
        exact .odd hpc hodd
      · rename_i heven
        cases h
        exact .even hpc heven
  | copyChannel k =>
      simp only [rcInputLatestGet, hpc, Option.some.injEq] at h
      subst h
      exact .copyChannel hpc
  | copyStamp =>
      simp only [rcInputLatestGet, hpc, Option.some.injEq] at h
      subst h
      exact .copyStamp hpc
  | copyValid =>
      simp only [rcInputLatestGet, hpc, Option.some.injEq] at h
      subst h
      exact .copyValid hpc
  | tail =>
      simp only [rcInputLatestGet, hpc, Option.some.injEq] at h
      subst h
      exact .tail hpc
  | test =>
      simp only [rcInputLatestGet, hpc, Option.some.injEq] at h
      subst h
      split
      · rename_i hne
        exact .again hpc hne
      · rename_i heq
        exact .done hpc (not_not.mp heq)

inductive RcAction where
  /-- The input subsystem calls `rc_input_cb`. -/
  | event (evt : InputEvent)
  | write (uptime : Int)
  /-- The loop calls `rdd2_rc_input_latest_get` on the variables `dest`. -/
  | call (dest : RcSample)
  | read

def rcStep (s : RcInput) : RcAction → Option RcInput
  | .event evt =>
      if s.writer = .idle then
        some { rcInputStage s evt with writer := if evt.sync then .enter else .idle }
      else none
  | .write uptime => rcInputWrite s uptime
  | .call dest =>
      if s.reader.pc = .idle ∨ s.reader.pc = .returned then
        some { s with reader := { s.reader with pc := .head, seqEnd := 0, dest := dest } }
      else none
  | .read => rcInputLatestGet s

def rcRun (s : RcInput) (as : List RcAction) : Option RcInput := Guarded.run rcStep s as

/-! ## The writer

The writer's steps are those of a sequence lock, and what it leaves in
memory is the sample of its event. -/

def RcWriterFacts (s : RcInput) : Prop :=
  match s.writer with
  | .idle | .enter | .publish => s.latest.incs % 2 = 0
  | .copyChannel k =>
      s.latest.incs % 2 = 1 ∧ ∀ j < k, s.latest.mem (.channel j) = s.staging j
  | .setValid => s.latest.incs % 2 = 1 ∧ ∀ j, s.latest.mem (.channel j) = s.staging j
  | .setStamp =>
      s.latest.incs % 2 = 1 ∧ (∀ j, s.latest.mem (.channel j) = s.staging j) ∧
        s.latest.mem .valid = s.stagingValid
  | .leave stampMs =>
      s.latest.incs % 2 = 1 ∧ s.latest.mem = rcSample s.staging s.stagingValid stampMs

structure RcWriterInv (s : RcInput) : Prop where
  seq_eq : s.seq = UInt32.ofNat s.latest.incs
  stable : Stable s.latest
  facts : RcWriterFacts s

theorem store_channel {mem : RcSample} {channels : Fin 16 → Int} {k : Fin 16}
    (h : ∀ j < k, mem (.channel j) = channels j) (j : Fin 16) (hj : j ≤ k) :
    (Function.update mem (.channel k) (channels k) : RcSample) (.channel j) = channels j := by
  rcases Fin.lt_or_eq_of_le hj with hlt | rfl
  · rw [Function.update_of_ne (by simpa using Fin.ne_of_lt hlt)]
    exact h j hlt
  · exact Function.update_self ..

theorem store_valid {mem : RcSample} {channels : Fin 16 → Int} (valid : Bool)
    (h : ∀ j, mem (.channel j) = channels j) :
    (∀ j, (Function.update mem .valid valid : RcSample) (.channel j) = channels j) ∧
      (Function.update mem .valid valid : RcSample) .valid = valid := by
  refine ⟨fun j => ?_, Function.update_self ..⟩
  rw [Function.update_of_ne (by simp)]
  exact h j

theorem store_stampMs {mem : RcSample} {channels : Fin 16 → Int} {valid : Bool} (stampMs : Int)
    (hchannels : ∀ j, mem (.channel j) = channels j) (hvalid : mem .valid = valid) :
    (Function.update mem .stampMs stampMs : RcSample) = rcSample channels valid stampMs := by
  funext c
  cases c with
  | channel j =>
      rw [Function.update_of_ne (by simp)]
      exact hchannels j
  | valid =>
      rw [Function.update_of_ne (by simp)]
      exact hvalid
  | stampMs => exact Function.update_self ..

/-- A step of the writer: it keeps its facts, does to the memory what a
sequence lock allows, and leaves the reader alone. -/
theorem rcInputWrite_spec {s s' : RcInput} {uptime : Int} (h : rcInputWrite s uptime = some s')
    (hinv : RcWriterInv s) :
    RcWriterInv s' ∧ (Write s.latest s'.latest ∨ s'.latest = s.latest) ∧
      s'.reader = s.reader := by
  obtain ⟨hseq, hstable, hfacts⟩ := hinv
  unfold RcWriterFacts at hfacts
  cases rcInputWrite_cases h with
  | enter hw =>
      simp only [hw] at hfacts
      have hwrite := Write.enter s.latest hfacts
      refine ⟨⟨word_succ hseq, .write hwrite, ?_⟩, Or.inl hwrite, rfl⟩
      refine ⟨?_, fun j hj => absurd hj (Fin.not_lt_zero j)⟩
      simp only
      omega
  | @copyChannel k hw =>
      simp only [hw] at hfacts
      have hwrite := Write.store s.latest hfacts.1 (.channel k) (s.staging k)
      refine ⟨⟨hseq, .write hwrite, ?_⟩, Or.inl hwrite, rfl⟩
      have hstored := store_channel hfacts.2
      by_cases hk : k.val + 1 < 16
      · simp only [RcWriterFacts, dif_pos hk]
        exact ⟨hfacts.1, fun j hj => hstored j (Nat.le_of_lt_succ hj)⟩
      · simp only [RcWriterFacts, dif_neg hk]
        refine ⟨hfacts.1, fun j => hstored j ?_⟩
        rw [Fin.le_def]
        omega
  | setValid hw =>
      simp only [hw] at hfacts
      have hwrite := Write.store s.latest hfacts.1 .valid s.stagingValid
      refine ⟨⟨hseq, .write hwrite, ?_⟩, Or.inl hwrite, rfl⟩
      exact ⟨hfacts.1, store_valid s.stagingValid hfacts.2⟩
  | setStamp hw =>
      simp only [hw] at hfacts
      obtain ⟨hodd, hchannels, hvalid⟩ := hfacts
      have hwrite := Write.store s.latest hodd .stampMs uptime
      refine ⟨⟨hseq, .write hwrite, ?_⟩, Or.inl hwrite, rfl⟩
      exact ⟨hodd, store_stampMs uptime hchannels hvalid⟩
  | leave hw =>
      simp only [hw] at hfacts
      have hwrite := Write.leave s.latest hfacts.1
      rw [← hfacts.2]
      refine ⟨⟨word_succ hseq, .write hwrite, ?_⟩, Or.inl hwrite, rfl⟩
      simp only [RcWriterFacts]
      omega
  | publish hw | unready hw =>
      simp only [hw] at hfacts
      exact ⟨⟨hseq, hstable, hfacts⟩, Or.inr rfl, rfl⟩

/-! ## The reader -/

theorem RcWriterInv.read {s : RcInput} (h : RcWriterInv s) (r : RcReader) :
    RcWriterInv { s with reader := r } :=
  ⟨h.seq_eq, h.stable, h.facts⟩

def rcCopied : RcReaderPc → RcCell → Prop
  | .copyChannel k, .channel j => j < k
  | .copyStamp, .channel _ => True
  | .copyValid, .channel _ => True
  | .copyValid, .stampMs => True
  | .tail, _ => True
  | _, _ => False

theorem rcCopied_channel {j k : Fin 16} (hj : j ≤ k) :
    RcCell.channel j = .channel k ∨ rcCopied (.copyChannel k) (.channel j) := by
  rcases Fin.lt_or_eq_of_le hj with hlt | rfl
  · exact Or.inr hlt
  · exact Or.inl rfl

def RcReaderFacts (s : RcInput) : Prop :=
  match s.reader.pc with
  | .idle | .head => True
  | .copyChannel _ | .copyStamp | .copyValid | .tail =>
      Copied s.latest s.reader.incsAtHead (rcCopied s.reader.pc) s.reader.dest
  | .test => s.reader.seqStart = s.reader.seqEnd → s.reader.dest ∈ s.latest.committed
  | .returned => s.reader.dest ∈ s.latest.committed

/-- The states in which the reader's next step goes wrong: `g_rc_seq` is
odd and is the `seq_end` of an earlier turn, or it has come round to the
word it was when the copy began. -/
def RcHazard (s : RcInput) : Prop :=
  (s.reader.pc = .head ∧ s.seq &&& 1 ≠ 0 ∧ s.seq = s.reader.seqEnd) ∨
    (s.reader.pc = .tail ∧ s.seq = s.reader.seqStart ∧ s.latest.incs ≠ s.reader.incsAtHead)

instance (s : RcInput) : Decidable (RcHazard s) := inferInstanceAs (Decidable (_ ∨ _))

theorem RcReaderFacts.write {s s' : RcInput} (hf : RcReaderFacts s)
    (h : Write s.latest s'.latest ∨ s'.latest = s.latest) (hr : s'.reader = s.reader) :
    RcReaderFacts s' := by
  have hcommitted : ∀ v : RcSample, v ∈ s.latest.committed → v ∈ s'.latest.committed := by
    intro v hv
    rcases h with h | h
    · exact committed_write h hv
    · rwa [h]
  have hcopied : ∀ {start done dest}, Copied s.latest start done dest →
      Copied s'.latest start done dest := by
    intro start done dest hc
    rcases h with h | h
    · exact hc.write h
    · rwa [h]
  unfold RcReaderFacts at hf ⊢
  rw [hr]
  cases hpc : s.reader.pc <;> simp only [hpc] at hf ⊢
  case copyChannel k => exact hcopied hf
  case copyStamp => exact hcopied hf
  case copyValid => exact hcopied hf
  case tail => exact hcopied hf
  case test => exact fun heq => hcommitted _ (hf heq)
  case returned => exact hcommitted _ hf

/-- A step of the reader out of a state without hazard. -/
theorem rcInputLatestGet_spec {s s' : RcInput} (h : rcInputLatestGet s = some s')
    (hinv : RcWriterInv s) (hf : RcReaderFacts s) (hok : ¬ RcHazard s) :
    RcWriterInv s' ∧ RcReaderFacts s' := by
  unfold RcReaderFacts at hf
  cases rcInputLatestGet_cases h with
  | odd hpc hodd =>
      refine ⟨hinv.read _, fun heq => ?_⟩
      exact absurd (Or.inl ⟨hpc, hodd, heq⟩) hok
  | even hpc heven =>
      refine ⟨hinv.read _, ?_⟩
      refine (Copied.start (word_even hinv.seq_eq heven) s.reader.dest).mono fun c hc => ?_
      cases c with
      | channel j => exact absurd hc (Fin.not_lt_zero j)
      | valid | stampMs => exact hc
  | @copyChannel k hpc =>
      simp only [hpc] at hf
      refine ⟨hinv.read _, ?_⟩
      have hload := hf.load (.channel k)
      by_cases hk : k.val + 1 < 16
      · simp only [RcReaderFacts, dif_pos hk]
        refine hload.mono fun c hc => ?_
        cases c with
        | channel j => exact rcCopied_channel (Nat.le_of_lt_succ hc)
        | valid | stampMs => exact absurd hc id
      · simp only [RcReaderFacts, dif_neg hk]
        refine hload.mono fun c hc => ?_
        cases c with
        | channel j =>
            have hj : j ≤ k := by
              rw [Fin.le_def]
              omega
            exact rcCopied_channel hj
        | valid | stampMs => exact absurd hc id
  | copyStamp hpc =>
      simp only [hpc] at hf
      refine ⟨hinv.read _, (hf.load .stampMs).mono fun c hc => ?_⟩
      cases c with
      | channel j => exact Or.inr trivial
      | valid => exact absurd hc id
      | stampMs => exact Or.inl rfl
  | copyValid hpc =>
      simp only [hpc] at hf
      refine ⟨hinv.read _, (hf.load .valid).mono fun c _ => ?_⟩
      cases c with
      | channel j => exact Or.inr trivial
      | valid => exact Or.inl rfl
      | stampMs => exact Or.inr trivial
  | tail hpc =>
      simp only [hpc] at hf
      refine ⟨hinv.read _, fun heq => ?_⟩
      have hincs : s.latest.incs = s.reader.incsAtHead := by
        by_contra hne
        exact hok (Or.inr ⟨hpc, heq.symm, hne⟩)
      exact hf.mem_committed hinv.stable (fun _ => trivial) hincs
  | again hpc hne => exact ⟨hinv.read _, trivial⟩
  | done hpc heq =>
      simp only [hpc] at hf
      exact ⟨hinv.read _, hf heq⟩

/-! ## Runs -/

/-- A step is taken in a state without hazard for it. -/
def RcStepOk (s : RcInput) : RcAction → Prop
  | .read => ¬ RcHazard s
  | _ => True

instance (s : RcInput) : (a : RcAction) → Decidable (RcStepOk s a)
  | .read => inferInstanceAs (Decidable (¬ RcHazard s))
  | .event _ | .write _ | .call _ => isTrue trivial

def RcRunOk (s : RcInput) (as : List RcAction) : Prop := Guarded.Ok rcStep RcStepOk s as

instance (s : RcInput) (as : List RcAction) : Decidable (RcRunOk s as) :=
  Guarded.Ok.decidable rcStep RcStepOk s as

theorem rcInputInit_inv (pubReady : Bool) :
    RcWriterInv (rcInputInit pubReady) ∧ RcReaderFacts (rcInputInit pubReady) :=
  ⟨⟨rfl, fun _ => List.mem_singleton.mpr rfl, rfl⟩, trivial⟩

theorem rcInputStage_keeps (s : RcInput) (evt : InputEvent) :
    (rcInputStage s evt).latest = s.latest ∧ (rcInputStage s evt).seq = s.seq ∧
      (rcInputStage s evt).reader = s.reader := by
  unfold rcInputStage
  (repeat' split) <;> exact ⟨rfl, rfl, rfl⟩

theorem rcStep_inv (s : RcInput) (a : RcAction) (s' : RcInput) (hok : RcStepOk s a)
    (hinv : RcWriterInv s ∧ RcReaderFacts s) (h : rcStep s a = some s') :
    RcWriterInv s' ∧ RcReaderFacts s' := by
  obtain ⟨hw, hr⟩ := hinv
  cases a with
  | event evt =>
      simp only [rcStep] at h
      split at h
      · rename_i hidle
        obtain rfl := Option.some.inj h
        obtain ⟨hseq, hstable, hfacts⟩ := hw
        simp only [RcWriterFacts, hidle] at hfacts
        obtain ⟨hlatest, hseq', hreader⟩ := rcInputStage_keeps s evt
        refine ⟨⟨?_, ?_, ?_⟩, hr.write (Or.inr hlatest) hreader⟩
        · simp only [hlatest, hseq', hseq]
        · simp only [hlatest, hstable]
        · simp only [RcWriterFacts, hlatest]
          cases evt.sync <;> exact hfacts
      · cases h
  | write uptime =>
      obtain ⟨hw', hwrite, hreader⟩ := rcInputWrite_spec h hw
      exact ⟨hw', hr.write hwrite hreader⟩
  | call dest =>
      simp only [rcStep] at h
      split at h
      · obtain rfl := Option.some.inj h
        exact ⟨hw.read _, trivial⟩
      · cases h
  | read => exact rcInputLatestGet_spec h hw hr hok

theorem rcRun_inv {s s' : RcInput} {as : List RcAction} (h : rcRun s as = some s')
    (hinv : RcWriterInv s ∧ RcReaderFacts s) (hok : RcRunOk s as) :
    RcWriterInv s' ∧ RcReaderFacts s' :=
  Guarded.ok_keeps rcStep rcStep_inv hinv hok h

/-- In every run that takes no step of the reader in a state with a hazard,
what `rdd2_rc_input_latest_get` hands back is the sample of one completed
event, or the defaults. -/
theorem latest_get_committed (pubReady : Bool) (actions : List RcAction) (s : RcInput)
    (hrun : rcRun (rcInputInit pubReady) actions = some s)
    (hok : RcRunOk (rcInputInit pubReady) actions) (hreturned : s.reader.pc = .returned) :
    s.reader.dest ∈ s.latest.committed := by
  obtain ⟨-, hfacts⟩ := rcRun_inv hrun (rcInputInit_inv pubReady) hok
  simpa only [RcReaderFacts, hreturned] using hfacts

/-- Sixteen channels, validity, stamp, both increments and the publication. -/
def rcUpdate : List RcAction := List.replicate 21 (.write 50)

/-- A snapshot taken after the first channel of an update was stored is
thrown away, and taken again after the update. -/
theorem latest_get_committed_retry :
    let actions : List RcAction :=
      [.event ⟨true, inputEvAbs, 5, 2000⟩, .call (rcSample (fun _ => 0) false 0), .read,
        .write 50, .write 50] ++ List.replicate 20 .read ++ rcUpdate.drop 2
        ++ List.replicate 21 .read
    ∃ s, rcRun (rcInputInit true) actions = some s ∧ s.reader.dest ∈ s.latest.committed := by
  intro actions
  have hpc : (rcRun (rcInputInit true) actions).map (fun s => s.reader.pc) = some .returned := by
    decide +kernel
  obtain ⟨s, hs, hreturned⟩ := Option.map_eq_some_iff.mp hpc
  exact ⟨s, hs, latest_get_committed true actions s hs (by decide +kernel) hreturned⟩

/-- The first channel and the arm switch change in one update. The reader
begins before it, copies after the first channel was stored, and finds the
counter odd at the end of that turn and at the beginning of the next: it
returns the new first channel with the old arm switch. No update committed
this, neither then nor when the update in progress is complete. -/
theorem latest_get_torn :
    let actions : List RcAction :=
      [.event ⟨false, inputEvAbs, 1, 1100⟩, .event ⟨true, inputEvAbs, 5, 2000⟩,
        .call (rcSample (fun _ => 0) false 0), .read, .write 50, .write 50]
        ++ List.replicate 22 .read ++ rcUpdate.drop 2
    ∃ s, rcRun (rcInputInit true) actions = some s ∧ s.reader.pc = .returned ∧
      s.reader.dest ∉ s.latest.committed := by
  intro actions
  have hview : (rcRun (rcInputInit true) actions).map (fun s =>
      (s.reader.pc, (s.reader.dest (.channel 0) : Int), (s.reader.dest (.channel 4) : Int),
        s.latest.committed.map fun c => ((c (.channel 0) : Int), (c (.channel 4) : Int))))
      = some (.returned, 1100, 1500, [(1100, 2000), (1500, 1500)]) := by
    decide +kernel
  obtain ⟨s, hs, heq⟩ := Option.map_eq_some_iff.mp hview
  simp only [Prod.mk.injEq] at heq
  obtain ⟨hpc, hfirst, harm, hcommitted⟩ := heq
  refine ⟨s, hs, hpc, fun hmem => ?_⟩
  have hpair := List.mem_map_of_mem
    (f := fun c : RcSample => ((c (.channel 0) : Int), (c (.channel 4) : Int))) hmem
  rw [hcommitted, hfirst, harm] at hpair
  simp at hpair

end Rdd2
