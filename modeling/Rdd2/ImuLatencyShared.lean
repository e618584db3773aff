import Rdd2.Guarded
import Rdd2.ImuLatencyStats
import Rdd2.Seqlock

/-!
# Latency snapshots between threads

`rdd2_imu_latency_stats_publish` against `rdd2_imu_latency_stats_get`, one
memory access to a step. The fields of a snapshot are copied one after the
other, in an order the compiler chooses: both copies may take any field that is
still to come.

The loop of the reader says `continue` where the counter is odd, and `continue`
goes to the condition, which then compares with an `end_sequence` of an earlier
turn or with none at all. Unlike the RC reader's, this condition also asks for
an even `end_sequence`: an odd counter equal to it is odd on both sides, so the
loop goes on. What is returned is therefore always a whole copy under an
unchanged counter (`snapshot_never_torn`).
-/

namespace Rdd2.ImuLatency

open Seqlock

/-! ## Data -/

inductive Field where
  | lastUs
  | minUs
  | maxUs
  | meanUs
  | stddevUs
  | sampleCount
  deriving DecidableEq, Repr

def fields : List Field := [.lastUs, .minUs, .maxUs, .meanUs, .stddevUs, .sampleCount]

theorem mem_fields (c : Field) : c ∈ fields := by
  cases c <;> decide

abbrev Field.Val (F : Type) : Field → Type
  | .lastUs | .minUs | .maxUs => UInt32
  | .meanUs | .stddevUs => F
  | .sampleCount => UInt64

variable {F : Type}

def cells (snapshot : ImuLatencySnapshot F) : ∀ c : Field, c.Val F
  | .lastUs => snapshot.lastUs
  | .minUs => snapshot.minUs
  | .maxUs => snapshot.maxUs
  | .meanUs => snapshot.meanUs
  | .stddevUs => snapshot.stddevUs
  | .sampleCount => snapshot.sampleCount

def ofCells (mem : ∀ c : Field, c.Val F) : ImuLatencySnapshot F :=
  ⟨mem .lastUs, mem .minUs, mem .maxUs, mem .meanUs, mem .stddevUs, mem .sampleCount⟩

@[simp] theorem ofCells_cells (snapshot : ImuLatencySnapshot F) :
    ofCells (cells snapshot) = snapshot := rfl

/-- Where `rdd2_imu_latency_stats_publish` is. -/
inductive WriterPc (F : Type) where
  | idle
  | enter (snapshot : ImuLatencySnapshot F)
  | copy (snapshot : ImuLatencySnapshot F) (todo : List Field)
  | leave (snapshot : ImuLatencySnapshot F)

/-- Where `rdd2_imu_latency_stats_get` is. -/
inductive ReaderPc where
  | idle
  | head
  | copy (todo : List Field)
  | tail
  | test
  deriving DecidableEq, Repr

/-- A call of `rdd2_imu_latency_stats_get`: its locals, what `snapshot` points
to, and how many increments the counter had seen when this turn of the loop
began, which no step reads. -/
structure Reader (F : Type) where
  pc : ReaderPc
  startSequence : UInt32
  endSequence : UInt32
  dest : ∀ c : Field, c.Val F
  incsAtHead : Nat

/-- What a call that was not given NULL filled in and answered. -/
structure Returned (F : Type) where
  snapshot : ImuLatencySnapshot F
  result : Bool
  deriving DecidableEq, Repr

/-- `sequence` and `snapshot` of `g_rdd2_imu_latency_stats`, the two threads, the
snapshots whose publication is complete, and what the calls of `get` returned:
`none` for NULL. -/
structure System (F : Type) where
  sequence : UInt32
  latest : Shared (Field.Val F)
  published : List (ImuLatencySnapshot F)
  writer : WriterPc F
  reader : Reader F
  returned : List (Option (Returned F))

/-- After `rdd2_imu_latency_stats_reset`. -/
def boot [CFloat F] : System F where
  sequence := 0
  latest := ⟨0, cells (.zero F), [cells (.zero F)]⟩
  published := []
  writer := .idle
  reader := ⟨.idle, 0, 0, cells (.zero F), 0⟩
  returned := []

/-! ## Steps -/

/-- The next step of `rdd2_imu_latency_stats_publish`; `c` is the field that is
copied next, where one is. -/
def publishStep (s : System F) (c : Field) : Option (System F) :=
  match s.writer with
  | .idle => none
  | .enter snapshot => some { s with
      sequence := s.sequence + 1
      latest.incs := s.latest.incs + 1
      writer := .copy snapshot fields }
  | .copy snapshot todo =>
      if c ∈ todo then
        some { s with
          latest.mem := Function.update s.latest.mem c (cells snapshot c)
          writer := if todo.erase c = [] then .leave snapshot else .copy snapshot (todo.erase c) }
      else none
  | .leave snapshot => some { s with
      sequence := s.sequence + 1
      latest.incs := s.latest.incs + 1
      latest.committed := s.latest.mem :: s.latest.committed
      published := s.published ++ [snapshot]
      writer := .idle }

/-- The next step of `rdd2_imu_latency_stats_get`. -/
def getStep (s : System F) (c : Field) : Option (System F) :=
  let r := s.reader
  match r.pc with
  | .idle => none
  | .head =>
      let r := { r with startSequence := s.sequence, incsAtHead := s.latest.incs }
      -- `continue` goes to the condition of the loop
      if s.sequence &&& 1 ≠ 0 then some { s with reader := { r with pc := .test } }
      else some { s with reader := { r with pc := .copy fields } }
  | .copy todo =>
      if c ∈ todo then
        some { s with reader := { r with
          dest := Function.update r.dest c (s.latest.mem c)
          pc := if todo.erase c = [] then .tail else .copy (todo.erase c) } }
      else none
  | .tail => some { s with reader := { r with endSequence := s.sequence, pc := .test } }
  | .test =>
      if r.startSequence ≠ r.endSequence ∨ r.endSequence &&& 1 ≠ 0 then
        some { s with reader := { r with pc := .head } }
      else
        let snapshot := ofCells r.dest
        some { s with
          reader := { r with pc := .idle }
          returned := s.returned ++ [some ⟨snapshot, decide (snapshot.sampleCount ≠ 0)⟩] }

inductive Event (F : Type) where
  | publish (snapshot : ImuLatencySnapshot F)
  | write (c : Field)
  /-- A call of `get` on the variable `dest`, NULL for `none`, with whatever
  `end_sequence` starts with. -/
  | call (dest : Option (ImuLatencySnapshot F)) (endSequence : UInt32)
  | read (c : Field)

def step (s : System F) : Event F → Option (System F)
  | .publish snapshot =>
      match s.writer with
      | .idle => some { s with writer := .enter snapshot }
      | _ => none
  | .write c => publishStep s c
  | .call dest endSequence =>
      if s.reader.pc = .idle then
        match dest with
        | none => some { s with returned := s.returned ++ [none] }
        | some dest => some { s with reader :=
            { s.reader with pc := .head, endSequence := endSequence, dest := cells dest } }
      else none
  | .read c => getStep s c

/-! ## One publication -/

/-- A publication without anything in between. -/
def publication (snapshot : ImuLatencySnapshot F) : List (Event F) :=
  [.publish snapshot, .write .lastUs] ++ fields.map .write ++ [.write .lastUs]

/-- The shared memory holds what the statistics say they published. -/
structure Shows {D : Type} (s : System F) (stats : ImuLatencyStats F D) : Prop where
  idle : s.writer = .idle
  sequence : s.sequence = stats.sequence
  snapshot : ofCells s.latest.mem = stats.snapshot

/-- The steps of a publication, undisturbed, are the one step of
`imuLatencyStatsPublish`. -/
theorem publication_shows {D : Type} {s : System F} {stats : ImuLatencyStats F D}
    (h : Shows s stats) (snapshot : ImuLatencySnapshot F) :
    ∃ t, Guarded.run step s (publication snapshot) = some t ∧
      Shows t (imuLatencyStatsPublish stats snapshot) := by
  obtain ⟨hidle, hsequence, -⟩ := h
  refine ⟨_, by simp [publication, fields, Guarded.run, step, publishStep, hidle]; rfl, ?_⟩
  refine ⟨rfl, ?_, ?_⟩
  · simp [imuLatencyStatsPublish, hsequence]
  · simp [imuLatencyStatsPublish, ofCells, cells]

/-! ## The writer -/

def WriterFacts (s : System F) : Prop :=
  match s.writer with
  | .idle | .enter _ => s.latest.incs % 2 = 0
  | .copy snapshot todo =>
      s.latest.incs % 2 = 1 ∧ ∀ c, c ∉ todo → s.latest.mem c = cells snapshot c
  | .leave snapshot => s.latest.incs % 2 = 1 ∧ s.latest.mem = cells snapshot

theorem stored {mem : ∀ c : Field, c.Val F} {snapshot : ImuLatencySnapshot F} {todo : List Field}
    (h : ∀ c, c ∉ todo → mem c = cells snapshot c) (c d : Field) (hd : d ∉ todo.erase c) :
    Function.update mem c (cells snapshot c) d = cells snapshot d := by
  by_cases hdc : d = c
  · subst hdc
    exact Function.update_self ..
  · rw [Function.update_of_ne hdc]
    exact h d fun hmem => hd ((List.mem_erase_of_ne hdc).mpr hmem)

variable [CFloat F]

def System.Published (s : System F) (snapshot : ImuLatencySnapshot F) : Prop :=
  snapshot = .zero F ∨ snapshot ∈ s.published

structure WriterInv (s : System F) : Prop where
  sequence_eq : s.sequence = UInt32.ofNat s.latest.incs
  stable : Stable s.latest
  count : s.latest.incs = 2 * s.published.length + s.latest.incs % 2
  committed : ∀ mem ∈ s.latest.committed, s.Published (ofCells mem)
  facts : WriterFacts s

theorem boot_writerInv : WriterInv (boot : System F) where
  sequence_eq := rfl
  stable := fun _ => List.mem_singleton.mpr rfl
  count := rfl
  committed := by
    intro mem hmem
    rw [boot, List.mem_singleton] at hmem
    exact Or.inl (by rw [hmem, ofCells_cells])
  facts := rfl

theorem publishStep_spec {s t : System F} {c : Field} (h : publishStep s c = some t)
    (hinv : WriterInv s) :
    WriterInv t ∧ Write s.latest t.latest ∧ t.reader = s.reader ∧ t.returned = s.returned ∧
      s.published <+: t.published := by
  obtain ⟨hseq, hstable, hcount, hcommitted, hfacts⟩ := hinv
  unfold WriterFacts at hfacts
  cases hw : s.writer with
  | idle => simp only [publishStep, hw, reduceCtorEq] at h
  | enter snapshot =>
      simp only [hw] at hfacts
      simp only [publishStep, hw, Option.some.injEq] at h
      subst h
      have hwrite := Write.enter s.latest hfacts
      refine ⟨⟨word_succ hseq, .write hwrite, ?_, hcommitted, ?_⟩, hwrite, rfl, rfl, List.prefix_rfl⟩
      · simp only
        omega
      · refine ⟨?_, fun d hd => absurd (mem_fields d) hd⟩
        simp only
        omega
  | copy snapshot todo =>
      simp only [hw] at hfacts
      simp only [publishStep, hw] at h
      split at h
      · obtain rfl := Option.some.inj h
        have hwrite := Write.store s.latest hfacts.1 c (cells snapshot c)
        have hstored := stored hfacts.2 c
        refine ⟨⟨hseq, .write hwrite, hcount, hcommitted, ?_⟩, hwrite, rfl, rfl, List.prefix_rfl⟩
        by_cases hlast : todo.erase c = []
        · simp only [WriterFacts, if_pos hlast]
          refine ⟨hfacts.1, funext fun d => hstored d ?_⟩
          rw [hlast]
          exact List.not_mem_nil
        · simp only [WriterFacts, if_neg hlast]
          exact ⟨hfacts.1, hstored⟩
      · cases h
  | leave snapshot =>
      simp only [hw] at hfacts
      simp only [publishStep, hw, Option.some.injEq] at h
      subst h
      have hwrite := Write.leave s.latest hfacts.1
      refine ⟨⟨word_succ hseq, .write hwrite, ?_, ?_, ?_⟩, hwrite, rfl, rfl,
        List.prefix_append _ _⟩
      · simp only [List.length_append, List.length_singleton]
        omega
      · intro mem hmem
        rcases List.mem_cons.mp hmem with rfl | hold
        · rw [hfacts.2, ofCells_cells]
          exact Or.inr (by simp)
        · exact (hcommitted mem hold).imp_right (List.mem_append_left _)
      · simp only [WriterFacts]
        omega

/-! ## The reader -/

/-- So few publications that the counter has not come round. -/
def System.Few (s : System F) : Prop := s.published.length < 2 ^ 31

theorem WriterInv.read {s : System F} (h : WriterInv s) (r : Reader F)
    (returned : List (Option (Returned F))) :
    WriterInv { s with reader := r, returned := returned } :=
  ⟨h.sequence_eq, h.stable, h.count, h.committed, h.facts⟩

theorem WriterInv.incs_lt {s : System F} (h : WriterInv s) (hfew : s.Few) :
    s.latest.incs < 2 ^ 32 := by
  have hcount := h.count
  have hpublished : s.published.length < 2 ^ 31 := hfew
  omega

def copied : ReaderPc → Field → Prop
  | .copy todo, c => c ∉ todo
  | _, _ => True

def ReaderFacts (s : System F) : Prop :=
  match s.reader.pc with
  | .idle | .head => True
  | .copy _ | .tail =>
      s.reader.startSequence = UInt32.ofNat s.reader.incsAtHead ∧
        Copied s.latest s.reader.incsAtHead (copied s.reader.pc) s.reader.dest
  | .test =>
      s.Few → s.reader.startSequence = s.reader.endSequence → s.reader.endSequence &&& 1 = 0 →
        s.Published (ofCells s.reader.dest)

structure Inv (s : System F) : Prop where
  writer : WriterInv s
  reader : ReaderFacts s
  returned : s.Few → ∀ r, some r ∈ s.returned →
    s.Published r.snapshot ∧ r.result = decide (r.snapshot.sampleCount ≠ 0)

theorem boot_inv : Inv (boot : System F) := ⟨boot_writerInv, trivial, fun _ _ => nofun⟩

theorem Inv.publishStep {s t : System F} {c : Field} (hinv : Inv s)
    (h : publishStep s c = some t) : Inv t := by
  obtain ⟨hwriter, hwrite, hreader, hreturned, hpublished⟩ := publishStep_spec h hinv.writer
  have hkeeps : ∀ {snapshot}, s.Published snapshot → t.Published snapshot :=
    fun hs => hs.imp_right fun hmem => hpublished.subset hmem
  have hfew : t.Few → s.Few := Nat.lt_of_le_of_lt hpublished.length_le
  have hfacts := hinv.reader
  refine ⟨hwriter, ?_, ?_⟩
  · unfold ReaderFacts at hfacts ⊢
    rw [hreader]
    cases hpc : s.reader.pc <;> simp only [hpc] at hfacts ⊢
    case copy todo => exact ⟨hfacts.1, hfacts.2.write hwrite⟩
    case tail => exact ⟨hfacts.1, hfacts.2.write hwrite⟩
    case test => exact fun ht heq heven => hkeeps (hfacts (hfew ht) heq heven)
  · rw [hreturned]
    intro ht r hr
    obtain ⟨hsnapshot, hresult⟩ := hinv.returned (hfew ht) r hr
    exact ⟨hkeeps hsnapshot, hresult⟩

/-- A turn of the loop ends in a published snapshot: an odd counter goes round
whatever `end_sequence` is, and a whole copy under an unchanged counter is one. -/
theorem Inv.getStep {s t : System F} {c : Field} (hinv : Inv s) (h : getStep s c = some t) :
    Inv t := by
  obtain ⟨hwriter, hfacts, hreturned⟩ := hinv
  unfold ReaderFacts at hfacts
  cases hpc : s.reader.pc with
  | idle => simp only [ImuLatency.getStep, hpc, reduceCtorEq] at h
  | head =>
      simp only [ImuLatency.getStep, hpc] at h
      split at h
      · rename_i hodd
        obtain rfl := Option.some.inj h
        refine ⟨hwriter.read _ _, ?_, hreturned⟩
        intro _ heq heven
        simp only at heq heven
        rw [← heq] at heven
        exact absurd heven hodd
      · rename_i heven
        obtain rfl := Option.some.inj h
        refine ⟨hwriter.read _ _, ⟨hwriter.sequence_eq, ?_⟩, hreturned⟩
        exact (Copied.start (word_even hwriter.sequence_eq heven) s.reader.dest).mono
          fun c hc => absurd (mem_fields c) hc
  | copy todo =>
      simp only [hpc] at hfacts
      simp only [ImuLatency.getStep, hpc] at h
      split at h
      · obtain rfl := Option.some.inj h
        refine ⟨hwriter.read _ _, ?_, hreturned⟩
        have hload := hfacts.2.load c
        have hleft : ∀ d, d ∉ todo.erase c → d = c ∨ d ∉ todo := by
          intro d hd
          by_cases hdc : d = c
          · exact Or.inl hdc
          · exact Or.inr fun hmem => hd ((List.mem_erase_of_ne hdc).mpr hmem)
        by_cases hlast : todo.erase c = []
        · simp only [ReaderFacts, if_pos hlast]
          refine ⟨hfacts.1, hload.mono fun d _ => hleft d ?_⟩
          rw [hlast]
          exact List.not_mem_nil
        · simp only [ReaderFacts, if_neg hlast]
          exact ⟨hfacts.1, hload.mono hleft⟩
      · cases h
  | tail =>
      simp only [hpc] at hfacts
      simp only [ImuLatency.getStep, hpc, Option.some.injEq] at h
      subst h
      refine ⟨hwriter.read _ _, ?_, hreturned⟩
      intro hfew heq _
      have hlt := hwriter.incs_lt hfew
      have hincs : s.latest.incs = s.reader.incsAtHead :=
        word_inj hwriter.sequence_eq (heq.symm.trans hfacts.1) hlt
          (Nat.lt_of_le_of_lt hfacts.2.le hlt)
      exact hwriter.committed _
        (hfacts.2.mem_committed hwriter.stable (fun _ => trivial) hincs)
  | test =>
      simp only [hpc] at hfacts
      simp only [ImuLatency.getStep, hpc] at h
      split at h
      · obtain rfl := Option.some.inj h
        exact ⟨hwriter.read _ _, trivial, hreturned⟩
      · rename_i hpass
        obtain rfl := Option.some.inj h
        rw [not_or, Decidable.not_not, Decidable.not_not] at hpass
        refine ⟨hwriter.read _ _, trivial, ?_⟩
        intro hfew r hr
        rcases List.mem_append.mp hr with hold | hnew
        · exact hreturned hfew r hold
        · rw [List.mem_singleton, Option.some.injEq] at hnew
          subst hnew
          exact ⟨hfacts hfew hpass.1 hpass.2, rfl⟩

theorem Inv.step {s t : System F} {e : Event F} (hinv : Inv s) (h : step s e = some t) : Inv t := by
  obtain ⟨hwriter, hfacts, hreturned⟩ := hinv
  cases e with
  | publish snapshot =>
      simp only [ImuLatency.step] at h
      split at h
      · rename_i hidle
        obtain rfl := Option.some.inj h
        have hw := hwriter.facts
        simp only [WriterFacts, hidle] at hw
        exact ⟨⟨hwriter.sequence_eq, hwriter.stable, hwriter.count, hwriter.committed, hw⟩, hfacts,
          hreturned⟩
      · cases h
  | write c => exact Inv.publishStep ⟨hwriter, hfacts, hreturned⟩ h
  | call dest endSequence =>
      simp only [ImuLatency.step] at h
      split at h
      · cases dest with
        | none =>
            obtain rfl := Option.some.inj h
            refine ⟨hwriter.read _ _, hfacts, fun hfew r hr => ?_⟩
            rcases List.mem_append.mp hr with hold | hnull
            · exact hreturned hfew r hold
            · simp at hnull
        | some dest =>
            obtain rfl := Option.some.inj h
            exact ⟨hwriter.read _ _, trivial, hreturned⟩
      · cases h
  | read c => exact Inv.getStep ⟨hwriter, hfacts, hreturned⟩ h

theorem run_inv {events : List (Event F)} {s : System F}
    (hrun : Guarded.run step boot events = some s) : Inv s :=
  Guarded.run_inv step (fun _ _ _ hinv h => hinv.step h) boot_inv hrun

/-- In every interleaving with fewer than 2^31 publications: what a call of
`rdd2_imu_latency_stats_get` fills in and returns is one published snapshot, or
that of the reset. -/
theorem snapshot_never_torn {events : List (Event F)} {s : System F}
    (hrun : Guarded.run step boot events = some s) (hfew : s.published.length < 2 ^ 31)
    {r : Returned F} (hreturned : some r ∈ s.returned) :
    (r.snapshot = .zero F ∨ r.snapshot ∈ s.published) ∧
      r.result = decide (r.snapshot.sampleCount ≠ 0) :=
  (run_inv hrun).returned hfew r hreturned

/-- A snapshot, and a call that begins in the middle of its publication with 1,
the word of the counter, for `end_sequence`. -/
theorem snapshot_never_torn_midway :
    let snapshot : ImuLatencySnapshot Rat := ⟨4, 2, 4, 3, 1, 2⟩
    let events := (publication snapshot).take 3 ++ [.call (some (.zero Rat)) 1, .read .lastUs,
      .read .lastUs] ++ (publication snapshot).drop 3 ++ [.read .lastUs] ++ fields.map .read
      ++ [.read .lastUs, .read .lastUs]
    ∃ s, Guarded.run step boot events = some s ∧ some ⟨snapshot, true⟩ ∈ s.returned ∧
      (snapshot = .zero Rat ∨ snapshot ∈ s.published) := by
  intro snapshot events
  obtain ⟨s, hrun, hreturned, hfew⟩ : ∃ s, Guarded.run step boot events = some s ∧
      some ⟨snapshot, true⟩ ∈ s.returned ∧ s.published.length < 2 ^ 31 :=
    Guarded.run_any step (by decide +kernel)
  exact ⟨s, hrun, hreturned, (snapshot_never_torn hrun hfew hreturned).1⟩

end Rdd2.ImuLatency
