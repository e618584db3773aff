import Rdd2.Guarded

/-!
# Reading the GNSS fix

`rdd2_topic_gnss_copy`, one access to `topic_gnss_fix` at a time, among
publications by other threads. A publication is one more sample and one more
generation; `zros_topic_read` fails, or returns the one whole sample that was
current at some instant of the call, and that instant is its step here.

The function samples the generation after the read, and its comment says that
this describes the sample the caller got. It does so only when nothing is
published between the two (`gnss_generation_iff`): the retry it speaks of makes
the sample newer than a generation read before it, never older than one read
after it. The telemetry sender, `tx_topic_if_due`, takes the other order.
-/

namespace Rdd2.GnssTopic

variable {Fix : Type}

/-- What a call that returned true stored in `*fix` and, where its pointer was
not null, in `*generation`. No step reads the rest: which of the samples `fix`
is, and how many were published between the read and the generation. -/
structure Copy (Fix : Type) where
  fix : Fix
  generation : Option UInt32
  ordinal : Nat
  landed : Nat
  deriving DecidableEq, Repr

/-- Where `rdd2_topic_gnss_copy` is; `wanted` is `generation != NULL`. -/
inductive Pc (Fix : Type) where
  | idle
  | hasSample (wanted : Bool)
  /-- In `zros_topic_read`. -/
  | read (wanted : Bool)
  /-- With the fix read. -/
  | generation (wanted : Bool) (fix : Fix) (ordinal landed : Nat)

/-- The topic with the samples published on it, a caller, and what its calls have
returned, `none` for false. -/
structure System (Fix : Type) where
  samples : List Fix
  pc : Pc Fix
  returned : List (Option (Copy Fix))

inductive Event (Fix : Type) where
  /-- Another thread publishes. -/
  | publish (fix : Fix)
  /-- The call; `fixNull` and `generationNull` are its arguments. -/
  | call (fixNull generationNull : Bool)
  /-- `zros_topic_read` takes its sample, or fails. -/
  | read (ok : Bool)
  /-- Any other step of the call. -/
  | thread

def boot : System Fix := ⟨[], .idle, []⟩

/-- `rdd2_topic_generation` -/
def System.generation (s : System Fix) : UInt32 := UInt32.ofNat s.samples.length

def System.returns (s : System Fix) (result : Option (Copy Fix)) : System Fix :=
  { s with pc := .idle, returned := s.returned ++ [result] }

/-- `rdd2_topic_gnss_copy`, among publications. -/
def step (s : System Fix) : Event Fix → Option (System Fix)
  | .publish fix =>
      let samples := s.samples ++ [fix]
      match s.pc with
      | .generation wanted got ordinal landed =>
          some { s with samples := samples, pc := .generation wanted got ordinal (landed + 1) }
      | _ => some { s with samples := samples }
  | .call fixNull generationNull =>
      match s.pc with
      | .idle =>
          if fixNull then some (s.returns none)
          else some { s with pc := .hasSample !generationNull }
      | _ => none
  | .read ok =>
      match s.pc, ok with
      | .read _, false => some (s.returns none)
      | .read wanted, true =>
          match s.samples.getLast? with
          | none => none
          | some fix => some { s with pc := .generation wanted fix s.samples.length 0 }
      | _, _ => none
  | .thread =>
      match s.pc with
      | .hasSample wanted =>
          if s.generation = 0 then some (s.returns none)
          else some { s with pc := .read wanted }
      | .generation wanted fix ordinal landed =>
          let generation := if wanted then some s.generation else none
          some (s.returns (some ⟨fix, generation, ordinal, landed⟩))
      | _ => none

/-! ## What a call returns -/

def IsSample (samples : List Fix) (ordinal : Nat) (fix : Fix) : Prop :=
  0 < ordinal ∧ samples[ordinal - 1]? = some fix

theorem IsSample.concat {samples : List Fix} {ordinal : Nat} {fix : Fix}
    (h : IsSample samples ordinal fix) (next : Fix) : IsSample (samples ++ [next]) ordinal fix := by
  obtain ⟨hpos, hfix⟩ := h
  have hlt := (List.getElem?_eq_some_iff.mp hfix).1
  exact ⟨hpos, by rw [List.getElem?_append_left hlt, hfix]⟩

theorem IsSample.last {samples : List Fix} {fix : Fix} (h : samples.getLast? = some fix) :
    IsSample samples samples.length fix := by
  rw [List.getLast?_eq_getElem?] at h
  have hlt := (List.getElem?_eq_some_iff.mp h).1
  exact ⟨by omega, h⟩

/-- The fix is a sample, and the generation counts those that landed later, too. -/
structure Copy.Right (c : Copy Fix) (samples : List Fix) : Prop where
  sample : IsSample samples c.ordinal c.fix
  generation : ∀ g, c.generation = some g → g = UInt32.ofNat (c.ordinal + c.landed)

/-- With the fix read, the samples are those up to it and those that landed. -/
structure System.Inv (s : System Fix) : Prop where
  reading : ∀ wanted fix ordinal landed, s.pc = .generation wanted fix ordinal landed →
    IsSample s.samples ordinal fix ∧ s.samples.length = ordinal + landed
  returned : ∀ c, some c ∈ s.returned → c.Right s.samples

theorem System.Inv.returns {s : System Fix} (h : s.Inv) {result : Option (Copy Fix)}
    (hresult : ∀ c, result = some c → c.Right s.samples) : (s.returns result).Inv := by
  refine ⟨nofun, fun c hc => ?_⟩
  rcases List.mem_append.mp hc with hold | hnew
  · exact h.returned c hold
  · exact hresult c (List.mem_singleton.mp hnew).symm

theorem System.Inv.publish {s : System Fix} (h : s.Inv) (next : Fix) (c : Copy Fix)
    (hc : some c ∈ s.returned) : c.Right (s.samples ++ [next]) :=
  ⟨(h.returned c hc).sample.concat next, (h.returned c hc).generation⟩

theorem step_inv {s t : System Fix} {e : Event Fix} (h : s.Inv) (hstep : step s e = some t) :
    t.Inv := by
  cases e with
  | publish next =>
      simp only [step] at hstep
      split at hstep
      · rename_i wanted got ordinal landed hpc
        cases hstep
        obtain ⟨hsample, hlength⟩ := h.reading _ _ _ _ hpc
        refine ⟨?_, fun c hc => h.publish next c hc⟩
        rintro _ _ _ _ ⟨⟩
        exact ⟨hsample.concat next, by simp only [List.length_append, List.length_singleton]; omega⟩
      · rename_i hpc
        cases hstep
        refine ⟨?_, fun c hc => h.publish next c hc⟩
        intro wanted fix ordinal landed hgeneration
        exact absurd hgeneration (hpc wanted fix ordinal landed)
  | call fixNull generationNull =>
      simp only [step] at hstep
      split at hstep
      · split at hstep
        · cases hstep
          exact h.returns nofun
        · cases hstep
          exact ⟨nofun, h.returned⟩
      · cases hstep
  | read ok =>
      simp only [step] at hstep
      split at hstep
      · cases hstep
        exact h.returns nofun
      · split at hstep
        · cases hstep
        · rename_i hlast
          cases hstep
          refine ⟨?_, h.returned⟩
          rintro _ _ _ _ ⟨⟩
          exact ⟨IsSample.last hlast, rfl⟩
      · cases hstep
  | thread =>
      simp only [step] at hstep
      split at hstep
      · split at hstep
        · cases hstep
          exact h.returns nofun
        · cases hstep
          exact ⟨nofun, h.returned⟩
      · rename_i wanted fix ordinal landed hpc
        cases hstep
        obtain ⟨hsample, hlength⟩ := h.reading _ _ _ _ hpc
        refine h.returns ?_
        rintro _ ⟨⟩
        refine ⟨hsample, fun g hg => ?_⟩
        cases wanted with
        | false => cases hg
        | true =>
            cases hg
            rw [System.generation, hlength]
      · cases hstep

theorem boot_inv : (boot : System Fix).Inv where
  reading := by
    intro wanted fix ordinal landed hpc
    cases hpc
  returned := by
    intro c hc
    cases hc

theorem run_inv {events : List (Event Fix)} {s : System Fix}
    (hrun : Guarded.run step boot events = some s) : s.Inv :=
  Guarded.run_inv step (fun _ _ _ h hstep => step_inv h hstep) boot_inv hrun

/-- In every run the fix a call returns is one of the samples, and the generation
it returns is that sample's if and only if as many samples were published
between the read and the generation as the 32-bit word does not notice. -/
theorem gnss_generation_iff {events : List (Event Fix)} {s : System Fix}
    (hrun : Guarded.run step boot events = some s) {c : Copy Fix} (hreturned : some c ∈ s.returned)
    {g : UInt32} (hgeneration : c.generation = some g) :
    IsSample s.samples c.ordinal c.fix ∧
      (g = UInt32.ofNat c.ordinal ↔ c.landed % 2 ^ 32 = 0) := by
  obtain ⟨hsample, hright⟩ := (run_inv hrun).returned c hreturned
  refine ⟨hsample, ?_⟩
  rw [hright g hgeneration, UInt32.ofNat_eq_iff_mod_eq_toNat, UInt32.toNat_ofNat']
  omega

/-! ## Bench runs -/

def benchCopy (second : List (Event Nat)) : List (Event Nat) :=
  [.publish 1, .call false false, .thread, .read true] ++ second ++ [.thread]

theorem gnss_generation_iff_bench :
    ∃ s, Guarded.run step boot (benchCopy []) = some s ∧ some ⟨1, some 1, 1, 0⟩ ∈ s.returned ∧
      IsSample s.samples 1 1 ∧ ((1 : UInt32) = UInt32.ofNat 1 ↔ 0 % 2 ^ 32 = 0) := by
  obtain ⟨s, hrun, hreturned⟩ : ∃ s, Guarded.run step boot (benchCopy []) = some s ∧
      some ⟨1, some 1, 1, 0⟩ ∈ s.returned := Guarded.run_any step (by decide)
  exact ⟨s, hrun, hreturned, gnss_generation_iff hrun hreturned rfl⟩

/-- The first fix is returned with the generation of the second. -/
theorem stale_fix_newer_generation :
    ¬ ∀ (events : List (Event Nat)) (s : System Nat) (c : Copy Nat) (g : UInt32),
      Guarded.run step boot events = some s → some c ∈ s.returned → c.generation = some g →
      g = UInt32.ofNat c.ordinal := by
  intro h
  obtain ⟨s, hrun, hreturned⟩ : ∃ s, Guarded.run step boot (benchCopy [.publish 2]) = some s ∧
      some ⟨1, some 2, 1, 1⟩ ∈ s.returned := Guarded.run_any step (by decide)
  exact absurd (h _ s _ 2 hrun hreturned rfl) (by decide)

end Rdd2.GnssTopic
