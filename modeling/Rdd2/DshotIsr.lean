import Mathlib.Data.Finset.Max
import Mathlib.Data.Fintype.Basic
import Rdd2.Dshot

/-!
# When the timer loop of the interrupt handler ends

The loop goes on while a pending timer flag is in `dshot_mask`, which is the
mask of the shifters, and each turn clears the timer flag of one channel.
With flags that stay set until they are cleared, `t` turns leave the pending
flags without the timers of the first `t` channels, and the condition looks
at what the turn before the last one left. So the loop ends, and ends with
its timers clear, exactly if the flags it waits for belong to its timers and
the last of them comes late enough that no other timer is left out.
-/

namespace Rdd2

open Flags Loops

variable {n : Nat}

/-- A flag register that raises nothing by itself. -/
def quiet : Nat → Word → Word := fun _ flags => flags

/-- The handler returns with its timer flags clear and the others as they
were. -/
def IsrClears (cfg : DshotConfig n) (shifterFlags : Word) (shiftBufBis : Fin 32 → Word)
    (d : DshotData n) : Prop :=
  ∃ fuel d', isr cfg shifterFlags shiftBufBis quiet fuel d = some d' ∧
    ∀ i, has d'.timerStatus i = (has d.timerStatus i && !has d.dshotTimerMask i)

/-- Every pending flag that looks like a shifter of the driver is a timer of
the driver, and every pending timer of the driver is at most one channel
behind such a flag. -/
def Clearable (cfg : DshotConfig n) (pending : Word) : Prop :=
  (∀ i, has pending i = true → (∃ c, cfg.shifterIndex c = i) → ∃ c, cfg.timerIndex c = i) ∧
    ∀ j, has pending (cfg.timerIndex j) = true →
      ∃ k : Fin n, j.val ≤ k.val + 1 ∧ has pending (cfg.timerIndex k) = true ∧
        ∃ c, cfg.shifterIndex c = cfg.timerIndex k

instance (cfg : DshotConfig n) (pending : Word) : Decidable (Clearable cfg pending) :=
  inferInstanceAs (Decidable (_ ∧ _))

/-! ## Turns of the timer loop -/

theorem isrTimerTurn_status (cfg : DshotConfig n) (d : DshotData n) (c : Fin n) (i : Fin 32) :
    has (isrTimerTurn cfg d.timerStatus d c).timerStatus i =
      (has d.timerStatus i && decide (cfg.timerIndex c ≠ i)) := by
  unfold isrTimerTurn
  split
  · show has (d.timerStatus &&& ~~~bit (cfg.timerIndex c)) i = _
    rw [has_and, has_not, has_bit, ← decide_not]
  · rename_i hclear
    rw [and_bit_ne_zero, Bool.not_eq_true] at hclear
    by_cases hi : cfg.timerIndex c = i
    · subst hi
      simp [hclear]
    · simp [hi]

def turns (cfg : DshotConfig n) (d : DshotData n) (h : 0 < n) (t : Nat) : TimerLoop n :=
  (TimerLoop.turn cfg quiet)^[t] (.enter d h)

theorem turns_succ (cfg : DshotConfig n) (d : DshotData n) (h : 0 < n) (t : Nat) :
    turns cfg d h (t + 1) = (turns cfg d h t).turn cfg quiet :=
  Function.iterate_succ_apply' _ t _

theorem turns_spec (cfg : DshotConfig n) (d : DshotData n) (h : 0 < n) (t : Nat) :
    (turns cfg d h t).channel.val = t % n ∧ (turns cfg d h t).data.dshotMask = d.dshotMask ∧
      ∀ i, has (turns cfg d h t).data.timerStatus i = true ↔
        has d.timerStatus i = true ∧
          ∀ c : Fin n, (∃ m < t, c.val = m % n) → cfg.timerIndex c ≠ i := by
  induction t with
  | zero => exact ⟨rfl, rfl, fun i => by simp [turns, TimerLoop.enter]⟩
  | succ t ih =>
      obtain ⟨hchannel, hmask, hstatus⟩ := ih
      rw [turns_succ]
      refine ⟨?_, (isrTimerTurn_masks cfg _ _ _).1.trans hmask, ?_⟩
      · show ((turns cfg d h t).channel.val + 1) % n = (t + 1) % n
        rw [hchannel, Nat.mod_add_mod]
      · intro i
        refine Iff.trans (iff_of_eq (congrArg (· = true) (isrTimerTurn_status cfg _ _ i))) ?_
        show (has (turns cfg d h t).data.timerStatus i && _) = true ↔ _
        rw [Bool.and_eq_true, hstatus, decide_eq_true_eq, and_assoc]
        refine and_congr_right fun _ => ?_
        constructor
        · rintro ⟨hbefore, hlast⟩ c ⟨m, hm, hc⟩
          rcases Nat.lt_succ_iff_lt_or_eq.mp hm with hm | rfl
          · exact hbefore c ⟨m, hm, hc⟩
          · have hcm : c = (turns cfg d h m).channel := Fin.ext (hc.trans hchannel.symm)
            exact hcm ▸ hlast
        · intro hall
          refine ⟨?_, hall _ ⟨t, Nat.lt_succ_self t, hchannel⟩⟩
          rintro c ⟨m, hm, hc⟩
          exact hall c ⟨m, Nat.lt_succ_of_lt hm, hc⟩

/-- The condition is tested on the flags read before the last clear. -/
theorem turns_cond {cfg : DshotConfig n} {d : DshotData n} (hd : d.Attached cfg) (h : 0 < n)
    (t : Nat) :
    (turns cfg d h t).cond = true ↔
      ∃ c, has (turns cfg d h (t - 1)).data.timerStatus (cfg.shifterIndex c) = true := by
  have hmask := (turns_spec cfg d h t).2.1.trans hd.dshotMask
  have hflags : (turns cfg d h t).flags = (turns cfg d h (t - 1)).data.timerStatus := by
    cases t with
    | zero => rfl
    | succ t => rw [turns_succ]; rfl
  unfold TimerLoop.cond
  rw [decide_eq_true_eq, hmask, hflags, and_ne_zero]
  constructor
  · rintro ⟨i, hi, hshifter⟩
    obtain ⟨c, rfl⟩ := has_ofIndices.mp hshifter
    exact ⟨c, hi⟩
  · rintro ⟨c, hc⟩
    exact ⟨_, hc, has_ofIndices.mpr ⟨c, rfl⟩⟩

/-! ## The end of the loop -/

/-- Where `whileLoop_ends` finds the end of the loop. -/
def ExitsAt (cfg : DshotConfig n) (d : DshotData n) (h : 0 < n) (t : Nat) : Prop :=
  (turns cfg d h t).cond = false ∧ ∀ u < t, (turns cfg d h u).cond = true

/-- The timer flags that are left when the loop ends at turn `t`. -/
def ClearedAt (cfg : DshotConfig n) (d : DshotData n) (h : 0 < n) (t : Nat) : Prop :=
  ∀ i, has (turns cfg d h t).data.timerStatus i = (has d.timerStatus i && !has d.dshotTimerMask i)

theorem isrTimers_clears_iff (cfg : DshotConfig n) (d : DshotData n) (h : 0 < n) :
    (∃ fuel d', isrTimers cfg quiet fuel d = some d' ∧
      ∀ i, has d'.timerStatus i = (has d.timerStatus i && !has d.dshotTimerMask i)) ↔
      ∃ t, ExitsAt cfg d h t ∧ ClearedAt cfg d h t := by
  have hloop (fuel : Nat) : isrTimers cfg quiet fuel d =
      (whileLoop TimerLoop.cond (TimerLoop.turn cfg quiet) fuel (.enter d h)).map
        TimerLoop.data :=
    dif_pos h
  constructor
  · rintro ⟨fuel, d', hrun, hclear⟩
    rw [hloop] at hrun
    obtain ⟨s, hs, rfl⟩ := Option.map_eq_some_iff.mp hrun
    obtain ⟨t, rfl, hexit⟩ := (whileLoop_ends _ _).mp ⟨fuel, hs⟩
    exact ⟨t, hexit, hclear⟩
  · rintro ⟨t, hexit, hclear⟩
    obtain ⟨fuel, hs⟩ := (whileLoop_ends TimerLoop.cond (TimerLoop.turn cfg quiet)).mpr
      ⟨t, rfl, hexit⟩
    refine ⟨fuel, (turns cfg d h t).data, ?_, hclear⟩
    rw [hloop, hs]
    rfl

theorem turns_timer {cfg : DshotConfig n} {d : DshotData n} (h : 0 < n) {t : Nat} {c : Fin n} :
    has (turns cfg d h t).data.timerStatus (cfg.timerIndex c) = true ↔
      has d.timerStatus (cfg.timerIndex c) = true ∧ t ≤ c.val := by
  rw [(turns_spec cfg d h t).2.2]
  refine and_congr_right fun _ => ?_
  constructor
  · intro hall
    by_contra hlt
    exact hall c ⟨c.val, by omega, (Nat.mod_eq_of_lt c.isLt).symm⟩ rfl
  · rintro hle k ⟨m, hm, hk⟩ heq
    have hck : k = c := cfg.timer_injective heq
    have hmod : m % n ≤ m := Nat.mod_le m n
    subst hck
    omega

/-- A flag that is no timer of the driver stays. -/
theorem turns_foreign {cfg : DshotConfig n} {d : DshotData n} (h : 0 < n) {t : Nat} {i : Fin 32}
    (hi : ∀ c, cfg.timerIndex c ≠ i) :
    has (turns cfg d h t).data.timerStatus i = has d.timerStatus i := by
  rw [Bool.eq_iff_iff, (turns_spec cfg d h t).2.2]
  exact ⟨fun hleft => hleft.1, fun hleft => ⟨hleft, fun c _ => hi c⟩⟩

theorem clearedAt_iff {cfg : DshotConfig n} {d : DshotData n} (hd : d.Attached cfg) (h : 0 < n)
    {t : Nat} :
    ClearedAt cfg d h t ↔ ∀ j, has d.timerStatus (cfg.timerIndex j) = true → j.val < t := by
  constructor
  · intro hclear j hj
    by_contra hle
    have hleft : has (turns cfg d h t).data.timerStatus (cfg.timerIndex j) = true :=
      (turns_timer h).mpr ⟨hj, Nat.le_of_not_lt hle⟩
    rw [hclear, hd.dshotTimerMask, has_ofIndices.mpr ⟨j, rfl⟩, Bool.not_true, Bool.and_false]
      at hleft
    cases hleft
  · intro hall i
    by_cases hi : ∃ c, cfg.timerIndex c = i
    · obtain ⟨c, rfl⟩ := hi
      rw [hd.dshotTimerMask, has_ofIndices.mpr ⟨c, rfl⟩, Bool.not_true, Bool.and_false,
        ← Bool.not_eq_true, turns_timer]
      rintro ⟨hc, hle⟩
      exact absurd (hall c hc) (Nat.not_lt.mpr hle)
    · have hforeign : has d.dshotTimerMask i = false := by
        rw [← Bool.not_eq_true, hd.dshotTimerMask, has_ofIndices]
        exact hi
      rw [turns_foreign h fun c hc => hi ⟨c, hc⟩, hforeign, Bool.not_false, Bool.and_true]

/-- Flags that the loop waits for and never clears keep it going. -/
theorem ExitsAt.owned {cfg : DshotConfig n} {d : DshotData n} {h : 0 < n} {t : Nat}
    (hd : d.Attached cfg) (hexit : ExitsAt cfg d h t) (c : Fin n)
    (hc : has d.timerStatus (cfg.shifterIndex c) = true) :
    ∃ k, cfg.timerIndex k = cfg.shifterIndex c := by
  by_contra hnone
  have hcond : (turns cfg d h t).cond = true := by
    rw [turns_cond hd h]
    refine ⟨c, ?_⟩
    rw [turns_foreign h fun k hk => hnone ⟨k, hk⟩]
    exact hc
  rw [hexit.1] at hcond
  cases hcond

theorem Clearable.of_exit {cfg : DshotConfig n} {d : DshotData n} (hd : d.Attached cfg)
    (h : 0 < n) {t : Nat} (hexit : ExitsAt cfg d h t) (hclear : ClearedAt cfg d h t) :
    Clearable cfg d.timerStatus := by
  rw [clearedAt_iff hd h] at hclear
  refine ⟨?_, ?_⟩
  · rintro i hi ⟨c, rfl⟩
    exact hexit.owned hd c hi
  · intro j hj
    have hjt := hclear j hj
    -- the last turn was taken because of a flag that the turn before it cleared
    obtain ⟨c, hc⟩ := (turns_cond hd h (t - 1)).mp (hexit.2 (t - 1) (by omega))
    have hpending : has d.timerStatus (cfg.shifterIndex c) = true :=
      (((turns_spec cfg d h (t - 1 - 1)).2.2 _).mp hc).1
    obtain ⟨k, hk⟩ := hexit.owned hd c hpending
    rw [← hk] at hc hpending
    refine ⟨k, ?_, hpending, c, hk.symm⟩
    have hlast : ¬ t - 1 ≤ k.val := by
      intro hle
      have hcond : (turns cfg d h t).cond = true :=
        (turns_cond hd h t).mpr ⟨c, hk ▸ (turns_timer h).mpr ⟨hpending, hle⟩⟩
      rw [hexit.1] at hcond
      cases hcond
    have hfirst := ((turns_timer h).mp hc).2
    omega

theorem Clearable.exit {cfg : DshotConfig n} {d : DshotData n} (hd : d.Attached cfg) (h : 0 < n)
    (hclearable : Clearable cfg d.timerStatus) :
    ∃ t, ExitsAt cfg d h t ∧ ClearedAt cfg d h t := by
  obtain ⟨howned, hbehind⟩ := hclearable
  let waited : Finset (Fin n) := Finset.univ.filter fun k =>
    has d.timerStatus (cfg.timerIndex k) = true ∧ ∃ c, cfg.shifterIndex c = cfg.timerIndex k
  rcases waited.eq_empty_or_nonempty with hempty | hne
  · -- nothing is waited for, so no timer is pending either
    have hnone (k : Fin n) (hk : has d.timerStatus (cfg.timerIndex k) = true)
        (hc : ∃ c, cfg.shifterIndex c = cfg.timerIndex k) : False := by
      have hmem : k ∈ waited := by simp [waited, hk, hc]
      rw [hempty] at hmem
      exact absurd hmem (Finset.notMem_empty k)
    refine ⟨0, ⟨?_, fun u hu => absurd hu (Nat.not_lt_zero u)⟩, ?_⟩
    · rw [← Bool.not_eq_true, turns_cond hd h]
      rintro ⟨c, hc⟩
      obtain ⟨k, hk⟩ := howned _ hc ⟨c, rfl⟩
      exact hnone k (hk ▸ hc) ⟨c, hk.symm⟩
    · rw [clearedAt_iff hd h]
      intro j hj
      obtain ⟨k, -, hk, hc⟩ := hbehind j hj
      exact (hnone k hk hc).elim
  · -- the last flag waited for is cleared in its turn, and two turns later
    -- the condition fails
    have hmem := waited.max'_mem hne
    have hmax (k : Fin n) (hk : k ∈ waited) : k ≤ waited.max' hne := waited.le_max' k hk
    generalize waited.max' hne = last at hmem hmax
    simp only [waited, Finset.mem_filter, Finset.mem_univ, true_and] at hmem hmax
    obtain ⟨hlast, c, hc⟩ := hmem
    refine ⟨last.val + 2, ⟨?_, ?_⟩, ?_⟩
    · rw [← Bool.not_eq_true, turns_cond hd h]
      rintro ⟨c', hc'⟩
      have hpending := (((turns_spec cfg d h _).2.2 _).mp hc').1
      obtain ⟨k, hk⟩ := howned _ hpending ⟨c', rfl⟩
      have hle : k ≤ last := hmax k ⟨hk ▸ hpending, c', hk.symm⟩
      rw [← hk, turns_timer] at hc'
      have hlate := hc'.2
      omega
    · intro u hu
      rw [turns_cond hd h]
      exact ⟨c, hc ▸ (turns_timer h).mpr ⟨hlast, by omega⟩⟩
    · rw [clearedAt_iff hd h]
      intro j hj
      obtain ⟨k, hjk, hk, hshifter⟩ := hbehind j hj
      have hle : k ≤ last := hmax k ⟨hk, hshifter⟩
      omega

/-- A pending flag that looks like a shifter of the driver and is none of its
timers is never cleared, and the handler never returns. -/
theorem isr_hangs {cfg : DshotConfig n} {d : DshotData n} (hd : d.Attached cfg) (c : Fin n)
    (hpending : has d.timerStatus (cfg.shifterIndex c) = true)
    (hforeign : ∀ k, cfg.timerIndex k ≠ cfg.shifterIndex c) (shifterFlags : Word)
    (shiftBufBis : Fin 32 → Word) (fuel : Nat) :
    isr cfg shifterFlags shiftBufBis quiet fuel d = none := by
  obtain ⟨hstatus, hmask, htimers⟩ := isrShifterLoop_frame cfg shifterFlags shiftBufBis d
  unfold isr isrTimers
  generalize isrShifterLoop cfg shifterFlags shiftBufBis d = m at hstatus hmask htimers
  have h : 0 < n := Nat.lt_of_le_of_lt (Nat.zero_le _) c.isLt
  rw [dif_pos h, Option.map_eq_none_iff]
  by_contra hsome
  obtain ⟨s, hs⟩ := Option.ne_none_iff_exists'.mp hsome
  obtain ⟨t, rfl, hexit⟩ := whileLoop_eq_some _ _ hs
  have hattached : m.Attached cfg := ⟨hmask.trans hd.dshotMask, htimers.trans hd.dshotTimerMask⟩
  obtain ⟨k, hk⟩ := ExitsAt.owned (h := h) hattached hexit c (by rw [hstatus]; exact hpending)
  exact hforeign k hk

theorem isrTimers_none {cfg : DshotConfig n} (d : DshotData n) (h : n = 0) :
    isrTimers cfg quiet 0 d = some d := by
  unfold isrTimers
  rw [dif_neg (by omega)]
  rfl

theorem isrClears_iff {cfg : DshotConfig n} {d : DshotData n} (hd : d.Attached cfg)
    (shifterFlags : Word) (shiftBufBis : Fin 32 → Word) :
    IsrClears cfg shifterFlags shiftBufBis d ↔ Clearable cfg d.timerStatus := by
  obtain ⟨hstatus, hmask, htimers⟩ := isrShifterLoop_frame cfg shifterFlags shiftBufBis d
  generalize hm : isrShifterLoop cfg shifterFlags shiftBufBis d = m at hstatus hmask htimers
  have hattached : m.Attached cfg := ⟨hmask.trans hd.dshotMask, htimers.trans hd.dshotTimerMask⟩
  unfold IsrClears isr
  rw [hm, ← hstatus, ← htimers]
  rcases Nat.eq_zero_or_pos n with hzero | h
  · subst hzero
    refine ⟨fun _ => ⟨fun _ _ ⟨c, _⟩ => c.elim0, fun j => j.elim0⟩, fun _ => ?_⟩
    refine ⟨0, m, isrTimers_none m rfl, fun i => ?_⟩
    rw [hattached.dshotTimerMask]
    simp [ofIndices]
  · rw [isrTimers_clears_iff cfg m h]
    constructor
    · rintro ⟨t, hexit, hclear⟩
      exact .of_exit hattached h hexit hclear
    · exact Clearable.exit hattached h

/-! ## Results -/

/-- The handler returns with its timer flags clear and no other touched
exactly if the pending flags are clearable, whatever the shifters report. -/
theorem isr_clears_iff_clearable (cfg : DshotConfig n) (d : DshotData n) (hd : d.Attached cfg)
    (shifterFlags : Word) (shiftBufBis : Fin 32 → Word) :
    IsrClears cfg shifterFlags shiftBufBis d ↔ Clearable cfg d.timerStatus :=
  isrClears_iff hd shifterFlags shiftBufBis

theorem isr_clears_iff_clearable_same :
    IsrClears .sameIndex 0 (fun _ => 0) { dshotInit .sameIndex with timerStatus := 3 } ↔
      Clearable .sameIndex 3 :=
  isr_clears_iff_clearable .sameIndex { dshotInit .sameIndex with timerStatus := 3 }
    (dshotInit_attached .sameIndex 3) 0 fun _ => 0

/-- With a flag of somebody else's timer pending the handler never returns;
with its own pending it returns without clearing it. -/
theorem isr_hangs_on_foreign_timer :
    (¬ IsrClears .shifted 0 (fun _ => 0) { dshotInit .shifted with timerStatus := 1 }) ∧
      (∀ fuel, isr .shifted 0 (fun _ => 0) quiet fuel
        { dshotInit .shifted with timerStatus := 1 } = none) ∧
      ¬ IsrClears .shifted 0 (fun _ => 0) { dshotInit .shifted with timerStatus := 2 } := by
  refine ⟨?_, ?_, ?_⟩
  · rw [isrClears_iff (dshotInit_attached .shifted 1)]
    decide
  · exact isr_hangs (dshotInit_attached .shifted 1) 0 (by decide) (by decide) 0 fun _ => 0
  · rw [isrClears_iff (dshotInit_attached .shifted 2)]
    decide

end Rdd2
