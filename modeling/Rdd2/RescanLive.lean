import Rdd2.Rescan

/-!
# Reading symbol by symbol with a bounded rescan

The two symbol-at-a-time readers of `Rescan` and what they owe to the
scan.

`nestedStep` forgets a candidate that fails; `liveStep` runs the symbols of
a failed candidate through `nestedStep` once. The difference to the
unlimited scan is exactly what the nested reader dropped, and
`Out.dropped` records it. Whatever was dropped, a reader keeps its place in
the stream (`Placed`): its window is what was read since the last frame or
rejection, so frames are never put together from symbols that are not next
to each other.
-/

namespace Rescan

variable {α φ ε : Type} (R : Recogniser α φ ε)

/-! ## The readers -/

def run (step : List α → α → Out α φ ε) : List α → List α → Out α φ ε
  | w, [] => .silent w
  | w, b :: bs => (step w b).andThen (run step (step w b).rest bs)

/-- One symbol inside a rescan: a candidate that fails is dropped. -/
def nestedStep (w : List α) (b : α) : Out α φ ε :=
  match R.judge (w ++ [b]) with
  | .more => .silent (w ++ [b])
  | .accept f _ => ⟨[f], [], [], []⟩
  | .reject none k => scan R ((w ++ [b]).drop k)
  | .reject (some e) k => ⟨[], [e], [], [(w ++ [b]).drop k]⟩

/-- One symbol from the line: a candidate that fails is rescanned once. -/
def liveStep (w : List α) (b : α) : Out α φ ε :=
  match R.judge (w ++ [b]) with
  | .more => .silent (w ++ [b])
  | .accept f _ => ⟨[f], [], [], []⟩
  | .reject none k => scan R ((w ++ [b]).drop k)
  | .reject (some e) k => (run (nestedStep R) [] ((w ++ [b]).drop k)).fault (some e)

theorem run_append (step : List α → α → Out α φ ε) (w u v : List α) :
    run step w (u ++ v) = (run step w u).andThen (run step (run step w u).rest v) := by
  induction u generalizing w with
  | nil => exact (Out.silent_andThen w _).symm
  | cons b u ih => simp only [List.cons_append, run, ih, Out.andThen_assoc, Out.andThen_rest]

theorem liveStep_of_more {w : List α} {b : α} (h : R.judge (w ++ [b]) = .more) :
    liveStep R w b = .silent (w ++ [b]) := by
  rw [liveStep, h]

theorem liveStep_of_accept {w : List α} {b : α} {f : φ} {n : Nat}
    (h : R.judge (w ++ [b]) = .accept f n) : liveStep R w b = ⟨[f], [], [], []⟩ := by
  rw [liveStep, h]

theorem run_singleton (step : List α → α → Out α φ ε) (w : List α) (b : α) :
    run step w [b] = step w b := Out.andThen_silent (step w b)

/-- A frame reaches beyond any undecided beginning of it. -/
theorem undecided_lt {R : Recogniser α φ ε} {w v : List α} {f : φ} {n : Nat}
    (hw : R.judge w = .more) (h : R.judge (w ++ v) = .accept f n) : w.length < n := by
  by_contra hle
  have htake := R.accept_take h
  rw [List.take_append_of_le_length (Nat.le_of_not_lt hle)] at htake
  have hne : R.judge (w.take n) ≠ .more := by
    rw [htake]
    nofun
  have hstable := R.stable hne (w.drop n)
  rw [List.take_append_drop, hw, htake] at hstable
  cases hstable

/-- A candidate in progress is decided by its last symbol, never earlier. -/
theorem accept_length {R : Recogniser α φ ε} {w : List α} {b : α} {f : φ} {n : Nat}
    (hw : R.judge w = .more) (h : R.judge (w ++ [b]) = .accept f n) :
    n = (w ++ [b]).length := by
  have hle := R.accept_le h
  have hlt := undecided_lt hw h
  rw [List.length_append, List.length_singleton] at hle ⊢
  omega

theorem judge_take_frame {R : Recogniser α φ ε} {w : List α} {f : φ}
    (h : R.judge w = .accept f w.length) {m : Nat} (hm : m < w.length) :
    R.judge (w.take m) = .more := by
  by_contra hne
  have hstable := R.stable hne (w.drop m)
  rw [List.take_append_drop, h] at hstable
  have := R.accept_le hstable.symm
  simp at this
  omega

/-! ## The window stays undecided -/

theorem judge_nestedStep_rest (w : List α) (b : α) :
    R.judge (nestedStep R w b).rest = .more := by
  unfold nestedStep
  split
  · assumption
  · exact R.judge_nil
  · exact judge_scan_rest R _
  · exact R.judge_nil

theorem judge_run_nested_rest {w : List α} (hw : R.judge w = .more) (bs : List α) :
    R.judge (run (nestedStep R) w bs).rest = .more := by
  induction bs generalizing w with
  | nil => exact hw
  | cons b bs ih => exact ih (judge_nestedStep_rest R w b)

theorem judge_liveStep_rest (w : List α) (b : α) :
    R.judge (liveStep R w b).rest = .more := by
  unfold liveStep
  split
  · assumption
  · exact R.judge_nil
  · exact judge_scan_rest R _
  · exact judge_run_nested_rest R R.judge_nil _

theorem judge_run_live_rest {w : List α} (hw : R.judge w = .more) (bs : List α) :
    R.judge (run (liveStep R) w bs).rest = .more := by
  induction bs generalizing w with
  | nil => exact hw
  | cons b bs ih => exact ih (judge_liveStep_rest R w b)

/-! ## Frames are cut from the stream

`Carved fs s`: the stream `s` contains, one after the other and without
overlap, a frame for each member of `fs`. -/

inductive Carved : List φ → List α → Prop where
  | gap (s : List α) : Carved [] s
  | frame {f : φ} {fs : List φ} (skipped seg rest : List α)
      (hseg : R.judge seg = .accept f seg.length) (hrest : Carved fs rest) :
      Carved (f :: fs) (skipped ++ seg ++ rest)

theorem Carved.append_gap {R : Recogniser α φ ε} {fs : List φ} {s : List α}
    (h : Carved R fs s) (t : List α) : Carved R fs (s ++ t) := by
  induction h with
  | gap s => exact .gap _
  | frame skipped seg rest hseg _ ih =>
      rw [List.append_assoc]
      exact .frame skipped seg _ hseg ih

theorem Carved.snoc {R : Recogniser α φ ε} {fs : List φ} {s seg : List α} {f : φ}
    (h : Carved R fs s) (hseg : R.judge seg = .accept f seg.length) :
    Carved R (fs ++ [f]) (s ++ seg) := by
  induction h with
  | gap s =>
      rw [← List.append_nil (s ++ seg)]
      exact .frame s seg [] hseg (.gap _)
  | frame skipped seg' rest hseg' _ ih =>
      rw [List.append_assoc, List.cons_append]
      exact .frame skipped seg' _ hseg' ih

/-- `fs` are carved from what was read before, and the window is what was
read since: the invariant that ties a reader to its place in the stream. -/
def Placed (fs : List φ) (read window : List α) : Prop :=
  ∃ used, Carved R fs used ∧ read = used ++ window

theorem Placed.carved {R : Recogniser α φ ε} {fs : List φ} {read window : List α}
    (h : Placed R fs read window) : Carved R fs read := by
  obtain ⟨used, hc, rfl⟩ := h
  exact hc.append_gap window

theorem Placed.skip {R : Recogniser α φ ε} {fs : List φ} {read window : List α}
    (h : Placed R fs read window) (k : Nat) : Placed R fs read (window.drop k) := by
  obtain ⟨used, hc, rfl⟩ := h
  exact ⟨used ++ window.take k, hc.append_gap _, by simp⟩

theorem Placed.read_symbol {R : Recogniser α φ ε} {fs : List φ} {read window : List α}
    (h : Placed R fs read window) (b : α) :
    Placed R fs (read ++ [b]) (window ++ [b]) := by
  obtain ⟨used, hc, rfl⟩ := h
  exact ⟨used, hc, by simp⟩

theorem Placed.accept {R : Recogniser α φ ε} {fs : List φ} {read window : List α} {f : φ}
    (h : Placed R fs read window) {n : Nat} (hj : R.judge window = .accept f n) :
    Placed R (fs ++ [f]) read (window.drop n) := by
  obtain ⟨used, hc, rfl⟩ := h
  have htake := R.accept_take hj
  have hlen : (window.take n).length = n := List.length_take_of_le (R.accept_le hj)
  exact ⟨used ++ window.take n, hc.snoc (by rw [hlen]; exact htake), by simp⟩

theorem Placed.drop_all {R : Recogniser α φ ε} {fs : List φ} {read window : List α}
    (h : Placed R fs read window) : Placed R fs read [] := by
  simpa using h.skip window.length

theorem scan_placed {fs : List φ} {read w : List α} (h : Placed R fs read w) :
    Placed R (fs ++ (scan R w).frames) read (scan R w).rest := by
  induction w using scan_induction R generalizing fs with
  | more w hj =>
      rw [scan_of_more R hj]
      simpa using h
  | accept w f n hj ih =>
      rw [scan_of_accept R hj]
      simpa using ih (h.accept hj)
  | reject w e k hj ih =>
      rw [scan_of_reject R hj]
      simpa using ih (h.skip k)

theorem nestedStep_placed {fs : List φ} {read w : List α} (h : Placed R fs read w)
    (hw : R.judge w = .more) (b : α) :
    Placed R (fs ++ (nestedStep R w b).frames) (read ++ [b]) (nestedStep R w b).rest := by
  have hb := h.read_symbol b
  unfold nestedStep
  split
  case h_1 => simpa using hb
  case h_2 f n hj =>
    have hacc := hb.accept hj
    rwa [accept_length hw hj, List.drop_length] at hacc
  case h_3 k hj => exact scan_placed R (hb.skip k)
  case h_4 => simpa using hb.drop_all

theorem run_placed {step : List α → α → Out α φ ε}
    (hrest : ∀ w b, R.judge (step w b).rest = .more)
    (hstep : ∀ {fs read w}, Placed R fs read w → R.judge w = .more → ∀ b,
      Placed R (fs ++ (step w b).frames) (read ++ [b]) (step w b).rest)
    {fs : List φ} {read w : List α} (h : Placed R fs read w) (hw : R.judge w = .more)
    (bs : List α) :
    Placed R (fs ++ (run step w bs).frames) (read ++ bs) (run step w bs).rest := by
  induction bs generalizing fs read w with
  | nil => simpa [run] using h
  | cons b bs ih =>
      have hnext := ih (hstep h hw b) (hrest w b)
      simpa [run] using hnext

/-- Rescanning a failed candidate steps back in the stream, but not behind
the last frame: the nested reader starts inside the failed window. -/
theorem liveStep_placed {fs : List φ} {read w : List α} (h : Placed R fs read w)
    (hw : R.judge w = .more) (b : α) :
    Placed R (fs ++ (liveStep R w b).frames) (read ++ [b]) (liveStep R w b).rest := by
  have hb := h.read_symbol b
  unfold liveStep
  split
  case h_1 => simpa using hb
  case h_2 f n hj =>
    have hacc := hb.accept hj
    rwa [accept_length hw hj, List.drop_length] at hacc
  case h_3 k hj => exact scan_placed R (hb.skip k)
  case h_4 e k hj =>
    obtain ⟨used, hc, heq⟩ := hb.skip k
    rw [heq]
    have hstart : Placed R fs used [] := ⟨used, hc, by simp⟩
    exact run_placed R (judge_nestedStep_rest R) (nestedStep_placed R) hstart R.judge_nil _

theorem liveRun_placed {fs : List φ} {read w : List α} (h : Placed R fs read w)
    (hw : R.judge w = .more) (bs : List α) :
    Placed R (fs ++ (run (liveStep R) w bs).frames) (read ++ bs)
      (run (liveStep R) w bs).rest :=
  run_placed R (judge_liveStep_rest R) (liveStep_placed R) h hw bs

/-- Every frame a live run reports, rescans included, is a contiguous
stretch of the stream, and different frames are disjoint and in order. -/
theorem liveRun_carved (s : List α) : Carved R (run (liveStep R) [] s).frames s := by
  have h0 : Placed R [] ([] : List α) [] := ⟨[], .gap _, rfl⟩
  simpa using (liveRun_placed R h0 R.judge_nil s).carved

/-! ## Whole frames and resynchronisation -/

theorem liveRun_frame {seg : List α} {f : φ} (h : R.judge seg = .accept f seg.length) :
    run (liveStep R) [] seg = ⟨[f], [], [], []⟩ := by
  have hpos := R.accept_pos h
  have key : ∀ m, m < seg.length → run (liveStep R) [] (seg.take m) = .silent (seg.take m) := by
    intro m
    induction m with
    | zero => intro _; rfl
    | succ m ih =>
        intro hm
        have hj := judge_take_frame h hm
        rw [List.take_succ_eq_append_getElem (by omega)] at hj ⊢
        rw [run_append, ih (by omega), Out.silent_andThen, run_singleton]
        exact liveStep_of_more R hj
  obtain ⟨init, b, rfl⟩ : ∃ init b, seg = init ++ [b] :=
    ⟨_, _, (List.dropLast_concat_getLast (List.ne_nil_of_length_pos hpos)).symm⟩
  have hinit := key init.length (by simp)
  rw [List.take_left] at hinit
  rw [run_append, hinit, Out.silent_andThen, run_singleton]
  exact liveStep_of_accept R h

/-- After more symbols than any undecided candidate can hold, the window
lies within them: nothing from before is left in progress. -/
theorem liveRun_rest_suffix {N : Nat} (hN : ∀ w, R.judge w = .more → w.length < N)
    {w : List α} (hw : R.judge w = .more) {bs : List α} (hbs : N ≤ bs.length) :
    (run (liveStep R) w bs).rest <:+ bs := by
  have h0 : Placed R [] w w := ⟨[], .gap _, rfl⟩
  obtain ⟨used, -, heq⟩ := liveRun_placed R h0 hw bs
  have hlt := hN _ (judge_run_live_rest R hw bs)
  have hsuf : (run (liveStep R) w bs).rest <:+ w ++ bs := ⟨used, heq.symm⟩
  exact List.suffix_of_suffix_length_le hsuf (List.suffix_append w bs) (by omega)

end Rescan
