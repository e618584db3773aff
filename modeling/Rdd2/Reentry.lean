import Mathlib.Data.List.Basic
import Mathlib.Tactic.Common

/-!
# A handler that re-enters itself under a flag

A symbol handler may end by handing symbols back to itself. Between the
handler and itself stands a guard: while its flag is set it refuses the
symbols, otherwise it sets the flag, has them handled one by one, and
clears the flag again.

`Runs` is the recursion as it is written, with nothing to stop it; each
execution of the handler is kept with its depth and with the state it found
and left. Two things follow from the flag alone: a run that starts with the
flag clear goes one level down at most, and an execution causes no more
executions than it hands symbols back (`Runs.bounded`). What the handler
keeps of its state, it keeps in every execution on every level
(`Runs.keeps`).
-/

namespace Reentry

variable {σ α : Type}

/-- What an execution of the handler comes to: it is over, or it ends with a
call that hands symbols back. -/
inductive Outcome (σ α : Type) where
  | done (t : σ)
  | again (t : σ) (back : List α)

/-- The state an execution leaves, before any symbols are handed back. -/
def Outcome.left : Outcome σ α → σ
  | .done t => t
  | .again t _ => t

/-- A handler and the guard its symbols pass when they are handed back. -/
structure Handler (σ α : Type) where
  handle : σ → α → Outcome σ α → Prop
  busy : σ → Bool
  refuse : σ → List α → σ
  enter : σ → σ
  leave : σ → σ

structure Execution (σ α : Type) where
  depth : Nat
  entry : σ
  symbol : α
  outcome : Outcome σ α

/-- Handling symbols one by one at depth `d`: the executions in the order in
which they begin, and the state at the end. -/
inductive Runs (H : Handler σ α) : Nat → σ → List α → List (Execution σ α) → σ → Prop where
  | nil {d s} : Runs H d s [] [] s
  | done {d s a t as xs s'} (h : H.handle s a (.done t)) (later : Runs H d t as xs s') :
      Runs H d s (a :: as) (⟨d, s, a, .done t⟩ :: xs) s'
  | refused {d s a t back as xs s'} (h : H.handle s a (.again t back)) (hb : H.busy t = true)
      (later : Runs H d (H.refuse t back) as xs s') :
      Runs H d s (a :: as) (⟨d, s, a, .again t back⟩ :: xs) s'
  | entered {d s a t back ys t' as xs s'} (h : H.handle s a (.again t back))
      (hb : H.busy t = false) (inner : Runs H (d + 1) (H.enter t) back ys t')
      (later : Runs H d (H.leave t') as xs s') :
      Runs H d s (a :: as) (⟨d, s, a, .again t back⟩ :: (ys ++ xs)) s'

/-- The handler keeps `I`, no more than `cap` symbols are handed back at a
time, and the flag is touched by the guard only. -/
structure Guarded (H : Handler σ α) (I : σ → Prop) (cap : Nat) : Prop where
  busy_left : ∀ {s a o}, H.handle s a o → H.busy o.left = H.busy s
  busy_refuse : ∀ t back, H.busy (H.refuse t back) = H.busy t
  busy_enter : ∀ t, H.busy (H.enter t) = true
  busy_leave : ∀ t, H.busy (H.leave t) = false
  done : ∀ {s a t}, I s → H.handle s a (.done t) → I t
  refuse : ∀ {s a t back}, I s → H.handle s a (.again t back) → H.busy t = true →
    I (H.refuse t back)
  enter : ∀ {s a t back}, I s → H.handle s a (.again t back) → I (H.enter t)
  leave : ∀ {s}, I s → I (H.leave s)
  back_le : ∀ {s a t back}, I s → H.handle s a (.again t back) → back.length ≤ cap

variable {H : Handler σ α} {I : σ → Prop} {cap : Nat}

/-- The invariant holds at every entry, on every level, and at the end. -/
theorem Runs.keeps (hg : Guarded H I cap) {d : Nat} {s s' : σ} {as : List α}
    {xs : List (Execution σ α)} (h : Runs H d s as xs s') (hs : I s) :
    I s' ∧ ∀ x ∈ xs, I x.entry ∧ H.handle x.entry x.symbol x.outcome := by
  induction h with
  | nil => exact ⟨hs, by simp⟩
  | done h _ ih =>
      obtain ⟨hend, hxs⟩ := ih (hg.done hs h)
      exact ⟨hend, List.forall_mem_cons.mpr ⟨⟨hs, h⟩, hxs⟩⟩
  | refused h hb _ ih =>
      obtain ⟨hend, hxs⟩ := ih (hg.refuse hs h hb)
      exact ⟨hend, List.forall_mem_cons.mpr ⟨⟨hs, h⟩, hxs⟩⟩
  | entered h _ _ _ ihin ih =>
      obtain ⟨hin, hys⟩ := ihin (hg.enter hs h)
      obtain ⟨hend, hxs⟩ := ih (hg.leave hin)
      refine ⟨hend, List.forall_mem_cons.mpr ⟨⟨hs, h⟩, ?_⟩⟩
      exact List.forall_mem_append.mpr ⟨hys, hxs⟩

/-- With the flag set nothing is handled but the symbols themselves. -/
theorem Runs.of_busy (hg : Guarded H I cap) {d : Nat} {s s' : σ} {as : List α}
    {xs : List (Execution σ α)} (h : Runs H d s as xs s') (hs : H.busy s = true) :
    xs.length = as.length ∧ ∀ x ∈ xs, x.depth = d := by
  induction h with
  | nil => simp
  | done h _ ih =>
      obtain ⟨hlen, hdepth⟩ := ih ((hg.busy_left h).trans hs)
      exact ⟨congrArg (· + 1) hlen, List.forall_mem_cons.mpr ⟨rfl, hdepth⟩⟩
  | refused h hb _ ih =>
      obtain ⟨hlen, hdepth⟩ := ih ((hg.busy_refuse ..).trans hb)
      exact ⟨congrArg (· + 1) hlen, List.forall_mem_cons.mpr ⟨rfl, hdepth⟩⟩
  | entered h hb _ _ _ _ =>
      have hset := (hg.busy_left h).trans hs
      rw [Outcome.left, hb] at hset
      cases hset

/-- With the flag clear a run goes one level down at most, and each symbol
costs its own execution and at most `cap` more. -/
theorem Runs.bounded (hg : Guarded H I cap) {d : Nat} {s s' : σ} {as : List α}
    {xs : List (Execution σ α)} (h : Runs H d s as xs s') (hs : I s) (hb : H.busy s = false) :
    xs.length ≤ as.length * (1 + cap) ∧ ∀ x ∈ xs, x.depth ≤ d + 1 := by
  induction h with
  | nil => simp
  | done h _ ih =>
      obtain ⟨hlen, hdepth⟩ := ih (hg.done hs h) ((hg.busy_left h).trans hb)
      refine ⟨?_, List.forall_mem_cons.mpr ⟨Nat.le_succ _, hdepth⟩⟩
      rw [List.length_cons, List.length_cons, Nat.add_mul]
      omega
  | refused h hset _ _ =>
      rw [← hg.busy_left h, Outcome.left, hset] at hb
      cases hb
  | entered h _ inner _ _ ih =>
      obtain ⟨hin, -⟩ := inner.keeps hg (hg.enter hs h)
      obtain ⟨hlen, hdepth⟩ := ih (hg.leave hin) (hg.busy_leave _)
      obtain ⟨hilen, hidepth⟩ := inner.of_busy hg (hg.busy_enter _)
      have hcap := hg.back_le hs h
      constructor
      · rw [List.length_cons, List.length_append, List.length_cons, Nat.add_mul]
        omega
      · refine List.forall_mem_cons.mpr ⟨Nat.le_succ _, List.forall_mem_append.mpr ⟨?_, hdepth⟩⟩
        exact fun x hx => Nat.le_of_eq (hidepth x hx)

/-- With the flag set a handler that always comes to something is done with
its symbols. -/
theorem exists_runs_of_busy (hg : Guarded H I cap) (total : ∀ s a, ∃ o, H.handle s a o) (d : Nat)
    (as : List α) {s : σ} (hs : H.busy s = true) : ∃ xs s', Runs H d s as xs s' := by
  induction as generalizing s with
  | nil => exact ⟨[], s, .nil⟩
  | cons a as ih =>
      obtain ⟨o, ho⟩ := total s a
      have hleft := (hg.busy_left ho).trans hs
      cases o with
      | done t =>
          obtain ⟨xs, s', hrun⟩ := ih hleft
          exact ⟨_, s', .done ho hrun⟩
      | again t back =>
          obtain ⟨xs, s', hrun⟩ := ih ((hg.busy_refuse t back).trans hleft)
          exact ⟨_, s', .refused ho hleft hrun⟩

/-- And so it is with the flag clear: the recursion ends. -/
theorem exists_runs (hg : Guarded H I cap) (total : ∀ s a, ∃ o, H.handle s a o) (d : Nat)
    (as : List α) {s : σ} (hs : H.busy s = false) : ∃ xs s', Runs H d s as xs s' := by
  induction as generalizing s with
  | nil => exact ⟨[], s, .nil⟩
  | cons a as ih =>
      obtain ⟨o, ho⟩ := total s a
      have hleft := (hg.busy_left ho).trans hs
      cases o with
      | done t =>
          obtain ⟨xs, s', hrun⟩ := ih hleft
          exact ⟨_, s', .done ho hrun⟩
      | again t back =>
          obtain ⟨ys, t', hinner⟩ := exists_runs_of_busy hg total (d + 1) back (hg.busy_enter t)
          obtain ⟨xs, s', hrun⟩ := ih (hg.busy_leave t')
          exact ⟨_, s', .entered ho hleft hinner hrun⟩

end Reentry
