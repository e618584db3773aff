import Mathlib.Algebra.BigOperators.Group.List.Basic
import Mathlib.Data.List.DropRight
import Mathlib.Data.List.Induction

/-!
# Runs of a step function

A system that takes one input at a time and answers each with an output.
`after` is the state a list of inputs leads to and `outputs` what was
answered on the way. What is known of an output leads back to the input it
was answered to (`outputs_split`, `inputs_of_outputs`), and a condition that
holds now leads back to the input it rose at (`since_rise`, an induction on
the list from its end).

A `Ledger.Book` reads amounts off such a system: one that takes an amount in with
every input, holds it for a while and pays out what it holds, and now and then writes
everything off. If every step balances, so does every run: what was paid out since the
last write-off and what is held are what was taken in since then (`Balanced.run`).
-/

namespace Mealy

variable {S I O : Type*} (step : S → I → S × O)

def after (s : S) (is : List I) : S := is.foldl (fun s i => (step s i).1) s

def outputs : S → List I → List O
  | _, [] => []
  | s, i :: rest => (step s i).2 :: outputs (step s i).1 rest

@[simp] theorem after_nil (s : S) : after step s [] = s := rfl

@[simp] theorem after_cons (s : S) (i : I) (is : List I) :
    after step s (i :: is) = after step (step s i).1 is := rfl

theorem after_append (s : S) (is js : List I) :
    after step s (is ++ js) = after step (after step s is) js := by
  unfold after
  exact List.foldl_append

@[simp] theorem after_concat (s : S) (is : List I) (i : I) :
    after step s (is ++ [i]) = (step (after step s is) i).1 := by
  rw [after_append, after_cons, after_nil]

theorem outputs_append (s : S) (is js : List I) :
    outputs step s (is ++ js) = outputs step s is ++ outputs step (after step s is) js := by
  induction is generalizing s with
  | nil => rfl
  | cons i is ih =>
      simp only [List.cons_append, outputs, after_cons]
      rw [ih]

@[simp] theorem outputs_concat (s : S) (is : List I) (i : I) :
    outputs step s (is ++ [i]) = outputs step s is ++ [(step (after step s is) i).2] := by
  rw [outputs_append]
  rfl

theorem outputs_split {s : S} {is : List I} {front back : List O} {o : O}
    (h : outputs step s is = front ++ o :: back) :
    ∃ early i late, is = early ++ i :: late ∧ outputs step s early = front ∧
      (step (after step s early) i).2 = o ∧
      outputs step (after step s (early ++ [i])) late = back := by
  induction front generalizing s is with
  | nil =>
      cases is with
      | nil => cases h
      | cons i is =>
          rw [outputs, List.nil_append, List.cons.injEq] at h
          exact ⟨[], i, is, rfl, rfl, h.1, h.2⟩
  | cons p front ih =>
      cases is with
      | nil => cases h
      | cons i is =>
          rw [outputs, List.cons_append, List.cons.injEq] at h
          obtain ⟨early, j, late, rfl, hfront, ho, hback⟩ := ih h.2
          refine ⟨i :: early, j, late, rfl, ?_, ho, hback⟩
          rw [outputs, hfront, h.1]

/-- Of two outputs in a row the second was answered in the state the first
one left. -/
theorem outputs_next {s : S} {is : List I} {front back : List O} {o o' : O}
    (h : outputs step s is = front ++ o :: o' :: back) :
    ∃ t i i', o = (step t i).2 ∧ o' = (step (step t i).1 i').2 := by
  obtain ⟨early, i, late, -, -, ho, hlate⟩ := outputs_split step h
  rw [after_concat] at hlate
  cases late with
  | nil => cases hlate
  | cons i' late =>
      rw [outputs, List.cons.injEq] at hlate
      exact ⟨_, i, i', ho.symm, hlate.1.symm⟩

/-- Outputs that all say of their input what `Q` asks were answered to
inputs of which it holds. -/
theorem inputs_of_outputs {Q : I → Prop} {T : O → Prop} (hT : ∀ t i, T (step t i).2 → Q i) {s : S}
    {is : List I} (h : ∀ o ∈ outputs step s is, T o) : ∀ i ∈ is, Q i := by
  induction is generalizing s with
  | nil => intro i hi; cases hi
  | cons j is ih =>
      rw [outputs, List.forall_mem_cons] at h
      rw [List.forall_mem_cons]
      exact ⟨hT s j h.1, ih h.2⟩

/-- What holds now and did not hold at the start has risen at some input,
and every input since was one that keeps it. -/
theorem since_rise {s : S} {P : S → Prop} {Q : I → Prop} (hstart : ¬ P s)
    (hkeeps : ∀ t i, P (step t i).1 → Q i) {is : List I} (h : P (after step s is)) :
    ∃ early i held, is = early ++ i :: held ∧ ¬ P (after step s early) ∧
      P (after step s (early ++ [i])) ∧ ∀ j ∈ i :: held, Q j := by
  induction is using List.reverseRecOn with
  | nil => exact absurd h hstart
  | append_singleton is i ih =>
      rw [after_concat] at h
      have hi : Q i := hkeeps _ i h
      by_cases hbefore : P (after step s is)
      · obtain ⟨early, j, held, rfl, hlow, hhigh, hheld⟩ := ih hbefore
        refine ⟨early, j, held ++ [i], by simp, hlow, hhigh, ?_⟩
        intro k hk
        rw [← List.cons_append, List.mem_append, List.mem_singleton] at hk
        rcases hk with hk | rfl
        · exact hheld k hk
        · exact hi
      · refine ⟨is, i, [], rfl, hbefore, ?_, ?_⟩
        · rw [after_concat]
          exact h
        · intro k hk
          rw [List.mem_singleton] at hk
          exact hk ▸ hi

end Mealy

namespace Ledger

variable {S I O M : Type*}

/-- What a state holds, what an output says was taken in and paid out, and
whether everything was written off. -/
structure Book (S O M : Type*) where
  held : S → M
  taken : O → M
  paid : O → M
  writesOff : O → Bool

/-- The outputs behind the last one that writes off. -/
def Book.since (book : Book S O M) (outputs : List O) : List O :=
  outputs.rtakeWhile fun o => !book.writesOff o

variable [AddCommMonoid M] (book : Book S O M) (step : S → I → S × O)

/-- A step that writes off leaves nothing; any other pays out of what was held
and taken in, and holds the rest. -/
structure Balanced : Prop where
  writtenOff : ∀ s i, book.writesOff (step s i).2 = true → book.held (step s i).1 = 0
  carried : ∀ s i, book.writesOff (step s i).2 = false →
    book.paid (step s i).2 + book.held (step s i).1 = book.held s + book.taken (step s i).2

variable {book step}

theorem Balanced.run (h : Balanced book step) {s : S} (hs : book.held s = 0) (is : List I) :
    ((book.since (Mealy.outputs step s is)).map book.paid).sum + book.held (Mealy.after step s is)
      = ((book.since (Mealy.outputs step s is)).map book.taken).sum := by
  induction is using List.reverseRecOn with
  | nil => simp [Book.since, Mealy.outputs, hs]
  | append_singleton is i ih =>
      rw [Mealy.after_concat, Mealy.outputs_concat, Book.since, List.rtakeWhile_concat]
      cases hoff : book.writesOff (step (Mealy.after step s is) i).2 with
      | true =>
          rw [if_neg (by simp), h.writtenOff _ _ hoff]
          simp
      | false =>
          rw [if_pos (by simp), List.map_append, List.map_append, List.sum_append, List.sum_append,
            List.map_singleton, List.map_singleton, List.sum_singleton, List.sum_singleton,
            add_assoc, h.carried _ _ hoff, ← add_assoc]
          exact congrArg (· + _) ih

end Ledger
