import Mathlib.Algebra.Group.Nat.Defs
import Mathlib.Tactic.Common

/-!
# Runs of a guarded step function

A system whose step may be refused: `step s a` is `none` where the event
`a` cannot happen in `s`. `run` follows a list of events, and `Ok` says that
it meets every event in a state that allows it. What an allowed step keeps
is carried along such a run (`ok_keeps`); with events that are allowed in
every state this is `run_keeps`, with all of them an invariant (`run_inv`).
A simulation of steps is one of runs (`run_simulates`).

A state often keeps a history of what its steps answered; `history_concat` is
the step of an invariant about it. Where it keeps none, `observed` collects what
there is to see of the steps of a run, and `Until` marks the first state of a
run that has a property.
-/

namespace Guarded

variable {S A : Type*} (step : S → A → Option S)

/-- The state after the events, if all of them can happen. -/
def run : S → List A → Option S
  | s, [] => some s
  | s, a :: as => (step s a).bind fun t => run t as

@[simp] theorem run_nil (s : S) : run step s [] = some s := rfl

theorem run_cons {s t : S} {a : A} {as : List A} :
    run step s (a :: as) = some t ↔ ∃ m, step s a = some m ∧ run step m as = some t :=
  Option.bind_eq_some_iff

theorem run_append (s : S) (as bs : List A) :
    run step s (as ++ bs) = (run step s as).bind fun t => run step t bs := by
  induction as generalizing s with
  | nil => rfl
  | cons a as ih =>
      simp only [List.cons_append, run, Option.bind_assoc]
      congr 1
      funext t
      exact ih t

/-- A decidable fact about where a run ends can be evaluated. -/
theorem run_any {P : S → Prop} [DecidablePred P] {s : S} {as : List A}
    (h : (run step s as).any (fun t => decide (P t)) = true) :
    ∃ t, run step s as = some t ∧ P t := by
  cases hrun : run step s as with
  | none =>
      rw [hrun] at h
      cases h
  | some t =>
      rw [hrun, Option.any_some] at h
      exact ⟨t, rfl, of_decide_eq_true h⟩

/-- Every event of the run comes in a state that allows it. -/
def Ok (allowed : S → A → Prop) : S → List A → Prop
  | _, [] => True
  | s, a :: as =>
      allowed s a ∧
        match step s a with
        | none => True
        | some t => Ok allowed t as

instance Ok.decidable (allowed : S → A → Prop) [∀ s a, Decidable (allowed s a)] :
    (s : S) → (as : List A) → Decidable (Ok step allowed s as)
  | _, [] => isTrue trivial
  | s, a :: as =>
      match h : step s a with
      | none => decidable_of_iff (allowed s a) (by simp [Ok, h])
      | some t =>
          have := Ok.decidable allowed t as
          decidable_of_iff (allowed s a ∧ Ok step allowed t as) (by simp [Ok, h])

theorem Ok.of_forall {Q : A → Prop} (s : S) {as : List A} (has : ∀ a ∈ as, Q a) :
    Ok step (fun _ a => Q a) s as := by
  induction as generalizing s with
  | nil => trivial
  | cons a as ih =>
      rw [List.forall_mem_cons] at has
      refine ⟨has.1, ?_⟩
      cases step s a with
      | none => trivial
      | some t => exact ih t has.2

/-- What every allowed step keeps, a run of them keeps. -/
theorem ok_keeps {P : S → Prop} {allowed : S → A → Prop}
    (hstep : ∀ s a t, allowed s a → P s → step s a = some t → P t) {s t : S} {as : List A}
    (hs : P s) (hok : Ok step allowed s as) (hrun : run step s as = some t) : P t := by
  induction as generalizing s with
  | nil =>
      cases hrun
      exact hs
  | cons a as ih =>
      obtain ⟨hallowed, hlater⟩ := hok
      obtain ⟨m, hm, hrun⟩ := (run_cons step).mp hrun
      rw [hm] at hlater
      exact ih (hstep s a m hallowed hs hm) hlater hrun

theorem run_keeps {P : S → Prop} {Q : A → Prop}
    (hstep : ∀ s a t, Q a → P s → step s a = some t → P t) {s t : S} {as : List A}
    (hs : P s) (has : ∀ a ∈ as, Q a) (hrun : run step s as = some t) : P t :=
  ok_keeps step hstep hs (Ok.of_forall step s has) hrun

theorem run_inv {P : S → Prop} (hstep : ∀ s a t, P s → step s a = some t → P t) {s t : S}
    {as : List A} (hs : P s) (hrun : run step s as = some t) : P t :=
  run_keeps step (Q := fun _ => True) (fun s a t _ => hstep s a t) hs (fun _ _ => trivial) hrun

/-- Where every allowed step is an allowed one of an abstraction, or leaves it as it is, a
run is a run of the abstraction. -/
theorem run_simulates {T B : Type*} {step' : T → B → Option T} {f : S → T}
    {allowed : S → A → Prop} {allowed' : T → B → Prop}
    (hstep : ∀ s a t, allowed s a → step s a = some t →
      f t = f s ∨ ∃ b, allowed' (f s) b ∧ step' (f s) b = some (f t)) {s t : S} {as : List A}
    (hok : Ok step allowed s as) (hrun : run step s as = some t) :
    ∃ bs, Ok step' allowed' (f s) bs ∧ run step' (f s) bs = some (f t) := by
  induction as generalizing s with
  | nil =>
      cases hrun
      exact ⟨[], trivial, rfl⟩
  | cons a as ih =>
      obtain ⟨hallowed, hlater⟩ := hok
      obtain ⟨m, hm, hrun⟩ := (run_cons step).mp hrun
      rw [hm] at hlater
      obtain ⟨bs, hbs, hrun'⟩ := ih hlater hrun
      rcases hstep s a m hallowed hm with hsame | ⟨b, hb, hstep'⟩
      · rw [← hsame]
        exact ⟨bs, hbs, hrun'⟩
      · refine ⟨b :: bs, ⟨hb, ?_⟩, (run_cons step').mpr ⟨f m, hstep', hrun'⟩⟩
        rw [hstep']
        exact hbs

/-- What there is to see of the steps of a run, in order. -/
def observed {O : Type*} (see : S → A → List O) : S → List A → List O
  | _, [] => []
  | s, a :: as => see s a ++ (step s a).elim [] fun t => observed see t as

theorem observed_cons {O : Type*} {see : S → A → List O} {s m : S} {a : A} {as : List A}
    (h : step s a = some m) :
    observed step see s (a :: as) = see s a ++ observed step see m as := by
  rw [observed, h]
  rfl

/-- The events lead to a state with the property, and through none before it. -/
def Until (P : S → Prop) : S → List A → S → Prop
  | s, [], t => P s ∧ s = t
  | s, a :: as, t => ¬ P s ∧ ∃ m, step s a = some m ∧ Until P m as t

/-- The state after an attempt: an event that cannot happen leaves it as it is. -/
def attempt (s : S) (a : A) : S := (step s a).getD s

def attempts (s : S) (a : A) : Option S := some (attempt step s a)

theorem attempt_of_some {s t : S} {a : A} (h : step s a = some t) : attempt step s a = t := by
  rw [attempt, h, Option.getD_some]

theorem attempt_cases (s : S) (a : A) :
    attempt step s a = s ∨ step s a = some (attempt step s a) := by
  cases h : step s a with
  | none =>
      left
      rw [attempt, h, Option.getD_none]
  | some t =>
      right
      rw [attempt_of_some step h]

/-- What holds of every entry of a history, and of one more. -/
theorem history_concat {H : Type*} {Q : Nat → H → Prop} {history : List H} {last : H}
    (h : ∀ k entry, history[k]? = some entry → Q k entry) (hlast : Q history.length last) :
    ∀ k entry, (history ++ [last])[k]? = some entry → Q k entry := by
  intro k entry hk
  rcases Nat.lt_trichotomy k history.length with hlt | rfl | hgt
  · rw [List.getElem?_append_left hlt] at hk
    exact h k entry hk
  · rw [List.getElem?_concat_length, Option.some.injEq] at hk
    exact hk ▸ hlast
  · rw [List.getElem?_eq_none (by simp; omega)] at hk
    cases hk

end Guarded
