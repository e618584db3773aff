import Mathlib.Data.List.Induction

/-!
# Machines with a reset

A machine that is stepped, answers each step, and can be reset. `Forgets`
says what it takes for a reset to leave nothing of the steps before it:
a relation `Alike` under which steps go alike, and an invariant of all
states from which a reset leads to something like a fresh machine. What is
answered after any events is then what a fresh machine answers that has made
only the steps since the last reset (`remembered`, `Forgets.answer`).
-/

namespace Resettable

variable {S A B : Type*}

/-- A step answers, and leaves a state; a reset leaves one. -/
structure Machine (S A B : Type*) where
  step : S → A → B × S
  reset : S → S

inductive Event (A : Type*) where
  | reset
  | step (a : A)
  deriving DecidableEq, Repr

def since (es : List (Event A)) : List A :=
  es.foldl (fun as e => match e with
    | .reset => []
    | .step a => as ++ [a]) []

@[simp] theorem since_reset (es : List (Event A)) : since (es ++ [.reset]) = [] := by
  simp [since]

@[simp] theorem since_step (es : List (Event A)) (a : A) :
    since (es ++ [.step a]) = since es ++ [a] := by
  simp [since]

namespace Machine

variable (m : Machine S A B)

def next (s : S) : Event A → S
  | .reset => m.reset s
  | .step a => (m.step s a).2

def after (s : S) (es : List (Event A)) : S := es.foldl m.next s

def answers : S → List (Event A) → List B
  | _, [] => []
  | s, .reset :: es => answers (m.reset s) es
  | s, .step a :: es => (m.step s a).1 :: answers (m.step s a).2 es

theorem after_append (s : S) (es es' : List (Event A)) :
    m.after s (es ++ es') = m.after (m.after s es) es' :=
  List.foldl_append

@[simp] theorem after_concat (s : S) (es : List (Event A)) (e : Event A) :
    m.after s (es ++ [e]) = m.next (m.after s es) e := by
  rw [after_append]
  rfl

theorem answers_concat (s : S) (es : List (Event A)) (a : A) :
    m.answers s (es ++ [.step a]) = m.answers s es ++ [(m.step (m.after s es) a).1] := by
  induction es generalizing s with
  | nil => rfl
  | cons e es ih => cases e <;> simp only [List.cons_append, answers, ih] <;> rfl

/-! ## Forgetting -/

/-- States that are `Alike` answer alike and stay so, and a reset makes every
state with the invariant like `fresh`. -/
structure Forgets (Inv : S → Prop) (Alike : S → S → Prop) (fresh : S) : Prop where
  inv_step : ∀ {s} a, Inv s → Inv (m.step s a).2
  inv_reset : ∀ {s}, Inv s → Inv (m.reset s)
  answer_eq : ∀ {s t} a, Alike s t → (m.step s a).1 = (m.step t a).1
  alike_step : ∀ {s t} a, Alike s t → Alike (m.step s a).2 (m.step t a).2
  alike_reset : ∀ {s}, Inv s → Alike (m.reset s) fresh
  inv_fresh : Inv fresh
  alike_fresh : Alike fresh fresh

/-- After any events the machine is like a fresh one that has made the steps
since the last reset. -/
theorem Forgets.after_alike {m : Machine S A B} {Inv : S → Prop} {Alike : S → S → Prop}
    {fresh : S} (h : m.Forgets Inv Alike fresh) (es : List (Event A)) :
    Inv (m.after fresh es) ∧
      Alike (m.after fresh es) (m.after fresh ((since es).map .step)) := by
  induction es using List.reverseRecOn with
  | nil => exact ⟨h.inv_fresh, h.alike_fresh⟩
  | append_singleton es e ih =>
      rw [after_concat]
      cases e with
      | reset =>
          rw [since_reset]
          exact ⟨h.inv_reset ih.1, h.alike_reset ih.1⟩
      | step a =>
          rw [since_step, List.map_append, List.map_singleton, after_concat]
          exact ⟨h.inv_step a ih.1, h.alike_step a ih.2⟩

/-! ## Rounds -/

/-- The events of one round before its step. -/
def resets (required : Bool) : List (Event A) := if required then [.reset] else []

/-- A round from `s`: a reset if it is required, then at most one step,
the answer of which `T` tells. -/
inductive Round (s : S) (required : Bool) (T : B → Prop) : List (Event A) → S → Prop where
  | idle : Round s required T (resets required) (m.after s (resets required))
  | step (a : A) (answered : T (m.step (m.after s (resets required)) a).1) :
      Round s required T (resets required ++ [.step a])
        (m.step (m.after s (resets required)) a).2

variable {m} {s s' : S} {required : Bool} {T : B → Prop} {es : List (Event A)}

/-- A round that resets first goes on as one that does not. -/
theorem Round.after_resets (required : Bool)
    (h : m.Round (m.after s (resets required)) false T es s') :
    m.Round s required T (resets required ++ es) s' := by
  cases h with
  | idle =>
      have hnone : resets required ++ resets false = (resets required : List (Event A)) :=
        List.append_nil _
      rw [hnone]
      exact .idle
  | step a answered => exact .step a answered

theorem Round.after_eq (h : m.Round s required T es s') : s' = m.after s es := by
  cases h with
  | idle => rfl
  | step a _ =>
      rw [after_concat]
      rfl

theorem Round.reset_of_step (h : m.Round s true T es s') {a : A} {front back : List (Event A)}
    (hes : es = front ++ .step a :: back) : .reset ∈ front := by
  have hcons : ∃ rest, es = .reset :: rest := by
    cases h with
    | idle => exact ⟨[], rfl⟩
    | step b _ => exact ⟨[.step b], rfl⟩
  obtain ⟨rest, hrest⟩ := hcons
  rw [hes] at hrest
  cases front with
  | nil => cases hrest
  | cons e front =>
      obtain ⟨rfl, -⟩ := List.cons.inj hrest
      exact List.mem_cons_self ..

theorem Round.reset_mem (h : m.Round s true T es s') : .reset ∈ es := by
  cases h with
  | idle => exact List.mem_singleton.mpr rfl
  | step b _ => exact List.mem_cons_self ..

/-- The last answer of a fresh machine to the steps since the last reset. -/
def remembered (m : Machine S A B) (fresh : S) (es : List (Event A)) : Option B :=
  (m.answers fresh ((since es).map .step)).getLast?

theorem Forgets.answer {Inv : S → Prop} {Alike : S → S → Prop} {fresh : S}
    (h : m.Forgets Inv Alike fresh) {earlier : List (Event A)}
    (hround : m.Round (m.after fresh earlier) required T es s') (hstep : ∃ a, .step a ∈ es) :
    ∃ b, m.remembered fresh (earlier ++ es) = some b ∧ T b := by
  cases hround with
  | idle =>
      obtain ⟨a, ha⟩ := hstep
      cases required with
      | true => cases List.mem_singleton.mp ha
      | false => cases ha
  | step a answered =>
      rw [← after_append] at answered
      have hanswer := h.answer_eq a (h.after_alike (earlier ++ resets required)).2
      refine ⟨_, ?_, answered⟩
      rw [remembered, ← List.append_assoc, since_step, List.map_append, List.map_singleton,
        answers_concat, List.getLast?_concat, hanswer]

end Machine

end Resettable
