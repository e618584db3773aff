import Mathlib.Data.List.Chain
import Mathlib.Data.List.Induction
import Mathlib.Tactic.Common

/-!
# Breaks in a succession

A list in which every element should follow from the one before by a relation, and
the number of places where one does not. With the items of a numbered source, of
which some may be missing, these are the places where a gap can be seen; what is
missing is at least one item for each (`breaks_le_missing`).
-/

namespace Succession

variable {α β : Type*}

/-- The neighbours that are not related. -/
def breaks (R : α → α → Prop) [DecidableRel R] : List α → Nat
  | a :: b :: l => (if R a b then 0 else 1) + breaks R (b :: l)
  | _ => 0

section

variable (R : α → α → Prop) [DecidableRel R]

@[simp] theorem breaks_nil : breaks R [] = 0 := rfl

@[simp] theorem breaks_singleton (a : α) : breaks R [a] = 0 := rfl

theorem breaks_cons_cons (a b : α) (l : List α) :
    breaks R (a :: b :: l) = (if R a b then 0 else 1) + breaks R (b :: l) := rfl

/-- One more element behind `a`. -/
theorem breaks_concat (l : List α) (a b : α) :
    breaks R (l ++ [a] ++ [b]) = breaks R (l ++ [a]) + if R a b then 0 else 1 := by
  induction l with
  | nil => rw [List.nil_append, List.singleton_append, breaks_cons_cons, Nat.add_comm]; rfl
  | cons c l ih =>
      cases l with
      | nil =>
          simp only [List.cons_append, List.nil_append, breaks_cons_cons, breaks_singleton] at ih ⊢
          omega
      | cons d l =>
          simp only [List.cons_append, breaks_cons_cons] at ih ⊢
          rw [ih, Nat.add_assoc]

theorem breaks_map (f : β → α) (l : List β) :
    breaks R (l.map f) = breaks (fun a b => R (f a) (f b)) l := by
  induction l with
  | nil => rfl
  | cons a l ih =>
      cases l with
      | nil => rfl
      | cons b l =>
          rw [List.map_cons, List.map_cons, breaks_cons_cons, breaks_cons_cons, ← ih,
            List.map_cons]

end

theorem breaks_congr {R S : α → α → Prop} [DecidableRel R] [DecidableRel S]
    (h : ∀ a b, R a b ↔ S a b) (l : List α) : breaks R l = breaks S l := by
  induction l with
  | nil => rfl
  | cons a l ih =>
      cases l with
      | nil => rfl
      | cons b l =>
          rw [breaks_cons_cons, breaks_cons_cons, ih]
          simp only [h]

/-- Numbered items in order, of which some may be missing: wherever the next number
modulo `m` is not there, at least one is. -/
theorem breaks_le_missing (m : Nat) {first : Nat} {l : List Nat}
    (h : (first :: l).Pairwise (· < ·)) :
    breaks (fun i j => j % m = (i + 1) % m) (first :: l) + (first :: l).length + first
      ≤ (first :: l).getLast (List.cons_ne_nil _ _) + 1 := by
  induction l generalizing first with
  | nil =>
      rw [breaks_singleton, List.length_singleton, List.getLast_singleton]
      omega
  | cons next l ih =>
      rw [List.pairwise_cons] at h
      have hlater := ih h.2
      have hlt : first < next := h.1 next List.mem_cons_self
      rw [breaks_cons_cons, List.length_cons, List.getLast_cons (List.cons_ne_nil _ _)]
      split
      · omega
      · rename_i hbreak
        have hne : next ≠ first + 1 := fun heq => hbreak (by rw [heq])
        omega

end Succession
