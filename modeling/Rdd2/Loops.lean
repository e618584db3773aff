import Mathlib.Data.Fin.Basic
import Mathlib.Logic.Function.Iterate
import Mathlib.Tactic.Common

/-!
# Rules for loops

`for (i = 0; i < n; i++)` as a fold over `Fin n`, with an invariant indexed
by the number of finished turns: for a body that always returns
(`foldl_inv`) and for one that may trap (`foldlM_inv`, `foldlM_returns`).

`while (cond)` as `whileLoop`, given up after so many tests of the
condition. It ends exactly where the condition first fails along the
iterates of the body (`whileLoop_ends`).
-/

namespace Loops

/-! ## Counting loops -/

section For

variable {D : Type*} {n : Nat} {P : Nat → D → Prop} {d : D}

theorem foldl_inv (body : D → Fin n → D) (h0 : P 0 d)
    (hstep : ∀ (i : Fin n) d, P i.val d → P (i.val + 1) (body d i)) :
    P n (Fin.foldl n body d) := by
  induction n with
  | zero => exact h0
  | succ n ih =>
      rw [Fin.foldl_succ_last]
      exact hstep (Fin.last n) _ (ih _ fun i d h => hstep i.castSucc d h)

theorem foldlM_inv (body : D → Fin n → Option D) {d' : D} (h0 : P 0 d)
    (hstep : ∀ (i : Fin n) d d', P i.val d → body d i = some d' → P (i.val + 1) d')
    (hrun : Fin.foldlM n body d = some d') : P n d' := by
  induction n generalizing d' with
  | zero =>
      rw [Fin.foldlM_zero] at hrun
      cases hrun
      exact h0
  | succ n ih =>
      rw [Fin.foldlM_succ_last] at hrun
      obtain ⟨m, hm, hlast⟩ := Option.bind_eq_some_iff.mp hrun
      exact hstep (Fin.last n) m d' (ih _ (fun i d d' h hb => hstep i.castSucc d d' h hb) hm) hlast

/-- A loop none of whose turns traps returns. -/
theorem foldlM_returns (body : D → Fin n → Option D) (h0 : P 0 d)
    (hstep : ∀ (i : Fin n) d, P i.val d → ∃ d', body d i = some d' ∧ P (i.val + 1) d') :
    ∃ d', Fin.foldlM n body d = some d' := by
  have hall : ∃ d', Fin.foldlM n body d = some d' ∧ P n d' := by
    induction n with
    | zero => exact ⟨d, by rw [Fin.foldlM_zero]; rfl, h0⟩
    | succ n ih =>
        obtain ⟨m, hm, hP⟩ := ih (fun d i => body d i.castSucc) fun i d h => hstep i.castSucc d h
        obtain ⟨d', hd', hP'⟩ := hstep (Fin.last n) m hP
        refine ⟨d', ?_, hP'⟩
        rw [Fin.foldlM_succ_last]
        exact Option.bind_eq_some_iff.mpr ⟨m, hm, hd'⟩
  exact hall.imp fun _ h => h.1

end For

/-! ## Open-ended loops -/

section While

variable {S : Type*} (cond : S → Bool) (body : S → S)

def whileLoop : Nat → S → Option S
  | 0, _ => none
  | fuel + 1, s => if cond s then whileLoop fuel (body s) else some s

/-- Where the loop ends, and that this takes one test more than turns. -/
theorem whileLoop_eq_some {fuel : Nat} {s s' : S} (h : whileLoop cond body fuel s = some s') :
    ∃ turns, body^[turns] s = s' ∧ cond s' = false ∧ ∀ t < turns, cond (body^[t] s) = true := by
  induction fuel generalizing s with
  | zero => cases h
  | succ fuel ih =>
      rw [whileLoop] at h
      split at h
      · rename_i hcond
        obtain ⟨turns, hend, hexit, hbefore⟩ := ih h
        refine ⟨turns + 1, hend, hexit, ?_⟩
        intro t ht
        cases t with
        | zero => exact hcond
        | succ t => exact hbefore t (by omega)
      · rename_i hcond
        cases h
        exact ⟨0, rfl, by simpa using hcond, fun t ht => absurd ht (Nat.not_lt_zero t)⟩

theorem whileLoop_of_exit {turns : Nat} {s : S} (hexit : cond (body^[turns] s) = false)
    (hbefore : ∀ t < turns, cond (body^[t] s) = true) :
    whileLoop cond body (turns + 1) s = some (body^[turns] s) := by
  induction turns generalizing s with
  | zero => simpa [whileLoop] using hexit
  | succ turns ih =>
      have hcond : cond s = true := hbefore 0 (by omega)
      rw [whileLoop, if_pos hcond]
      exact ih hexit fun t ht => hbefore (t + 1) (by omega)

/-- The loop ends where its condition first fails, and only there. -/
theorem whileLoop_ends {s s' : S} :
    (∃ fuel, whileLoop cond body fuel s = some s') ↔
      ∃ turns, body^[turns] s = s' ∧ cond s' = false ∧
        ∀ t < turns, cond (body^[t] s) = true := by
  constructor
  · rintro ⟨fuel, h⟩
    exact whileLoop_eq_some cond body h
  · rintro ⟨turns, rfl, hexit, hbefore⟩
    exact ⟨turns + 1, whileLoop_of_exit cond body hexit hbefore⟩

theorem whileLoop_inv {P : S → Prop} (hbody : ∀ s, P s → P (body s)) {fuel : Nat} {s s' : S}
    (hs : P s) (h : whileLoop cond body fuel s = some s') : P s' := by
  obtain ⟨turns, rfl, -⟩ := whileLoop_eq_some cond body h
  clear h
  induction turns with
  | zero => exact hs
  | succ turns ih =>
      rw [Function.iterate_succ_apply']
      exact hbody _ ih

end While

end Loops
