import Mathlib.Data.Fin.Basic
import Mathlib.Logic.Function.Basic
import Mathlib.Tactic.Common

/-!
# Double buffers

The generic theory of a value published in two places by turns. The writer
stores the cells of the next value one at a time in the place that is not
read, in any order, and makes the turn by counting up; a reader loads the
count, copies the cells from the place it names, and loads the count again.

`Write` are the writer's steps. The value published last (`front`) is not
touched until the second turn after it, so a copy whose count has not moved is
a copy of it (`Copied`, kept by every `Write`). The count here does not wrap;
that a loaded word determines it is for the user to know.
-/

namespace DoubleBuffer

variable {ι : Type} {V : ι → Type}

def place (n : Nat) : Fin 2 := Fin.ofNat 2 n

theorem place_succ_ne (n : Nat) : place (n + 1) ≠ place n := by
  intro h
  have hval := Fin.val_eq_of_eq h
  simp only [place, Fin.ofNat_eq_cast, Fin.val_natCast] at hval
  omega

/-- The two places and the number of values published. -/
structure Buffers (V : ι → Type) where
  count : Nat
  places : Fin 2 → ∀ i, V i

/-- The value published last. -/
def Buffers.front (b : Buffers V) : ∀ i, V i := b.places (place b.count)

/-- Where the next value goes. -/
def Buffers.back (b : Buffers V) : ∀ i, V i := b.places (place (b.count + 1))

def Buffers.turn (b : Buffers V) : Buffers V := { b with count := b.count + 1 }

theorem Buffers.front_turn (b : Buffers V) : b.turn.front = b.back := rfl

/-- A copy into `dest` begun at count `start`, with the cells `done` copied
so far. -/
structure Copied (b : Buffers V) (start : Nat) (done : ι → Prop) (dest : ∀ i, V i) : Prop where
  le : start ≤ b.count
  same : b.count = start → ∀ i, done i → dest i = b.front i

/-- More cells: each is one copied before, or just now from the place the
count named at the start. -/
theorem Copied.load {b : Buffers V} {start : Nat} {done done' : ι → Prop} {dest dest' : ∀ i, V i}
    (hc : Copied b start done dest)
    (h : ∀ i, done' i → (done i ∧ dest' i = dest i) ∨ dest' i = b.places (place start) i) :
    Copied b start done' dest' := by
  refine ⟨hc.le, fun heq i hi => ?_⟩
  rcases h i hi with ⟨hdone, hdest⟩ | hdest
  · rw [hdest]
    exact hc.same heq i hdone
  · rw [hdest, ← heq]
    rfl

variable [DecidableEq ι]

def Buffers.store (b : Buffers V) (i : ι) (v : V i) : Buffers V :=
  { b with places := Function.update b.places (place (b.count + 1)) (Function.update b.back i v) }

theorem Buffers.front_store (b : Buffers V) (i : ι) (v : V i) : (b.store i v).front = b.front :=
  Function.update_of_ne (place_succ_ne b.count).symm ..

theorem Buffers.back_store (b : Buffers V) (i : ι) (v : V i) :
    (b.store i v).back = Function.update b.back i v :=
  Function.update_self ..

inductive Write : Buffers V → Buffers V → Prop where
  | store (b : Buffers V) (i : ι) (v : V i) : Write b (b.store i v)
  | turn (b : Buffers V) : Write b b.turn

/-- The copy is not disturbed: a step of the writer leaves the value it is of
alone, or shows in the count. -/
theorem Copied.write {b b' : Buffers V} (h : Write b b') {start : Nat} {done : ι → Prop}
    {dest : ∀ i, V i} (hc : Copied b start done dest) : Copied b' start done dest := by
  have hle := hc.le
  cases h with
  | store i v =>
      refine ⟨hle, fun heq => ?_⟩
      rw [b.front_store]
      exact hc.same heq
  | turn =>
      refine ⟨Nat.le_succ_of_le hle, fun heq => ?_⟩
      simp only [Buffers.turn] at heq
      omega

end DoubleBuffer
