import Mathlib.Algebra.Group.Nat.Defs
import Mathlib.Logic.Function.Basic
import Mathlib.Tactic.Common

/-!
# Sequence locks

The generic theory of a value published under a sequence counter. One
writer makes the counter odd, stores the cells of the value one at a time,
and makes the counter even again; a reader loads the counter, copies the
cells one at a time, and loads the counter again.

`Write` are the writer's steps on the shared memory. `Stable` is its
invariant: while the counter is even the memory is the value committed
last. `Copied` is the reader's: as long as the counter is what it was when
the copy began, the cells copied so far are those in memory. A finished
copy with an unchanged counter is therefore a committed value
(`Copied.mem_committed`), whatever the writer did in between.

The counter here does not wrap. A 32-bit word has its parity, and determines it
where it is known to stay below 2^32 (`word_inj`); otherwise that is for the
user to know.
-/

namespace Seqlock

variable {ι : Type} {V : ι → Type}

/-- The memory under the lock, the number of increments of its counter, and
the values committed so far, the latest first. -/
structure Shared (V : ι → Type) where
  incs : Nat
  mem : ∀ i, V i
  committed : List (∀ i, V i)

/-- While no write is in progress the memory is a committed value. -/
def Stable (m : Shared V) : Prop := m.incs % 2 = 0 → m.mem ∈ m.committed

/-- A copy into `dest` begun at count `start`, with the cells `done` copied
so far. -/
structure Copied (m : Shared V) (start : Nat) (done : ι → Prop) (dest : ∀ i, V i) : Prop where
  even : start % 2 = 0
  le : start ≤ m.incs
  same : m.incs = start → ∀ i, done i → dest i = m.mem i

theorem Copied.start {m : Shared V} (h : m.incs % 2 = 0) (dest : ∀ i, V i) :
    Copied m m.incs (fun _ => False) dest :=
  ⟨h, Nat.le_refl _, fun _ _ hdone => hdone.elim⟩

theorem Copied.mono {m : Shared V} {start : Nat} {done done' : ι → Prop} {dest : ∀ i, V i}
    (hc : Copied m start done dest) (h : ∀ i, done' i → done i) : Copied m start done' dest :=
  ⟨hc.even, hc.le, fun heq i hi => hc.same heq i (h i hi)⟩

/-- A whole copy under an unchanged counter is a committed value. -/
theorem Copied.mem_committed {m : Shared V} {start : Nat} {done : ι → Prop} {dest : ∀ i, V i}
    (hc : Copied m start done dest) (hm : Stable m) (hall : ∀ i, done i)
    (heq : m.incs = start) : dest ∈ m.committed := by
  have hdest : dest = m.mem := funext fun i => hc.same heq i (hall i)
  rw [hdest]
  exact hm (heq ▸ hc.even)

/-! ## The counter as a word -/

theorem word_succ {word : UInt32} {n : Nat} (h : word = UInt32.ofNat n) :
    word + 1 = UInt32.ofNat (n + 1) := by
  rw [h, UInt32.ofNat_add]
  rfl

theorem word_even {word : UInt32} {n : Nat} (h : word = UInt32.ofNat n)
    (heven : ¬ word &&& 1 ≠ 0) : n % 2 = 0 := by
  have hzero : (word &&& 1).toNat = 0 := by
    rw [Decidable.not_not.mp heven]
    rfl
  have hand : (word &&& 1).toNat = word.toNat % 2 := by
    rw [UInt32.toNat_and]
    exact Nat.and_one_is_mod _
  rw [hand, h, UInt32.toNat_ofNat'] at hzero
  omega

theorem word_inj {word : UInt32} {n m : Nat} (hn : word = UInt32.ofNat n)
    (hm : word = UInt32.ofNat m) (hnlt : n < 2 ^ 32) (hmlt : m < 2 ^ 32) : n = m := by
  have h := congrArg UInt32.toNat (hn.symm.trans hm)
  rw [UInt32.toNat_ofNat', UInt32.toNat_ofNat'] at h
  omega

/-! ## Steps -/

variable [DecidableEq ι]

inductive Write : Shared V → Shared V → Prop where
  | enter (m : Shared V) (h : m.incs % 2 = 0) : Write m { m with incs := m.incs + 1 }
  | store (m : Shared V) (h : m.incs % 2 = 1) (i : ι) (v : V i) :
      Write m { m with mem := Function.update m.mem i v }
  | leave (m : Shared V) (h : m.incs % 2 = 1) :
      Write m { m with incs := m.incs + 1, committed := m.mem :: m.committed }

theorem Stable.write {m m' : Shared V} (h : Write m m') : Stable m' := by
  intro heven
  cases h with
  | enter h => simp only at heven; omega
  | store h i v => simp only at heven; omega
  | leave h => exact List.mem_cons_self

theorem committed_write {m m' : Shared V} (h : Write m m') {v : ∀ i, V i}
    (hv : v ∈ m.committed) : v ∈ m'.committed := by
  cases h with
  | enter h => exact hv
  | store h i v => exact hv
  | leave h => exact List.mem_cons_of_mem _ hv

/-- The copy is not disturbed: a step of the writer either leaves the memory
alone or shows in the counter. -/
theorem Copied.write {m m' : Shared V} (h : Write m m') {start : Nat} {done : ι → Prop}
    {dest : ∀ i, V i} (hc : Copied m start done dest) : Copied m' start done dest := by
  have heven := hc.even
  have hle := hc.le
  cases h with
  | enter h =>
      refine ⟨heven, Nat.le_succ_of_le hle, fun heq => ?_⟩
      simp only at heq
      omega
  | store h i v =>
      refine ⟨heven, hle, fun heq => ?_⟩
      simp only at heq
      omega
  | leave h =>
      refine ⟨heven, Nat.le_succ_of_le hle, fun heq => ?_⟩
      simp only at heq
      omega

theorem Copied.load {m : Shared V} {start : Nat} {done : ι → Prop} {dest : ∀ i, V i}
    (hc : Copied m start done dest) (i : ι) :
    Copied m start (fun j => j = i ∨ done j) (Function.update dest i (m.mem i)) := by
  refine ⟨hc.even, hc.le, fun heq j hj => ?_⟩
  by_cases hji : j = i
  · subst hji
    exact Function.update_self ..
  · rw [Function.update_of_ne hji]
    exact hc.same heq j (hj.resolve_left hji)

end Seqlock
