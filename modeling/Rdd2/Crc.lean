import Mathlib.Data.List.Basic
import Mathlib.Logic.Function.Iterate
import Mathlib.Tactic.Common

/-!
# Cyclic redundancy checks, bit by bit

A register of `w` bits that is fed one message bit at a time, most
significant first: the bit goes into the top of the register, the register
is shifted out by one, and the polynomial is added in when the bit that
left was set.

The register is linear in what it started from and in the message together
(`run_xor`), so what an error does to a checksum depends on the error
alone. Up to `w` bits can be put into the register at once
(`run_eq_turns`), and a polynomial with its lowest bit set never turns a
register that is not zero into zero; so a burst, an error within `w`
consecutive bits, always changes the checksum (`run_burst`).
-/

namespace Crc

variable {w : Nat}

/-- Shift the register out by one bit. -/
def turn (poly s : BitVec w) : BitVec w :=
  if s.msb then (s <<< 1) ^^^ poly else s <<< 1

def top (b : Bool) : BitVec w := if b then BitVec.intMin w else 0#w

def feed (poly s : BitVec w) (b : Bool) : BitVec w := turn poly (s ^^^ top b)

/-- The register after a message. -/
def run (poly s : BitVec w) (bits : List Bool) : BitVec w := bits.foldl (feed poly) s

@[simp] theorem run_nil (poly s : BitVec w) : run poly s [] = s := rfl

@[simp] theorem run_cons (poly s : BitVec w) (b : Bool) (bits : List Bool) :
    run poly s (b :: bits) = run poly (feed poly s b) bits := rfl

theorem run_append (poly s : BitVec w) (a b : List Bool) :
    run poly s (a ++ b) = run poly (run poly s a) b := List.foldl_append

/-! ## Linearity -/

@[simp] theorem top_false : (top false : BitVec w) = 0#w := rfl

theorem top_xor (a b : Bool) : (top (a ^^ b) : BitVec w) = top a ^^^ top b := by
  cases a <;> cases b <;> simp [top]

@[simp] theorem turn_zero (poly : BitVec w) : turn poly 0#w = 0#w := by simp [turn]

theorem turn_xor (poly s t : BitVec w) :
    turn poly (s ^^^ t) = turn poly s ^^^ turn poly t := by
  simp only [turn, BitVec.msb_xor, BitVec.shiftLeft_xor_distrib]
  cases s.msb <;> cases t.msb
  · rfl
  · simp [BitVec.xor_assoc]
  · simp only [Bool.xor_false, if_true, Bool.false_eq_true, if_false]
    rw [BitVec.xor_assoc, BitVec.xor_assoc, BitVec.xor_comm (t <<< 1)]
  · -- the polynomial comes in twice and cancels
    simp only [Bool.xor_true, Bool.not_true, Bool.false_eq_true, if_false, if_true]
    rw [BitVec.xor_assoc, ← BitVec.xor_assoc poly, BitVec.xor_comm poly, BitVec.xor_assoc,
      BitVec.xor_self, BitVec.xor_zero]

theorem feed_xor (poly s t : BitVec w) (a b : Bool) :
    feed poly (s ^^^ t) (a ^^ b) = feed poly s a ^^^ feed poly t b := by
  rw [feed, feed, feed, ← turn_xor, top_xor]
  congr 1
  rw [BitVec.xor_assoc, BitVec.xor_assoc, ← BitVec.xor_assoc t, BitVec.xor_comm t,
    BitVec.xor_assoc]

theorem run_xor (poly : BitVec w) {a b : List Bool} (h : a.length = b.length)
    (s t : BitVec w) :
    run poly (s ^^^ t) (List.zipWith xor a b) = run poly s a ^^^ run poly t b := by
  induction a generalizing b s t with
  | nil =>
      obtain rfl := List.eq_nil_of_length_eq_zero h.symm
      rfl
  | cons x a ih =>
      cases b with
      | nil => simp at h
      | cons y b =>
          rw [List.zipWith_cons_cons, run_cons, feed_xor]
          exact ih (by simpa using h) _ _

/-- What an error adds to a checksum is the checksum of the error. -/
theorem run_error (poly : BitVec w) {d e : List Bool} (h : d.length = e.length) (s : BitVec w) :
    run poly s (List.zipWith xor d e) = run poly s d ^^^ run poly 0#w e := by
  have hxor := run_xor poly h s 0#w
  rwa [BitVec.xor_zero] at hxor

/-! ## The register never empties -/

theorem turn_eq_zero {poly : BitVec w} (hpoly : poly.getLsbD 0 = true) {s : BitVec w}
    (h : turn poly s = 0#w) : s = 0#w := by
  rw [turn] at h
  split at h
  · -- the shift leaves the lowest bit clear and the polynomial sets it
    have hlow := congrArg (BitVec.getLsbD · 0) h
    simp [hpoly] at hlow
  · rename_i hmsb
    apply BitVec.eq_of_getMsbD_eq
    intro i hi
    rw [BitVec.getMsbD_zero]
    cases i with
    | zero => simpa [BitVec.msb_eq_getMsbD_zero] using hmsb
    | succ i =>
        have hbit := congrArg (BitVec.getMsbD · i) h
        simp only [BitVec.getMsbD_shiftLeft, BitVec.getMsbD_zero] at hbit
        exact hbit

theorem turns_eq_zero {poly : BitVec w} (hpoly : poly.getLsbD 0 = true) (n : Nat)
    {s : BitVec w} (h : (turn poly)^[n] s = 0#w) : s = 0#w := by
  induction n generalizing s with
  | zero => exact h
  | succ n ih => exact turn_eq_zero hpoly (ih h)

theorem run_zeros (poly s : BitVec w) (n : Nat) :
    run poly s (List.replicate n false) = (turn poly)^[n] s := by
  induction n generalizing s with
  | zero => rfl
  | succ n ih =>
      rw [List.replicate_succ, run_cons, ih, Function.iterate_succ_apply, feed, top_false,
        BitVec.xor_zero]

theorem turns_zero (poly : BitVec w) (n : Nat) : (turn poly)^[n] 0#w = 0#w := by
  induction n with
  | zero => rfl
  | succ n ih => rw [Function.iterate_succ_apply, turn_zero, ih]

/-! ## A word at a time -/

/-- Bits side by side, the first in the top place of the register. -/
def place : List Bool → BitVec w
  | [] => 0#w
  | b :: bits => top b ^^^ (place bits >>> 1)

theorem getMsbD_top (b : Bool) {i : Nat} (hi : i < w) :
    (top b : BitVec w).getMsbD i = (decide (i = 0) && b) := by
  cases b
  · simp
  · rw [top, if_pos rfl, BitVec.getMsbD_intMin]
    simp only [Bool.and_true]
    grind

theorem getMsbD_place (bits : List Bool) {i : Nat} (hi : i < w) :
    (place bits : BitVec w).getMsbD i = bits.getD i false := by
  induction bits generalizing i with
  | nil => simp [place]
  | cons b bits ih =>
      rw [place, BitVec.getMsbD_xor, getMsbD_top b hi, BitVec.getMsbD_ushiftRight]
      cases i with
      | zero => simp
      | succ i => simp [ih (by omega : i < w), hi]

theorem place_ne_zero {bits : List Bool} (hlen : bits.length ≤ w) (h : true ∈ bits) :
    (place bits : BitVec w) ≠ 0#w := by
  intro hzero
  obtain ⟨i, hi, hbit⟩ := List.mem_iff_getElem.mp h
  have hplace := getMsbD_place (w := w) bits (by omega : i < w)
  simp [hzero, hi, hbit] at hplace

/-- A register with its lowest bit clear comes back from a shift. -/
theorem turn_ushiftRight (poly : BitVec w) {x : BitVec w} (h : x.getMsbD (w - 1) = false) :
    turn poly (x >>> 1) = x := by
  have hmsb : (x >>> 1).msb = false := by
    rw [BitVec.msb_eq_getMsbD_zero, BitVec.getMsbD_ushiftRight]
    simp
  rw [turn, hmsb, if_neg (by simp)]
  apply BitVec.eq_of_getMsbD_eq
  intro i hi
  rw [BitVec.getMsbD_shiftLeft, BitVec.getMsbD_ushiftRight]
  by_cases hlast : i = w - 1
  · subst hlast
    rw [h]
    simp
    omega
  · simp
    omega

/-- Up to `w` bits may be put in at once and shifted out together. -/
theorem run_eq_turns (poly : BitVec w) {bits : List Bool} (h : bits.length ≤ w) (s : BitVec w) :
    run poly s bits = (turn poly)^[bits.length] (s ^^^ place bits) := by
  induction bits generalizing s with
  | nil =>
      rw [run_nil, place, BitVec.xor_zero]
      rfl
  | cons b bits ih =>
      rw [List.length_cons] at h
      have hlow : (place bits : BitVec w).getMsbD (w - 1) = false := by
        rw [getMsbD_place bits (by omega)]
        rw [List.getD_eq_getElem?_getD, List.getElem?_eq_none (by omega)]
        rfl
      rw [run_cons, ih (by omega), List.length_cons, Function.iterate_succ_apply, place,
        ← BitVec.xor_assoc, turn_xor, turn_ushiftRight poly hlow]
      rfl

/-! ## Bursts -/

/-- Some bit of the error is set, and all that are lie within `n`
consecutive places. -/
def Burst (n : Nat) (e : List Bool) : Prop :=
  true ∈ e ∧ ∃ k, ∀ i, e[i]? = some true → k ≤ i ∧ i < k + n

instance (n : Nat) (e : List Bool) : Decidable (Burst n e) :=
  decidable_of_iff
    (true ∈ e ∧ ∃ k < e.length, ∀ i < e.length, e[i]? = some true → k ≤ i ∧ i < k + n) <| by
    constructor
    · rintro ⟨hset, k, -, hin⟩
      exact ⟨hset, k, fun i hi => hin i (List.getElem?_eq_some_iff.mp hi).1 hi⟩
    · rintro ⟨hset, k, hin⟩
      obtain ⟨i, hi, hbit⟩ := List.mem_iff_getElem.mp hset
      have hplace := hin i (by rw [List.getElem?_eq_getElem hi, hbit])
      exact ⟨hset, k, by omega, fun j _ hj => hin j hj⟩

/-- Entries that differ from `z` only within a stretch lie between copies
of `z`. -/
theorem eq_replicate_around {α : Type} {z : α} {e : List α} {k n : Nat}
    (h : ∀ i a, e[i]? = some a → a ≠ z → k ≤ i ∧ i < k + n) :
    e = List.replicate (e.take k).length z ++ (e.drop k).take n
      ++ List.replicate ((e.drop k).drop n).length z := by
  have hbefore : e.take k = List.replicate (e.take k).length z := by
    refine List.eq_replicate_of_mem fun a ha => ?_
    obtain ⟨i, hi, rfl⟩ := List.mem_iff_getElem.mp ha
    by_contra hne
    rw [List.getElem_take] at hne
    rw [List.length_take] at hi
    have hplace := h i _ (List.getElem?_eq_getElem (by omega)) hne
    omega
  have hbehind : (e.drop k).drop n = List.replicate ((e.drop k).drop n).length z := by
    refine List.eq_replicate_of_mem fun a ha => ?_
    obtain ⟨i, hi, rfl⟩ := List.mem_iff_getElem.mp ha
    by_contra hne
    rw [List.getElem_drop, List.getElem_drop] at hne
    rw [List.length_drop, List.length_drop] at hi
    have hplace := h (k + (n + i)) _ (List.getElem?_eq_getElem (by omega)) hne
    omega
  rw [← hbefore, ← hbehind, List.append_assoc, List.take_append_drop, List.take_append_drop]

/-- A burst is a short word between zeros. -/
theorem Burst.split {n : Nat} {e : List Bool} (h : Burst n e) :
    ∃ (j m : Nat) (word : List Bool), word.length ≤ n ∧ true ∈ word ∧
      e = List.replicate j false ++ word ++ List.replicate m false := by
  obtain ⟨hset, k, hin⟩ := h
  have hsplit := eq_replicate_around (z := false) (e := e) (k := k) (n := n)
    fun i b hi hb => hin i (by simpa [hb] using hi)
  refine ⟨_, _, _, List.length_take_le _ _, ?_, hsplit⟩
  rw [hsplit] at hset
  simpa using hset

/-- A burst no longer than the register has a checksum of its own. -/
theorem run_burst {poly : BitVec w} (hpoly : poly.getLsbD 0 = true) {e : List Bool}
    (h : Burst w e) : run poly 0#w e ≠ 0#w := by
  obtain ⟨j, m, word, hlen, hword, rfl⟩ := h.split
  intro hzero
  rw [run_append, run_append, run_zeros, run_zeros, turns_zero] at hzero
  have hrun := turns_eq_zero hpoly m hzero
  rw [run_eq_turns poly hlen] at hrun
  have hplace := turns_eq_zero hpoly word.length hrun
  exact place_ne_zero hlen hword (by simpa using hplace)

/-- So it is detected, whatever the message and the seed. -/
theorem run_detects {poly : BitVec w} (hpoly : poly.getLsbD 0 = true) {d e : List Bool}
    (hlen : d.length = e.length) (h : Burst w e) (s : BitVec w) :
    run poly s (List.zipWith xor d e) ≠ run poly s d := by
  intro heq
  rw [run_error poly hlen] at heq
  have hcancel := congrArg (run poly s d ^^^ ·) heq
  simp only [← BitVec.xor_assoc, BitVec.xor_self, BitVec.zero_xor] at hcancel
  exact run_burst hpoly h hcancel

end Crc
