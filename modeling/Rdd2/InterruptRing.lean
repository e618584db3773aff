import Rdd2.Guarded

/-!
# A ring filled at interrupt level

An interrupt offers items to a bounded ring, and a thread drains it: it takes a
chunk out, handles the items of the chunk one after the other, takes the next,
and goes to sleep when it finds the ring empty. The interrupt may come between
any two steps of the thread. Items that do not fit are lost, and the interrupt
notes how many.

What the reader has made of its items is what it makes of all of them handled in
one go, the interrupt's notes aside, and what was handled, what is in the chunk
and what is in the ring are together what was stored, in order (`run_account`).
While no more items come between two sleeps than the ring holds, everything that
was offered was stored (`run_lossless`).
-/

namespace InterruptRing

variable {α σ : Type*}

/-- What the two sides do with the items. -/
structure Reader (α σ : Type*) where
  capacity : Nat
  /-- The most items that are taken out at once. -/
  chunkMax : Nat
  /-- What the thread does with an item. -/
  handle : σ → α → σ
  /-- What the interrupt does about items that did not fit. -/
  overrun : σ → Nat → σ

/-- The two sides write to different places. -/
structure Reader.Lawful (R : Reader α σ) : Prop where
  overrun_zero : ∀ s, R.overrun s 0 = s
  overrun_add : ∀ s m n, R.overrun (R.overrun s m) n = R.overrun s (m + n)
  handle_overrun : ∀ s n a, R.handle (R.overrun s n) a = R.overrun (R.handle s a) n

/-- The ring, the thread, and the history of both: what was offered, stored and
handled, and how much was offered since the thread last found nothing. -/
structure State (α σ : Type*) where
  ring : List α
  chunk : List α
  draining : Bool
  reader : σ
  offered : List α
  stored : List α
  handled : List α
  burst : Nat

def init (reader : σ) : State α σ where
  ring := []
  chunk := []
  draining := false
  reader := reader
  offered := []
  stored := []
  handled := []
  burst := 0

inductive Event (α : Type*) where
  /-- The interrupt has items. -/
  | offer (items : List α)
  /-- The thread begins to drain. -/
  | wake
  /-- The thread takes the next chunk, or finds nothing. -/
  | take
  /-- The thread handles the next item of its chunk. -/
  | handle
  deriving DecidableEq

variable (R : Reader α σ)

def Reader.fits (s : State α σ) (items : List α) : List α :=
  items.take (R.capacity - s.ring.length)

def step (s : State α σ) : Event α → Option (State α σ)
  | .offer items =>
      some { s with
        ring := s.ring ++ R.fits s items
        reader := R.overrun s.reader (items.length - (R.fits s items).length)
        offered := s.offered ++ items
        stored := s.stored ++ R.fits s items
        burst := s.burst + items.length }
  | .wake => if s.draining then none else some { s with draining := true }
  | .take =>
      if s.draining = false ∨ s.chunk.isEmpty = false then none
      else if s.ring.isEmpty then some { s with draining := false, burst := 0 }
      else some { s with chunk := s.ring.take R.chunkMax, ring := s.ring.drop R.chunkMax }
  | .handle =>
      match s.chunk with
      | [] => none
      | a :: rest =>
          some { s with
            chunk := rest
            reader := R.handle s.reader a
            handled := s.handled ++ [a] }

/-! ## What a step can do -/

theorem step_cases {s t : State α σ} {e : Event α} (h : step R s e = some t) :
    (∃ items, e = .offer items ∧
        t = { s with
          ring := s.ring ++ R.fits s items
          reader := R.overrun s.reader (items.length - (R.fits s items).length)
          offered := s.offered ++ items
          stored := s.stored ++ R.fits s items
          burst := s.burst + items.length }) ∨
      (e = .wake ∧ s.draining = false ∧ t = { s with draining := true }) ∨
      (e = .take ∧ s.draining = true ∧ s.chunk = [] ∧ s.ring = [] ∧
        t = { s with draining := false, burst := 0 }) ∨
      (e = .take ∧ s.draining = true ∧ s.chunk = [] ∧ s.ring ≠ [] ∧
        t = { s with chunk := s.ring.take R.chunkMax, ring := s.ring.drop R.chunkMax }) ∨
      (∃ a rest, e = .handle ∧ s.chunk = a :: rest ∧
        t = { s with
          chunk := rest
          reader := R.handle s.reader a
          handled := s.handled ++ [a] }) := by
  cases e with
  | offer items => exact Or.inl ⟨items, rfl, (Option.some.inj h).symm⟩
  | wake =>
      rw [step] at h
      split at h
      · cases h
      · rename_i hdraining
        exact Or.inr (Or.inl ⟨rfl, by simpa using hdraining, (Option.some.inj h).symm⟩)
  | take =>
      rw [step] at h
      split at h
      · cases h
      · rename_i hnot
        rw [not_or] at hnot
        have hdraining : s.draining = true := by simpa using hnot.1
        have hchunk : s.chunk = [] := by simpa using hnot.2
        split at h
        · rename_i hring
          exact Or.inr (Or.inr (Or.inl
            ⟨rfl, hdraining, hchunk, by simpa using hring, (Option.some.inj h).symm⟩))
        · rename_i hring
          exact Or.inr (Or.inr (Or.inr (Or.inl
            ⟨rfl, hdraining, hchunk, by simpa using hring, (Option.some.inj h).symm⟩)))
  | handle =>
      rw [step] at h
      split at h
      · cases h
      · rename_i a rest hchunk
        exact Or.inr (Or.inr (Or.inr (Or.inr ⟨a, rest, rfl, hchunk, (Option.some.inj h).symm⟩)))

/-! ## Accounts -/

/-- Where every item offered has gone. -/
structure Account (start : σ) (s : State α σ) : Prop where
  /-- The ring holds no more than it can. -/
  ring_le : s.ring.length ≤ R.capacity
  /-- First in, first out. -/
  stored_eq : s.stored = s.handled ++ s.chunk ++ s.ring
  /-- What was stored was offered, in that order. -/
  stored_sublist : s.stored.Sublist s.offered
  /-- The reader has handled its items, and the interrupt has noted the rest. -/
  reader_eq : s.reader
    = R.overrun (s.handled.foldl R.handle start) (s.offered.length - s.stored.length)
  /-- The ring holds nothing from before the thread last found nothing. -/
  ring_le_burst : s.ring.length ≤ s.burst
  /-- A sleeping thread has handled its chunk. -/
  asleep : s.draining = false → s.chunk = []

variable {R}

theorem init_account (hR : R.Lawful) (start : σ) : Account R start (init start) where
  ring_le := Nat.zero_le _
  stored_eq := rfl
  stored_sublist := List.Sublist.refl _
  reader_eq := (hR.overrun_zero start).symm
  ring_le_burst := Nat.le_refl _
  asleep := fun _ => rfl

/-- A step loses nothing but what does not fit. -/
theorem step_account (hR : R.Lawful) {start : σ} (s : State α σ) (e : Event α) (t : State α σ)
    (h : Account R start s) (hstep : step R s e = some t) : Account R start t := by
  obtain ⟨items, rfl, rfl⟩ | ⟨rfl, -, rfl⟩ | ⟨rfl, -, hchunk, hring, rfl⟩
    | ⟨rfl, hdraining, hchunk, -, rfl⟩ | ⟨a, rest, rfl, hchunk, rfl⟩ := step_cases R hstep
  · have hfits : (R.fits s items).length ≤ R.capacity - s.ring.length := List.length_take_le _ _
    have hlost : (R.fits s items).length ≤ items.length := (List.take_sublist _ _).length_le
    have hstored := h.stored_sublist.length_le
    have hring := h.ring_le
    have hburst := h.ring_le_burst
    refine ⟨?_, ?_, h.stored_sublist.append (List.take_sublist _ _), ?_, ?_, h.asleep⟩
    · rw [List.length_append]
      omega
    · simp only [h.stored_eq, List.append_assoc]
    · simp only
      rw [h.reader_eq, hR.overrun_add, List.length_append, List.length_append]
      congr 1
      omega
    · rw [List.length_append]
      simp only
      omega
  · exact ⟨h.ring_le, h.stored_eq, h.stored_sublist, h.reader_eq, h.ring_le_burst,
      fun hasleep => absurd hasleep (by simp)⟩
  · refine ⟨h.ring_le, h.stored_eq, h.stored_sublist, h.reader_eq, ?_, fun _ => hchunk⟩
    rw [hring]
    exact Nat.le_refl _
  · have hdrop : (s.ring.drop R.chunkMax).length ≤ s.ring.length := (List.drop_sublist _ _).length_le
    refine ⟨Nat.le_trans hdrop h.ring_le, ?_, h.stored_sublist, h.reader_eq,
      Nat.le_trans hdrop h.ring_le_burst, fun hasleep => ?_⟩
    · simp only
      rw [List.append_assoc, List.take_append_drop, h.stored_eq, hchunk, List.append_nil]
    · rw [hdraining] at hasleep
      cases hasleep
  · refine ⟨h.ring_le, ?_, h.stored_sublist, ?_, h.ring_le_burst, fun hasleep => ?_⟩
    · simp only
      rw [h.stored_eq, hchunk]
      simp
    · simp only
      rw [h.reader_eq, hR.handle_overrun, List.foldl_append]
      rfl
    · have hempty := h.asleep hasleep
      rw [hchunk] at hempty
      cases hempty

theorem run_account (hR : R.Lawful) (start : σ) {events : List (Event α)} {s : State α σ}
    (hrun : Guarded.run (step R) (init start) events = some s) : Account R start s :=
  Guarded.run_inv (step R) (step_account hR) (init_account hR start) hrun

/-- A thread that has gone back to sleep has handled everything stored until then:
what is left is what came since. -/
theorem Account.handled_of_idle {start : σ} {s : State α σ} (h : Account R start s)
    (hchunk : s.chunk = []) (hring : s.ring = []) : s.handled = s.stored := by
  rw [h.stored_eq, hchunk, hring, List.append_nil, List.append_nil]

/-! ## Bursts that fit -/

/-- What the interrupt brings fits the ring, together with all that came since the
thread last found it empty. -/
def BurstFits (R : Reader α σ) (s : State α σ) : Event α → Prop
  | .offer items => s.burst + items.length ≤ R.capacity
  | _ => True

instance (R : Reader α σ) (s : State α σ) : (e : Event α) → Decidable (BurstFits R s e)
  | .offer items => inferInstanceAs (Decidable (s.burst + items.length ≤ R.capacity))
  | .wake | .take | .handle => .isTrue trivial

theorem run_lossless (hR : R.Lawful) (start : σ) {events : List (Event α)} {s : State α σ}
    (hfits : Guarded.Ok (step R) (BurstFits R) (init start) events)
    (hrun : Guarded.run (step R) (init start) events = some s) : s.stored = s.offered := by
  suffices h : Account R start s ∧ s.stored = s.offered from h.2
  refine Guarded.ok_keeps (step R) (P := fun s => Account R start s ∧ s.stored = s.offered) ?_
    ⟨init_account hR start, rfl⟩ hfits hrun
  intro s e t hfit h hstep
  refine ⟨step_account hR s e t h.1 hstep, ?_⟩
  obtain ⟨items, rfl, rfl⟩ | ⟨-, -, rfl⟩ | ⟨-, -, -, -, rfl⟩ | ⟨-, -, -, -, rfl⟩ | ⟨-, -, -, -, rfl⟩ :=
    step_cases R hstep
  · have hroom : items.length ≤ R.capacity - s.ring.length := by
      have hburst := h.1.ring_le_burst
      have hfit : s.burst + items.length ≤ R.capacity := hfit
      omega
    simp only [Reader.fits, List.take_of_length_le hroom, h.2]
  all_goals exact h.2

end InterruptRing
