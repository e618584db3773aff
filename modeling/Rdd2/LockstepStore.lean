import Mathlib.Data.List.GetD
import Rdd2.DoubleBuffer
import Rdd2.Guarded
import Rdd2.LockstepBarrier

/-!
# The lockstep input store

`lockstep_transport.c`: one thread publishes input blobs in two slots by turns,
`rdd2_lockstep_latest_input_get` copies the one published last, and
`rdd2_lockstep_input_wait_next` sleeps until there is one that its caller has
not seen. A step is one access to what they share, a byte at a time where
`memcpy` copies, in any order; the events of a run are the steps in the order
they happen in.

The store is a double buffer whose count is the 32-bit `generation`. For as
many publications as the word can tell apart a read is never torn
(`latest_input_never_torn`). When it comes round to zero, or to what a waiting
reader has seen, the publication is not noticed (`store_works_iff`).
-/

namespace Rdd2.LockstepStore

open DoubleBuffer

/-! ## Data -/

inductive Cell where
  | length
  | byte (k : Nat)
  deriving DecidableEq, Repr

abbrev Cell.Val : Cell → Type
  | .length => UInt16
  | .byte _ => UInt8

abbrev Slot : Type := ∀ c : Cell, c.Val

/-- `RDD2_LOCKSTEP_INPUT_MAX_SIZE` -/
def inputMaxSize : Nat := 56

/-- What `rdd2_lockstep_handle_input_blob` passes on. -/
structure Blob where
  bytes : List UInt8
  length_pos : 0 < bytes.length
  length_le : bytes.length ≤ inputMaxSize

/-- Where `lockstep_input_store_publish` is. -/
inductive WriterPc where
  | idle
  /-- In `memcpy`, with the positions still to copy; then storing the length. -/
  | copy (blob : Blob) (nextGeneration : UInt32) (left : List Nat)
  | setGeneration (blob : Blob) (nextGeneration : UInt32)
  | semGive

/-- Where `rdd2_lockstep_latest_input_get` is. -/
inductive GetterPc where
  | idle
  | generationStart
  | length (generationStart : UInt32)
  /-- In `memcpy`, with the positions still to copy; then at `generation_end`. -/
  | copy (generationStart : UInt32) (length : UInt16) (left : List Nat)
  deriving DecidableEq, Repr

/-- What a call that returned true has handed out, and how many publications
were complete when it read the generation for the last time. -/
structure Returned where
  length : UInt16
  bytes : List UInt8
  generation : UInt32
  published : Nat
  deriving DecidableEq, Repr

/-- A call of `rdd2_lockstep_latest_input_get`, and what the calls so far have
returned, `none` for false. -/
structure Getter where
  pc : GetterPc
  bufSize : Nat
  buf : Nat → UInt8
  returned : List (Option Returned)

/-- Where `rdd2_lockstep_input_wait_next` is. -/
inductive WaiterPc where
  | idle
  /-- About to look at the generation. -/
  | generation
  /-- In `k_sem_take`. -/
  | semTake
  deriving DecidableEq, Repr

/-- A call of `rdd2_lockstep_input_wait_next`, and the generations the calls so
far have returned true with. -/
structure Waiter where
  pc : WaiterPc
  lastGeneration : UInt32
  returned : List UInt32

/-- `g_lockstep_input_store` and `g_lockstep_input_sem`, and the three threads.
No step reads `published`, the blobs whose publication is complete. -/
structure System where
  slots : Fin 2 → Slot
  generation : UInt32
  sem : Bool
  writer : WriterPc
  getter : Getter
  waiter : Waiter
  published : List Blob

inductive Event where
  | publish (blob : Blob)
  | writer (k : Nat)
  | get (bufSize : Nat)
  | getter (k : Nat)
  | wait (lastGeneration : UInt32)
  | waiter

def boot : System where
  slots := fun _ c =>
    match c with
    | .length => 0
    | .byte _ => 0
  generation := 0
  sem := false
  writer := .idle
  getter := { pc := .idle, bufSize := 0, buf := fun _ => 0, returned := [] }
  waiter := { pc := .idle, lastGeneration := 0, returned := [] }
  published := []

/-! ## Steps -/

/-- There are slots. -/
local instance slotsNeZero : NeZero 2 := ⟨Nat.succ_ne_zero 1⟩

/-- `generation & 1U` -/
def slotOf (generation : UInt32) : Fin 2 := Fin.ofNat 2 (generation &&& 1).toNat

def System.store (s : System) (slot : Fin 2) (c : Cell) (v : c.Val) : System :=
  { s with slots := Function.update s.slots slot (Function.update (s.slots slot) c v) }

/-- `lockstep_input_store_publish` -/
def writerStep (s : System) (k : Nat) : Option System :=
  match s.writer with
  | .idle => none
  | .copy blob nextGeneration [] =>
      let stored := s.store (slotOf nextGeneration) .length (UInt16.ofNat blob.bytes.length)
      some { stored with writer := .setGeneration blob nextGeneration }
  | .copy blob nextGeneration left =>
      if k ∈ left then
        let stored := s.store (slotOf nextGeneration) (.byte k) (blob.bytes.getD k 0)
        some { stored with writer := .copy blob nextGeneration (left.erase k) }
      else none
  | .setGeneration blob nextGeneration =>
      some { s with
        generation := nextGeneration
        published := s.published ++ [blob]
        writer := .semGive }
  | .semGive => some { s with sem := true, writer := .idle }

inductive WriterMove (s : System) (k : Nat) : System → Prop
  | length {blob : Blob} {nextGeneration : UInt32} (hpc : s.writer = .copy blob nextGeneration []) :
      WriterMove s k
        { s.store (slotOf nextGeneration) .length (UInt16.ofNat blob.bytes.length) with
          writer := .setGeneration blob nextGeneration }
  | byte {blob : Blob} {nextGeneration : UInt32} {left : List Nat}
      (hpc : s.writer = .copy blob nextGeneration left) :
      WriterMove s k
        { s.store (slotOf nextGeneration) (.byte k) (blob.bytes.getD k 0) with
          writer := .copy blob nextGeneration (left.erase k) }
  | publish {blob : Blob} {nextGeneration : UInt32}
      (hpc : s.writer = .setGeneration blob nextGeneration) :
      WriterMove s k { s with
        generation := nextGeneration
        published := s.published ++ [blob]
        writer := .semGive }
  | give (hpc : s.writer = .semGive) : WriterMove s k { s with sem := true, writer := .idle }

theorem writerStep_cases {s t : System} {k : Nat} (hstep : writerStep s k = some t) :
    WriterMove s k t := by
  cases hpc : s.writer with
  | idle => simp [writerStep, hpc] at hstep
  | copy blob nextGeneration left =>
      cases left with
      | nil =>
          simp only [writerStep, hpc, Option.some.injEq] at hstep
          subst hstep
          exact .length hpc
      | cons i left =>
          simp only [writerStep, hpc] at hstep
          split at hstep
          · cases hstep
            exact .byte hpc
          · cases hstep
  | setGeneration blob nextGeneration =>
      simp only [writerStep, hpc, Option.some.injEq] at hstep
      subst hstep
      exact .publish hpc
  | semGive =>
      simp only [writerStep, hpc, Option.some.injEq] at hstep
      subst hstep
      exact .give hpc

def System.getReturns (s : System) (result : Option Returned) : System :=
  { s with getter := { s.getter with pc := .idle, returned := s.getter.returned ++ [result] } }

/-- `rdd2_lockstep_latest_input_get` -/
def getterStep (s : System) (k : Nat) : Option System :=
  let g := s.getter
  match g.pc with
  | .idle => none
  | .generationStart =>
      if s.generation = 0 then some (s.getReturns none)
      else some { s with getter := { g with pc := .length s.generation } }
  | .length generationStart =>
      let length := s.slots (slotOf generationStart) .length
      if length = 0 ∨ length.toNat > g.bufSize then some (s.getReturns none)
      else some { s with getter := { g with
        pc := .copy generationStart length (List.range length.toNat) } }
  | .copy generationStart length [] =>
      if s.generation = generationStart then
        some (s.getReturns (some
          ⟨length, (List.range length.toNat).map g.buf, generationStart, s.published.length⟩))
      else some { s with getter := { g with pc := .generationStart } }
  | .copy generationStart length left =>
      if k ∈ left then some { s with getter := { g with
        buf := Function.update g.buf k (s.slots (slotOf generationStart) (.byte k))
        pc := .copy generationStart length (left.erase k) } }
      else none

/-- `rdd2_lockstep_input_wait_next` with `K_FOREVER` -/
def waiterStep (s : System) : Option System :=
  let w := s.waiter
  match w.pc with
  | .idle => none
  | .generation =>
      if s.generation ≠ 0 ∧ s.generation ≠ w.lastGeneration then
        some { s with waiter :=
          ⟨.idle, s.generation, w.returned ++ [s.generation]⟩ }
      else some { s with waiter := { w with pc := .semTake } }
  | .semTake =>
      if s.sem then some { s with sem := false, waiter := { w with pc := .generation } }
      else none

def step (s : System) : Event → Option System
  | .publish blob =>
      match s.writer with
      | .idle => some { s with
          writer := .copy blob (s.generation + 1) (List.range blob.bytes.length) }
      | _ => none
  | .writer k => writerStep s k
  | .get bufSize =>
      match s.getter.pc with
      | .idle => some { s with getter := { s.getter with
          pc := .generationStart, bufSize := bufSize } }
      | _ => none
  | .getter k => getterStep s k
  | .wait lastGeneration =>
      match s.waiter.pc with
      | .idle => some { s with waiter := { s.waiter with
          pc := .generation, lastGeneration := lastGeneration } }
      | _ => none
  | .waiter => waiterStep s

/-! ## The store as a double buffer -/

/-- What the generation counts, and the slots. -/
def System.buffers (s : System) : Buffers Cell.Val := ⟨s.published.length, s.slots⟩

theorem slotOf_ofNat (n : Nat) : slotOf (UInt32.ofNat n) = place n := by
  rw [slotOf, place, UInt32.toNat_and, UInt32.toNat_ofNat']
  ext
  simp only [Fin.ofNat_eq_cast, Fin.val_natCast, UInt32.toNat_one, Nat.and_one_is_mod]
  omega

structure Carries (slot : Slot) (blob : Blob) : Prop where
  length : slot .length = UInt16.ofNat blob.bytes.length
  byte : ∀ k < blob.bytes.length, slot (.byte k) = blob.bytes.getD k 0

theorem Carries.length_toNat {slot : Slot} {blob : Blob} (h : Carries slot blob) :
    (slot .length).toNat = blob.bytes.length := by
  have hle := blob.length_le
  rw [h.length, UInt16.toNat_ofNat', Nat.mod_eq_of_lt]
  unfold inputMaxSize at hle
  omega

theorem Carries.bytes_eq {slot : Slot} {blob : Blob} (h : Carries slot blob) {buf : Nat → UInt8}
    (hbuf : ∀ k < blob.bytes.length, buf k = slot (.byte k)) :
    (List.range blob.bytes.length).map buf = blob.bytes := by
  refine List.ext_getElem (by simp) fun k hk hk' => ?_
  rw [List.getElem_map, List.getElem_range, hbuf k hk', h.byte k hk']
  exact List.getD_eq_getElem _ _ hk'

/-! ## The writer's invariant -/

def System.Writing (s : System) : Prop :=
  match s.writer with
  | .idle | .semGive => True
  | .copy blob nextGeneration left =>
      nextGeneration = UInt32.ofNat (s.published.length + 1) ∧
        ∀ k < blob.bytes.length, k ∉ left → s.buffers.back (.byte k) = blob.bytes.getD k 0
  | .setGeneration blob nextGeneration =>
      nextGeneration = UInt32.ofNat (s.published.length + 1) ∧ Carries s.buffers.back blob

/-- The generation counts the publications, and the place it names holds the
blob published last. -/
structure System.Holds (s : System) : Prop where
  generation : s.generation = UInt32.ofNat s.published.length
  writing : s.Writing
  front : ∀ blob, s.published.getLast? = some blob → Carries s.buffers.front blob

theorem boot_holds : boot.Holds := ⟨rfl, trivial, nofun⟩

/-- Reading and waiting leave the store as it is. -/
theorem System.Holds.others {s : System} (h : s.Holds) (sem : Bool) (g : Getter) (w : Waiter) :
    System.Holds { s with sem := sem, getter := g, waiter := w } :=
  ⟨h.generation, h.writing, h.front⟩

/-- The writer stores a cell, or publishes what it has stored. -/
theorem writerStep_holds {s t : System} {k : Nat} (h : s.Holds) (hstep : writerStep s k = some t) :
    t.Holds := by
  obtain ⟨hgeneration, hwriting, hfront⟩ := h
  cases writerStep_cases hstep with
  | @length blob nextGeneration hpc =>
      simp only [System.Writing, hpc] at hwriting
      obtain ⟨rfl, hbytes⟩ := hwriting
      rw [slotOf_ofNat]
      refine ⟨hgeneration, ⟨rfl, ?_⟩, ?_⟩
      · show Carries (s.buffers.store .length (UInt16.ofNat blob.bytes.length)).back blob
        rw [Buffers.back_store]
        refine ⟨Function.update_self .., fun k hk => ?_⟩
        rw [Function.update_of_ne (by simp)]
        exact hbytes k hk (by simp)
      · intro last hlast
        show Carries (s.buffers.store .length (UInt16.ofNat blob.bytes.length)).front last
        rw [Buffers.front_store]
        exact hfront last hlast
  | @byte blob nextGeneration left hpc =>
      simp only [System.Writing, hpc] at hwriting
      obtain ⟨rfl, hbytes⟩ := hwriting
      rw [slotOf_ofNat]
      refine ⟨hgeneration, ⟨rfl, fun j hj hleft => ?_⟩, ?_⟩
      · show (s.buffers.store (.byte k) (blob.bytes.getD k 0)).back (.byte j) = _
        rw [Buffers.back_store]
        rcases eq_or_ne j k with rfl | hne
        · exact Function.update_self ..
        · rw [Function.update_of_ne (by simpa using hne)]
          refine hbytes j hj fun hmem => hleft ?_
          exact (List.mem_erase_of_ne hne).mpr hmem
      · intro last hlast
        show Carries (s.buffers.store (.byte k) (blob.bytes.getD k 0)).front last
        rw [Buffers.front_store]
        exact hfront last hlast
  | @publish blob nextGeneration hpc =>
      simp only [System.Writing, hpc] at hwriting
      obtain ⟨rfl, hcarries⟩ := hwriting
      refine ⟨by simp, trivial, ?_⟩
      intro last hlast
      simp only [List.getLast?_concat, Option.some.injEq] at hlast
      have hbuffers : System.buffers { s with
          generation := UInt32.ofNat (s.published.length + 1)
          published := s.published ++ [blob]
          writer := .semGive } = s.buffers.turn := by
        simp [System.buffers, Buffers.turn]
      rw [hbuffers, Buffers.front_turn, ← hlast]
      exact hcarries
  | give hpc => exact ⟨hgeneration, trivial, hfront⟩

/-- What the other threads see of a step of the writer. -/
structure WriterOnly (s t : System) : Prop where
  buffers : t.buffers = s.buffers ∨ Write s.buffers t.buffers
  published : s.published <+: t.published
  getter : t.getter = s.getter
  waiter : t.waiter = s.waiter

theorem writerStep_only {s t : System} {k : Nat} (h : s.Holds) (hstep : writerStep s k = some t) :
    WriterOnly s t := by
  have hwriting := h.writing
  cases writerStep_cases hstep with
  | length hpc =>
      simp only [System.Writing, hpc] at hwriting
      rw [hwriting.1, slotOf_ofNat]
      exact ⟨Or.inr (.store s.buffers .length _), List.prefix_refl _, rfl, rfl⟩
  | byte hpc =>
      simp only [System.Writing, hpc] at hwriting
      rw [hwriting.1, slotOf_ofNat]
      exact ⟨Or.inr (.store s.buffers (.byte k) _), List.prefix_refl _, rfl, rfl⟩
  | publish hpc =>
      refine ⟨Or.inr ?_, List.prefix_append .., rfl, rfl⟩
      have hturn := Write.turn s.buffers
      simpa [System.buffers, Buffers.turn] using hturn
  | give hpc => exact ⟨Or.inl rfl, List.prefix_refl _, rfl, rfl⟩

/-! ## The reader's invariant -/

def copied (length : UInt16) (buf : Nat → UInt8) : Slot
  | .length => length
  | .byte k => buf k

def Done (length : UInt16) (left : List Nat) : Cell → Prop
  | .length => True
  | .byte k => k < length.toNat ∧ k ∉ left

/-- A call under way copies the publication whose ordinal it read first, as
long as there is no later one. -/
def System.Reading (s : System) : Prop :=
  match s.getter.pc with
  | .idle | .generationStart => True
  | .length generationStart =>
      ∃ start, 0 < start ∧ generationStart = UInt32.ofNat start ∧ start ≤ s.published.length
  | .copy generationStart length left =>
      ∃ start, 0 < start ∧ generationStart = UInt32.ofNat start ∧
        Copied s.buffers start (Done length left) (copied length s.getter.buf)

/-- What was returned is the publication counted. -/
structure Returned.Exact (r : Returned) (published : List Blob) : Prop where
  pos : 0 < r.published
  generation : r.generation = UInt32.ofNat r.published
  blob : ∃ blob, published[r.published - 1]? = some blob ∧
    r.length.toNat = blob.bytes.length ∧ r.bytes = blob.bytes

theorem Returned.Exact.mono {r : Returned} {published published' : List Blob}
    (h : r.Exact published) (hle : published <+: published') : r.Exact published' := by
  obtain ⟨blob, hblob, hsame⟩ := h.blob
  obtain ⟨later, rfl⟩ := hle
  have hlt := (List.getElem?_eq_some_iff.mp hblob).1
  exact ⟨h.pos, h.generation, blob, by rw [List.getElem?_append_left hlt, hblob], hsame⟩

/-- As long as the generation tells the publications apart, every call that
returned true has returned the newest of them. -/
structure System.Inv (s : System) : Prop where
  holds : s.Holds
  reading : s.Reading
  returned : s.published.length < 2 ^ 32 →
    ∀ r, some r ∈ s.getter.returned → r.Exact s.published

theorem boot_inv : boot.Inv := ⟨boot_holds, trivial, nofun⟩

theorem System.Reading.writer {s t : System} (h : s.Reading) (honly : WriterOnly s t) :
    t.Reading := by
  obtain ⟨hbuffers, hpublished, hgetter, -⟩ := honly
  unfold System.Reading at h ⊢
  rw [hgetter]
  split at h
  · trivial
  · trivial
  · obtain ⟨start, hpos, hstart, hle⟩ := h
    exact ⟨start, hpos, hstart, Nat.le_trans hle hpublished.length_le⟩
  · obtain ⟨start, hpos, hstart, hcopied⟩ := h
    refine ⟨start, hpos, hstart, ?_⟩
    rcases hbuffers with heq | hwrite
    · rw [heq]
      exact hcopied
    · exact hcopied.write hwrite

theorem System.Inv.writer {s t : System} (h : s.Inv) (hholds : t.Holds) (honly : WriterOnly s t) :
    t.Inv := by
  refine ⟨hholds, h.reading.writer honly, fun hfew r hr => ?_⟩
  rw [honly.getter] at hr
  have hle := honly.published.length_le
  exact (h.returned (Nat.lt_of_le_of_lt hle hfew) r hr).mono honly.published

theorem System.Inv.getter_step {s : System} (h : s.Inv) {g : Getter}
    (hreading : System.Reading { s with getter := g }) (hreturned : g.returned = s.getter.returned) :
    System.Inv { s with getter := g } := by
  refine ⟨h.holds.others s.sem g s.waiter, hreading, ?_⟩
  intro hfew r hr
  rw [hreturned] at hr
  exact h.returned hfew r hr

theorem System.Inv.getReturns {s : System} (h : s.Inv) {result : Option Returned}
    (hresult : s.published.length < 2 ^ 32 → ∀ r, result = some r → r.Exact s.published) :
    (s.getReturns result).Inv := by
  refine ⟨h.holds.others s.sem _ s.waiter, trivial, ?_⟩
  intro hfew r hr
  rcases List.mem_append.mp hr with hold | hnew
  · exact h.returned hfew r hold
  · exact hresult hfew r (List.mem_singleton.mp hnew).symm

theorem System.Inv.waiter_step {s : System} (h : s.Inv) (sem : Bool) (w : Waiter) :
    System.Inv { s with sem := sem, waiter := w } :=
  ⟨h.holds.others sem s.getter w, h.reading, h.returned⟩

/-- A copy that is complete and whose generation still stands is the
publication made last. -/
theorem System.Inv.copy_exact {s : System} (h : s.Inv) {generationStart : UInt32} {length : UInt16}
    (hpc : s.getter.pc = .copy generationStart length [])
    (hsame : s.generation = generationStart) (hfew : s.published.length < 2 ^ 32) :
    Returned.Exact ⟨length, (List.range length.toNat).map s.getter.buf, generationStart,
      s.published.length⟩ s.published := by
  have hreading := h.reading
  simp only [System.Reading, hpc] at hreading
  obtain ⟨start, hpos, rfl, hcopied⟩ := hreading
  have hcount : s.published.length = start := by
    rw [h.holds.generation] at hsame
    exact (Lockstep.generation_inj hfew (Nat.lt_of_le_of_lt hcopied.le hfew)).mp hsame
  have hcells := hcopied.same hcount
  have hlast : s.published.getLast? = s.published[s.published.length - 1]? :=
    List.getLast?_eq_getElem?
  obtain ⟨blob, hblob⟩ : ∃ blob, s.published[s.published.length - 1]? = some blob :=
    ⟨_, List.getElem?_eq_getElem (by omega)⟩
  have hcarries := h.holds.front blob (hlast.trans hblob)
  have hlength : length.toNat = blob.bytes.length := by
    rw [← hcarries.length_toNat, ← hcells .length trivial]
    rfl
  refine ⟨hcount ▸ hpos, by rw [hcount], blob, hblob, hlength, ?_⟩
  rw [hlength]
  refine hcarries.bytes_eq fun k hk => hcells (.byte k) ⟨hlength ▸ hk, ?_⟩
  simp

theorem getterStep_inv {s t : System} {k : Nat} (h : s.Inv) (hstep : getterStep s k = some t) :
    t.Inv := by
  have hreading := h.reading
  cases hpc : s.getter.pc with
  | idle => simp [getterStep, hpc] at hstep
  | generationStart =>
      simp only [getterStep, hpc] at hstep
      split at hstep
      · cases hstep
        exact h.getReturns nofun
      · rename_i hne
        cases hstep
        refine h.getter_step ⟨s.published.length, ?_, h.holds.generation, Nat.le_refl _⟩ rfl
        refine Nat.pos_of_ne_zero fun hzero => hne ?_
        rw [h.holds.generation, hzero]
        rfl
  | length generationStart =>
      simp only [getterStep, hpc] at hstep
      simp only [System.Reading, hpc] at hreading
      obtain ⟨start, hpos, rfl, hle⟩ := hreading
      split at hstep
      · cases hstep
        exact h.getReturns nofun
      · cases hstep
        refine h.getter_step ⟨start, hpos, rfl, hle, fun hcount c hdone => ?_⟩ rfl
        cases c with
        | length =>
            show s.slots (slotOf (UInt32.ofNat start)) .length = s.buffers.front .length
            rw [slotOf_ofNat, ← hcount]
            rfl
        | byte j => exact absurd (List.mem_range.mpr hdone.1) hdone.2
  | copy generationStart length left =>
      cases left with
      | nil =>
          simp only [getterStep, hpc] at hstep
          split at hstep
          · rename_i hsame
            cases hstep
            refine h.getReturns fun hfew r hr => ?_
            cases hr
            exact h.copy_exact hpc hsame hfew
          · cases hstep
            exact h.getter_step trivial rfl
      | cons i left =>
          simp only [getterStep, hpc] at hstep
          simp only [System.Reading, hpc] at hreading
          obtain ⟨start, hpos, rfl, hcopied⟩ := hreading
          split at hstep
          · cases hstep
            refine h.getter_step ⟨start, hpos, rfl, hcopied.load fun c hdone => ?_⟩ rfl
            cases c with
            | length => exact Or.inl ⟨trivial, rfl⟩
            | byte j =>
                rcases eq_or_ne j k with rfl | hne
                · refine Or.inr ?_
                  simp only [copied, Function.update_self, slotOf_ofNat]
                  rfl
                · refine Or.inl ⟨⟨hdone.1, fun hmem => hdone.2 ?_⟩, ?_⟩
                  · exact (List.mem_erase_of_ne hne).mpr hmem
                  · exact Function.update_of_ne hne ..
          · cases hstep

theorem step_inv {s t : System} {e : Event} (h : s.Inv) (hstep : step s e = some t) : t.Inv := by
  cases e with
  | publish blob =>
      simp only [step] at hstep
      split at hstep
      · cases hstep
        refine ⟨⟨h.holds.generation, ⟨?_, fun k hk hleft => ?_⟩, h.holds.front⟩, h.reading,
          h.returned⟩
        · rw [h.holds.generation]
          simp
        · exact absurd (List.mem_range.mpr hk) hleft
      · cases hstep
  | writer k => exact h.writer (writerStep_holds h.holds hstep) (writerStep_only h.holds hstep)
  | get bufSize =>
      simp only [step] at hstep
      split at hstep
      · cases hstep
        exact h.getter_step trivial rfl
      · cases hstep
  | getter k => exact getterStep_inv h hstep
  | wait lastGeneration =>
      simp only [step] at hstep
      split at hstep
      · cases hstep
        exact h.waiter_step s.sem _
      · cases hstep
  | waiter =>
      simp only [step, waiterStep] at hstep
      split at hstep
      · cases hstep
      · split at hstep <;> cases hstep <;>
          exact h.waiter_step s.sem _
      · split at hstep
        · cases hstep
          exact h.waiter_step false _
        · cases hstep

theorem run_inv {events : List Event} {s : System}
    (hrun : Guarded.run step boot events = some s) : s.Inv :=
  Guarded.run_inv step (fun _ _ _ h hstep => step_inv h hstep) boot_inv hrun

/-- Whatever the order of the steps, as long as fewer than `2^32` blobs are
published every call that returns true returns one blob whole, with its ordinal
for the generation; and it is the one that was the newest when the call read
the generation for the last time. -/
theorem latest_input_never_torn {events : List Event} {s : System}
    (hrun : Guarded.run step boot events = some s) (hfew : s.published.length < 2 ^ 32)
    {r : Returned} (hreturned : some r ∈ s.getter.returned) :
    r.generation.toNat = r.published ∧
      ∃ blob, s.published[r.generation.toNat - 1]? = some blob ∧
        r.length.toNat = blob.bytes.length ∧ r.bytes = blob.bytes := by
  obtain ⟨hpos, hgeneration, blob, hblob, hsame⟩ := (run_inv hrun).returned hfew r hreturned
  have hlt := (List.getElem?_eq_some_iff.mp hblob).1
  have htoNat : r.generation.toNat = r.published := by
    rw [hgeneration, UInt32.toNat_ofNat']
    exact Nat.mod_eq_of_lt (by omega)
  exact ⟨htoNat, blob, by rw [htoNat, hblob], hsame⟩

/-! ## Waking up -/

/-- A waiter sleeps only while there is nothing for it, or a token to come. -/
def System.Awake (s : System) : Prop :=
  s.waiter.pc = .semTake → s.sem = true ∨ s.writer = .semGive ∨
    s.generation = 0 ∨ s.generation = s.waiter.lastGeneration

theorem boot_awake : boot.Awake := nofun

theorem writerStep_awake {s t : System} {k : Nat} (h : s.Awake) (hstep : writerStep s k = some t) :
    t.Awake := by
  cases writerStep_cases hstep with
  | length hpc | byte hpc =>
      unfold System.Awake at h
      simp only [hpc, reduceCtorEq, false_or] at h
      exact fun hsleep => (h hsleep).imp_right Or.inr
  | publish hpc => exact fun _ => Or.inr (Or.inl rfl)
  | give hpc => exact fun _ => Or.inl rfl

theorem getterStep_only {s t : System} {k : Nat} (hstep : getterStep s k = some t) :
    ∃ g, t = { s with getter := g } := by
  unfold getterStep at hstep
  dsimp only at hstep
  split at hstep
  · cases hstep
  · split at hstep <;> cases hstep <;> exact ⟨_, rfl⟩
  · split at hstep <;> cases hstep <;> exact ⟨_, rfl⟩
  · split at hstep <;> cases hstep <;> exact ⟨_, rfl⟩
  · split at hstep
    · cases hstep
      exact ⟨_, rfl⟩
    · cases hstep

theorem waiterStep_awake {s t : System} (hstep : waiterStep s = some t) : t.Awake := by
  unfold waiterStep at hstep
  dsimp only at hstep
  split at hstep
  · cases hstep
  · split at hstep
    · cases hstep
      exact nofun
    · rename_i hnothing
      cases hstep
      intro _
      rw [not_and_or, not_not, not_not] at hnothing
      exact Or.inr (Or.inr hnothing)
  · split at hstep
    · cases hstep
      exact nofun
    · cases hstep

theorem step_awake {s t : System} {e : Event} (h : s.Awake) (hstep : step s e = some t) :
    t.Awake := by
  cases e with
  | publish blob =>
      simp only [step] at hstep
      split at hstep
      · rename_i hidle
        cases hstep
        unfold System.Awake at h
        simp only [hidle, reduceCtorEq, false_or] at h
        exact fun hsleep => (h hsleep).imp_right Or.inr
      · cases hstep
  | writer k => exact writerStep_awake h hstep
  | get bufSize =>
      simp only [step] at hstep
      split at hstep
      · cases hstep
        exact h
      · cases hstep
  | getter k =>
      obtain ⟨g, rfl⟩ := getterStep_only hstep
      exact h
  | wait lastGeneration =>
      simp only [step] at hstep
      split at hstep
      · cases hstep
        exact nofun
      · cases hstep
  | waiter => exact waiterStep_awake hstep

theorem run_awake {events : List Event} {s : System}
    (hrun : Guarded.run step boot events = some s) : s.Awake :=
  Guarded.run_inv step (fun _ _ _ h hstep => step_awake h hstep) boot_awake hrun

/-- A waiter with something to see, the writer at rest, returns true with its
next steps. -/
theorem waiter_returns {s : System} (h : s.Awake) (hidle : s.writer = .idle)
    (hwaiting : s.waiter.pc ≠ .idle) (hpublished : s.generation ≠ 0)
    (hnew : s.generation ≠ s.waiter.lastGeneration) :
    ∃ k t, Guarded.run step s (List.replicate k .waiter) = some t ∧ t.waiter.pc = .idle ∧
      t.waiter.returned = s.waiter.returned ++ [s.generation] := by
  cases hpc : s.waiter.pc with
  | idle => exact absurd hpc hwaiting
  | generation =>
      refine ⟨1, { s with waiter := ⟨.idle, s.generation, _⟩ }, ?_, rfl, rfl⟩
      simp only [List.replicate, Guarded.run, step, waiterStep, hpc, hpublished, hnew, ne_eq,
        not_false_eq_true, and_self, if_true, Option.bind_some]
  | semTake =>
      have hsem : s.sem = true := by
        rcases h hpc with hsem | hgive | hzero | hold
        · exact hsem
        · cases hidle.symm.trans hgive
        · exact absurd hzero hpublished
        · exact absurd hold hnew
      refine ⟨2, { s with sem := false, waiter := ⟨.idle, s.generation, _⟩ }, ?_, rfl, rfl⟩
      simp only [List.replicate, Guarded.run, step, waiterStep, hpc, hsem, hpublished, hnew, ne_eq,
        not_false_eq_true, and_self, if_true, Option.bind_some]

/-- A call is under way, and there is nothing for it to see. -/
def System.Asleep (s : System) : Prop :=
  s.waiter.pc ≠ .idle ∧ (s.generation = 0 ∨ s.generation = s.waiter.lastGeneration)

theorem waiterStep_asleep {s t : System} (h : s.Asleep) (hstep : waiterStep s = some t) :
    t.Asleep := by
  obtain ⟨hwaiting, hnothing⟩ := h
  have hguard : ¬ (s.generation ≠ 0 ∧ s.generation ≠ s.waiter.lastGeneration) := by
    rw [not_and_or, not_not, not_not]
    exact hnothing
  cases hpc : s.waiter.pc with
  | idle => exact absurd hpc hwaiting
  | generation =>
      simp only [waiterStep, hpc, if_neg hguard, Option.some.injEq] at hstep
      subst hstep
      exact ⟨nofun, hnothing⟩
  | semTake =>
      simp only [waiterStep, hpc] at hstep
      split at hstep
      · cases hstep
        exact ⟨nofun, hnothing⟩
      · cases hstep

theorem waiter_sleeps {s t : System} {k : Nat} (h : s.Asleep)
    (hrun : Guarded.run step s (List.replicate k .waiter) = some t) : t.Asleep := by
  refine Guarded.run_keeps step (Q := fun e => e = .waiter) ?_ h ?_ hrun
  · rintro s e t rfl h hstep
    exact waiterStep_asleep h hstep
  · intro e he
    exact List.eq_of_mem_replicate he

/-! ## A call that nothing disturbs -/

def getCall (bufSize : Nat) (order : List Nat) : List Event :=
  [.get bufSize, .getter 0, .getter 0] ++ order.map .getter ++ [.getter 0]

theorem copy_run {s : System} {g : UInt32} {length : UInt16} {order left : List Nat}
    (hpc : s.getter.pc = .copy g length left) (horder : order.Perm left) :
    ∃ buf : Nat → UInt8, (∀ k ∈ order, buf k = s.slots (slotOf g) (.byte k)) ∧
      (∀ k ∉ order, buf k = s.getter.buf k) ∧
      Guarded.run step s (order.map .getter) =
        some { s with getter := { s.getter with pc := .copy g length [], buf := buf } } := by
  induction order generalizing s left with
  | nil =>
      obtain rfl := horder.symm.eq_nil
      refine ⟨s.getter.buf, nofun, fun _ _ => rfl, ?_⟩
      rw [List.map_nil, Guarded.run_nil, ← hpc]
  | cons i order ih =>
      have hmem : i ∈ left := horder.mem_iff.mp List.mem_cons_self
      obtain ⟨j, left, rfl⟩ := List.exists_cons_of_ne_nil (List.ne_nil_of_mem hmem)
      let loaded : System := { s with getter := { s.getter with
        buf := Function.update s.getter.buf i (s.slots (slotOf g) (.byte i))
        pc := .copy g length ((j :: left).erase i) } }
      have hstep : step s (.getter i) = some loaded := by
        simp only [step, getterStep, hpc, if_pos hmem, loaded]
      have hrest : order.Perm ((j :: left).erase i) := by
        have herase := horder.erase i
        rwa [List.erase_cons_head] at herase
      obtain ⟨buf, hbytes, hother, hrun⟩ := ih (s := loaded) rfl hrest
      refine ⟨buf, fun k hk => ?_, fun k hk => ?_, ?_⟩
      · by_cases hlater : k ∈ order
        · exact hbytes k hlater
        · obtain rfl : k = i := (List.mem_cons.mp hk).resolve_right hlater
          rw [hother k hlater]
          exact Function.update_self ..
      · obtain ⟨hne, hlater⟩ := not_or.mp (List.mem_cons.not.mp hk)
        rw [hother k hlater]
        exact Function.update_of_ne hne ..
      · rw [List.map_cons]
        exact (Guarded.run_cons step).mpr ⟨loaded, hstep, hrun⟩

/-- A call with the writer at rest returns `result`: its steps, in whatever order
it copies the bytes, come to where it has. -/
def System.GetReturns (s : System) (bufSize length : Nat) (result : Option Returned) : Prop :=
  ∀ order : List Nat, order.Perm (List.range length) →
    ∃ n t, Guarded.run step s ((getCall bufSize order).take n) = some t ∧
      t.getter.returned = s.getter.returned ++ [result]

/-- With the writer at rest a call returns the blob published last. -/
theorem get_returns {s : System} (h : s.Holds) (hidle : s.getter.pc = .idle)
    (hpublished : s.generation ≠ 0) {blob : Blob} (hlast : s.published.getLast? = some blob)
    {bufSize : Nat} (hsize : inputMaxSize ≤ bufSize) :
    s.GetReturns bufSize blob.bytes.length
      (some ⟨UInt16.ofNat blob.bytes.length, blob.bytes, s.generation, s.published.length⟩) := by
  intro order horder
  have hcarries := h.front blob hlast
  have hfront : s.buffers.front = s.slots (slotOf s.generation) := by
    rw [h.generation, slotOf_ofNat]
    rfl
  rw [hfront] at hcarries
  have hlength := hcarries.length_toNat
  have hpos := blob.length_pos
  have hfits := Nat.le_trans blob.length_le hsize
  let length := s.slots (slotOf s.generation) .length
  let called : System := { s with getter := { s.getter with
    bufSize := bufSize
    pc := .copy s.generation length (List.range length.toNat) } }
  have hcalled : Guarded.run step s [.get bufSize, .getter 0, .getter 0] = some called := by
    have hguard : ¬ (s.slots (slotOf s.generation) .length = 0 ∨
        (s.slots (slotOf s.generation) .length).toNat > bufSize) := by
      rw [hlength, not_or]
      refine ⟨fun hzero => ?_, by omega⟩
      rw [hzero] at hlength
      exact absurd hlength (Nat.ne_of_lt hpos)
    simp only [Guarded.run, step, getterStep, hidle, if_neg hpublished, if_neg hguard,
      Option.bind_some, called, length]
  obtain ⟨buf, hbytes, -, hcopy⟩ := copy_run (s := called) rfl (hlength.symm ▸ horder)
  have hbuf : (List.range length.toNat).map buf = blob.bytes := by
    rw [hlength]
    refine hcarries.bytes_eq fun k hk => hbytes k ?_
    exact horder.mem_iff.mpr (List.mem_range.mpr hk)
  let whole : System := { called with getter := { called.getter with
    pc := .copy s.generation length [], buf := buf } }
  have hreturn : Guarded.run step whole [.getter 0] = some (whole.getReturns (some
      ⟨length, blob.bytes, s.generation, s.published.length⟩)) := by
    rw [← hbuf]
    simp only [Guarded.run, step, getterStep, whole, called, if_true, Option.bind_some]
  have hrun : Guarded.run step s (getCall bufSize order) = some (whole.getReturns (some
      ⟨length, blob.bytes, s.generation, s.published.length⟩)) := by
    rw [getCall, Guarded.run_append, Guarded.run_append, hcalled, Option.bind_some, hcopy,
      Option.bind_some]
    exact hreturn
  refine ⟨(getCall bufSize order).length, _, by rw [List.take_length, hrun], ?_⟩
  rw [← hcarries.length]
  rfl

theorem get_fails {s : System} (hidle : s.getter.pc = .idle) (hzero : s.generation = 0)
    {bufSize length : Nat} {r : Returned} : ¬ s.GetReturns bufSize length (some r) := by
  intro h
  obtain ⟨n, t, hrun, hreturned⟩ := h (List.range length) (List.Perm.refl _)
  match n with
  | 0 =>
      cases hrun
      simp at hreturned
  | 1 =>
      simp only [getCall, List.cons_append, List.take_succ_cons, List.take_zero, Guarded.run, step,
        hidle, Option.bind_some, Option.some.injEq] at hrun
      subst hrun
      simp at hreturned
  | 2 =>
      simp only [getCall, List.cons_append, List.take_succ_cons, List.take_zero, Guarded.run, step,
        getterStep, hidle, hzero, if_true, Option.bind_some, Option.some.injEq] at hrun
      subst hrun
      simp [System.getReturns] at hreturned
  | n + 3 =>
      simp [getCall, Guarded.run, step, getterStep, hidle, hzero, System.getReturns] at hrun

/-! ## Runs of any length -/

/-- What is expected after the `n`-th publication, of a reader and of a waiter
who came with the generation of the `m`-th: the reader is given the blob, and the
waiter does not sleep on, whatever the order of the steps before. -/
def Works (n m : Nat) : Prop :=
  ∀ events s, Guarded.run step boot events = some s → s.published.length = n →
    s.writer = .idle →
      (s.getter.pc = .idle → ∀ blob, s.published.getLast? = some blob →
        ∀ bufSize, inputMaxSize ≤ bufSize → s.GetReturns bufSize blob.bytes.length
          (some ⟨UInt16.ofNat blob.bytes.length, blob.bytes, s.generation, n⟩)) ∧
      (s.waiter.pc ≠ .idle → s.waiter.lastGeneration = UInt32.ofNat m →
        ∃ k t, Guarded.run step s (List.replicate k .waiter) = some t ∧ t.waiter.pc = .idle ∧
          t.waiter.returned = s.waiter.returned ++ [s.generation])

def benchBlob (byte : UInt8) : Blob := ⟨[byte], by simp, by simp [inputMaxSize]⟩

def benchPublish (byte : UInt8) : List Event :=
  .publish (benchBlob byte) :: List.replicate 4 (.writer 0)

theorem publish_run {s : System} (h : s.writer = .idle) (byte : UInt8) :
    ∃ t, Guarded.run step s (benchPublish byte) = some t ∧ t.writer = .idle ∧
      t.published = s.published ++ [benchBlob byte] ∧ t.getter = s.getter ∧ t.waiter = s.waiter := by
  let slot := slotOf (s.generation + 1)
  let stored := (s.store slot (.byte 0) byte).store slot .length 1
  refine ⟨{ stored with
    generation := s.generation + 1
    published := s.published ++ [benchBlob byte]
    sem := true
    writer := .idle }, ?_, rfl, rfl, rfl, rfl⟩
  simp only [benchPublish, benchBlob, List.replicate, Guarded.run, step, writerStep, h,
    List.length_singleton, List.range_one, List.mem_singleton, if_true, List.erase_cons_head,
    Option.bind_some]
  rfl

theorem long_run (n : Nat) :
    ∃ events s, Guarded.run step boot events = some s ∧ s.published.length = n ∧
      s.writer = .idle ∧ s.getter.pc = .idle ∧ s.waiter.pc = .idle := by
  induction n with
  | zero => exact ⟨[], boot, rfl, rfl, rfl, rfl, rfl⟩
  | succ n ih =>
      obtain ⟨events, s, hrun, hlength, hwriter, hgetter, hwaiter⟩ := ih
      obtain ⟨t, hlater, hwriter', hpublished, hgetter', hwaiter'⟩ := publish_run hwriter 0
      refine ⟨events ++ benchPublish 0, t, ?_, ?_, hwriter', ?_, ?_⟩
      · rw [Guarded.run_append, hrun, Option.bind_some, hlater]
      · rw [hpublished, List.length_append, hlength, List.length_singleton]
      · rw [hgetter', hgetter]
      · rw [hwaiter', hwaiter]

/-- A publication whose generation is zero is not seen by a call after it. -/
theorem Works.ne_zero {n m : Nat} (h : Works n m) (hm : m < n) : n % 2 ^ 32 ≠ 0 := by
  intro hn
  obtain ⟨events, s, hrun, hlength, hwriter, hgetter, -⟩ := long_run n
  obtain ⟨blob, hblob⟩ : ∃ blob, s.published.getLast? = some blob := by
    rw [List.getLast?_eq_getElem?]
    exact ⟨_, List.getElem?_eq_getElem (by omega)⟩
  have hget := (h events s hrun hlength hwriter).1 hgetter blob hblob _ (Nat.le_refl _)
  refine get_fails hgetter ?_ hget
  rw [(run_inv hrun).holds.generation, hlength, Lockstep.generation_eq_zero_iff, hn]

/-- A publication whose generation is the waiter's is slept through. -/
theorem Works.ne_seen {n m : Nat} (h : Works n m) : n % 2 ^ 32 ≠ m % 2 ^ 32 := by
  intro hn
  obtain ⟨events, s, hrun, hlength, hwriter, -, hwaiter⟩ := long_run n
  have hgeneration : s.generation = UInt32.ofNat m := by
    rw [(run_inv hrun).holds.generation, hlength, Lockstep.generation_inj_iff, hn]
  let waiting : System := { s with waiter := { s.waiter with
    pc := .generation, lastGeneration := UInt32.ofNat m } }
  have hwait : Guarded.run step boot (events ++ [.wait (UInt32.ofNat m)]) = some waiting := by
    rw [Guarded.run_append, hrun, Option.bind_some]
    simp only [Guarded.run, step, hwaiter, Option.bind_some, waiting]
  obtain ⟨k, t, hlater, hidle, -⟩ := (h _ waiting hwait hlength hwriter).2 (by simp [waiting]) rfl
  have hasleep : waiting.Asleep := ⟨by simp [waiting], Or.inr hgeneration⟩
  exact (waiter_sleeps hasleep hlater).1 hidle

/-- The store works for the `n`-th publication, and a reader who came with the
generation of the `m`-th, as long as the 32-bit word tells `n` from zero and
from `m`. -/
theorem store_works_iff {n m : Nat} (hm : m < n) :
    Works n m ↔ n % 2 ^ 32 ≠ 0 ∧ n % 2 ^ 32 ≠ m % 2 ^ 32 := by
  constructor
  · intro h
    exact ⟨h.ne_zero hm, h.ne_seen⟩
  · rintro ⟨hn, hne⟩ events s hrun hlength hwriter
    have hinv := run_inv hrun
    have hgeneration : s.generation = UInt32.ofNat n := by rw [hinv.holds.generation, hlength]
    have hpublished : s.generation ≠ 0 := by
      rw [hgeneration, ne_eq, Lockstep.generation_eq_zero_iff]
      exact hn
    constructor
    · intro hgetter blob hblob bufSize hsize
      rw [← hlength]
      exact get_returns hinv.holds hgetter hpublished hblob hsize
    · intro hwaiting hlast
      refine waiter_returns (run_awake hrun) hwriter hwaiting hpublished ?_
      rw [hgeneration, hlast, ne_eq, Lockstep.generation_inj_iff]
      exact hne

theorem store_works_iff_first : Works 1 0 := (store_works_iff (by decide)).mpr (by decide)

/-- The count comes round. -/
theorem wrapped_publication_lost : ¬ Works (2 ^ 32) 0 := fun h => h.ne_zero (by decide) (by decide)

/-! ## Bench runs -/

/-- A call with two publications inside it. -/
def benchRead : List Event :=
  benchPublish 1 ++ [.get inputMaxSize, .getter 0] ++ benchPublish 2 ++ [.getter 0, .getter 0] ++
    benchPublish 3 ++ List.replicate 5 (.getter 0)

theorem latest_input_never_torn_bench :
    ∃ s, Guarded.run step boot benchRead = some s ∧ ∃ r, some r ∈ s.getter.returned ∧
      r.generation.toNat = r.published ∧
      ∃ blob, s.published[r.generation.toNat - 1]? = some blob ∧
        r.length.toNat = blob.bytes.length ∧ r.bytes = blob.bytes := by
  obtain ⟨s, hrun, hfew, hreturned⟩ : ∃ s, Guarded.run step boot benchRead = some s ∧
      s.published.length = 3 ∧ s.getter.returned = [some ⟨1, [3], 3, 3⟩] :=
    Guarded.run_any step (by decide +kernel)
  have hmem : some ⟨1, [3], 3, 3⟩ ∈ s.getter.returned := by simp [hreturned]
  exact ⟨s, hrun, _, hmem, latest_input_never_torn hrun (by omega) hmem⟩

end Rdd2.LockstepStore
