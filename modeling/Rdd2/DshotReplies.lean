import Rdd2.Dshot
import Rdd2.Guarded

/-!
# Whose reply it is

Runs of `data_set`, `trigger` and the interrupt handler, whatever the flag
registers and the shift buffers hold. The handler looks a channel up by its
shifter where it tests and sets flags, and by its number where it reads the
buffer; the trigger tests the flag of the channel's number. So a reply goes
to the right channel, and is counted there, exactly if the shifter of every
bidirectional channel has the number of the channel.

A history variable remembers which channels have had a reply since the last
trigger, by their states alone; with matching numbers it is the receive
mask.
-/

namespace Rdd2

open Flags

variable {n : Nat}

/-! ## Runs -/

/-- A call of the driver, or an interrupt: what it finds in the registers,
and the fuel of its loop. -/
inductive DshotEvent where
  | dataSet (channel : Nat) (throttle : BitVec 16) (telemetry : Bool)
  | trigger
  | isr (shifterFlags : Word) (shiftBufBis : Fin 32 → Word) (hw : Nat → Word → Word) (fuel : Nat)

def dshotStep (cfg : DshotConfig n) (d : DshotData n) : DshotEvent → Option (DshotData n)
  | .dataSet channel throttle telemetry => some (dataSet cfg d channel throttle telemetry)
  | .trigger => some (trigger cfg d)
  | .isr shifterFlags shiftBufBis hw fuel => isr cfg shifterFlags shiftBufBis hw fuel d

/-- The driver with its history: whether it has been triggered, and which
channels have had a reply since. -/
structure DshotTrace (n : Nat) where
  data : DshotData n
  triggered : Bool
  replied : Fin n → Bool

def Completes (before after : DshotChannel) : Prop :=
  before.state ≠ .receiveComplete ∧ after.state = .receiveComplete

instance (before after : DshotChannel) : Decidable (Completes before after) :=
  inferInstanceAs (Decidable (_ ∧ _))

def traceInit (cfg : DshotConfig n) : DshotTrace n := ⟨dshotInit cfg, false, fun _ => false⟩

def traceStep (cfg : DshotConfig n) (s : DshotTrace n) (e : DshotEvent) :
    Option (DshotTrace n) :=
  (dshotStep cfg s.data e).map fun d =>
    match e with
    | .trigger => ⟨d, true, fun _ => false⟩
    | .dataSet _ _ _ | .isr _ _ _ _ =>
        ⟨d, s.triggered,
          fun c => s.replied c || decide (Completes (s.data.channels c) (d.channels c))⟩

/-- What a step may do to the replies: an interrupt takes the word of the
channel's own shifter; a trigger after the first counts the bidirectional
channels without a reply; and nothing else completes a channel. -/
def StepAttributed (cfg : DshotConfig n) (s : DshotTrace n) (e : DshotEvent)
    (t : DshotTrace n) : Prop :=
  match e with
  | .dataSet _ _ _ => ∀ c, ¬ Completes (s.data.channels c) (t.data.channels c)
  | .isr _ shiftBufBis _ _ => ∀ c, Completes (s.data.channels c) (t.data.channels c) →
      (t.data.channels c).rawResponse = shiftBufBis (cfg.shifterIndex c)
  | .trigger => ∀ c, ¬ Completes (s.data.channels c) (t.data.channels c) ∧
      (s.triggered = true → cfg.bdshot c = true →
        (t.data.channels c).noResponseCnt =
          (s.data.channels c).noResponseCnt + if s.replied c then 0 else 1)

def RepliesAttributed (cfg : DshotConfig n) : Prop :=
  ∀ events s e t, Guarded.run (traceStep cfg) (traceInit cfg) events = some s →
    traceStep cfg s e = some t → StepAttributed cfg s e t

/-! ## The loops -/

/-- What a shifter flag does to its channel, `word` being what it reads. -/
def DshotChannel.shifterFull (word : Word) (channel : DshotChannel) : DshotChannel :=
  match channel.state with
  | .start => { channel with state := .fifo12Bit }
  | .receive => { channel with state := .receiveComplete, rawResponse := word }
  | .fifo12Bit | .transferred12Bit | .transmitComplete | .receiveComplete => channel

/-- The shifter flag of a channel that waits for its reply. -/
def Receives (cfg : DshotConfig n) (flags : Word) (d : DshotData n) (c : Fin n) : Prop :=
  has flags (cfg.shifterIndex c) = true ∧ (d.channels c).state = .receive

/-- The first `k` channels have had their turn of the shifter loop. -/
structure ShifterUpTo (cfg : DshotConfig n) (flags : Word) (shiftBufBis : Fin 32 → Word)
    (d : DshotData n) (k : Nat) (m : DshotData n) : Prop where
  later : ∀ c : Fin n, k ≤ c.val → m.channels c = d.channels c
  done : ∀ c : Fin n, c.val < k → m.channels c =
    if has flags (cfg.shifterIndex c) then
      (d.channels c).shifterFull (shiftBufBis (cfg.number c)) else d.channels c
  recvMask : ∀ i, has m.bdshotRecvMask i = true ↔
    has d.bdshotRecvMask i = true ∨
      ∃ c : Fin n, c.val < k ∧ Receives cfg flags d c ∧ cfg.shifterIndex c = i

theorem isrShifterTurn_channels (cfg : DshotConfig n) (flags : Word)
    (shiftBufBis : Fin 32 → Word) (m : DshotData n) (c k : Fin n) :
    (isrShifterTurn cfg flags shiftBufBis m c).channels k =
      if k = c ∧ has flags (cfg.shifterIndex c) = true then
        (m.channels c).shifterFull (shiftBufBis (cfg.number c)) else m.channels k := by
  unfold isrShifterTurn DshotChannel.shifterFull
  by_cases hflag : has flags (cfg.shifterIndex c) = true
  · rw [if_pos (and_bit_ne_zero.mpr hflag)]
    by_cases hk : k = c
    · subst hk
      rw [if_pos ⟨rfl, hflag⟩]
      cases hstate : (m.channels k).state <;> simp [DshotData.setChannel]
    · rw [if_neg fun h => hk h.1]
      cases hstate : (m.channels c).state <;> simp [DshotData.setChannel, hk]
  · rw [if_neg (mt and_bit_ne_zero.mp hflag), if_neg fun h => hflag h.2]

theorem isrShifterTurn_recvMask (cfg : DshotConfig n) (flags : Word)
    (shiftBufBis : Fin 32 → Word) (m : DshotData n) (c : Fin n) (i : Fin 32) :
    has (isrShifterTurn cfg flags shiftBufBis m c).bdshotRecvMask i = true ↔
      has m.bdshotRecvMask i = true ∨ Receives cfg flags m c ∧ cfg.shifterIndex c = i := by
  unfold isrShifterTurn Receives
  by_cases hflag : has flags (cfg.shifterIndex c) = true
  · rw [if_pos (and_bit_ne_zero.mpr hflag)]
    cases hstate : (m.channels c).state <;> simp [DshotData.setChannel, hflag]
  · rw [if_neg (mt and_bit_ne_zero.mp hflag)]
    simp [hflag]

theorem isrShifterTurn_step {cfg : DshotConfig n} {flags : Word} {shiftBufBis : Fin 32 → Word}
    {d m : DshotData n} {c : Fin n} (h : ShifterUpTo cfg flags shiftBufBis d c.val m) :
    ShifterUpTo cfg flags shiftBufBis d (c.val + 1)
      (isrShifterTurn cfg flags shiftBufBis m c) where
  later := by
    intro k hk
    rw [isrShifterTurn_channels, if_neg (by rintro ⟨rfl, -⟩; omega)]
    exact h.later k (by omega)
  done := by
    intro k hk
    rw [isrShifterTurn_channels]
    rcases eq_or_ne k c with rfl | hne
    · rw [h.later k (Nat.le_refl _)]
      simp
    · have hlt : k.val < c.val :=
        Nat.lt_of_le_of_ne (Nat.le_of_lt_succ hk) (Fin.val_ne_of_ne hne)
      rw [if_neg fun hand => hne hand.1]
      exact h.done k hlt
  recvMask := by
    intro i
    have hreceives : Receives cfg flags m c ↔ Receives cfg flags d c := by
      unfold Receives
      rw [h.later c (Nat.le_refl _)]
    rw [isrShifterTurn_recvMask, h.recvMask, hreceives, or_assoc]
    refine or_congr_right ?_
    constructor
    · rintro (⟨k, hk, hrest⟩ | hrest)
      · exact ⟨k, by omega, hrest⟩
      · exact ⟨c, by omega, hrest⟩
    · rintro ⟨k, hk, hrest⟩
      rcases Nat.lt_succ_iff_lt_or_eq.mp hk with hk | hk
      · exact Or.inl ⟨k, hk, hrest⟩
      · exact Or.inr (Fin.ext hk ▸ hrest)

theorem isrShifterLoop_spec (cfg : DshotConfig n) (flags : Word) (shiftBufBis : Fin 32 → Word)
    (d : DshotData n) :
    ShifterUpTo cfg flags shiftBufBis d n (isrShifterLoop cfg flags shiftBufBis d) := by
  have hstart : ShifterUpTo cfg flags shiftBufBis d 0 d :=
    ⟨fun _ _ => rfl, fun _ hc => absurd hc (Nat.not_lt_zero _), fun i => by simp⟩
  unfold isrShifterLoop
  split
  · rename_i hzero
    subst hzero
    have hflag (c : Fin n) : has (0 : Word) (cfg.shifterIndex c) = false := has_zero _
    refine ⟨fun _ _ => rfl, fun c _ => ?_, fun i => ⟨Or.inl, ?_⟩⟩
    · rw [hflag]
      rfl
    · rintro (hbefore | ⟨c, -, hc, -⟩)
      · exact hbefore
      · cases (hflag c).symm.trans hc.1
  · exact Loops.foldl_inv _ hstart fun _ _ h => isrShifterTurn_step h

/-- What the timer loop leaves as it was, and the states it gives. -/
structure TimerFrame (cfg : DshotConfig n) (d d' : DshotData n) : Prop where
  recvMask : d'.bdshotRecvMask = d.bdshotRecvMask
  rawResponse : ∀ c, (d'.channels c).rawResponse = (d.channels c).rawResponse
  noResponseCnt : ∀ c, (d'.channels c).noResponseCnt = (d.channels c).noResponseCnt
  complete : ∀ c, (d'.channels c).state = .receiveComplete ↔
    (d.channels c).state = .receiveComplete
  receive : ∀ c, (d'.channels c).state = .receive →
    (d.channels c).state = .receive ∨ cfg.bdshot c = true

theorem TimerFrame.trans {cfg : DshotConfig n} {d d' d'' : DshotData n}
    (h : TimerFrame cfg d d') (h' : TimerFrame cfg d' d'') : TimerFrame cfg d d'' where
  recvMask := h'.recvMask.trans h.recvMask
  rawResponse := fun c => (h'.rawResponse c).trans (h.rawResponse c)
  noResponseCnt := fun c => (h'.noResponseCnt c).trans (h.noResponseCnt c)
  complete := fun c => (h'.complete c).trans (h.complete c)
  receive := by
    intro c hc
    rcases h'.receive c hc with hc | hc
    · exact h.receive c hc
    · exact Or.inr hc

theorem isrTimerTurn_channels (cfg : DshotConfig n) (flags : Word) (m : DshotData n)
    (c k : Fin n) :
    (isrTimerTurn cfg flags m c).channels k =
      if k = c ∧ has flags (cfg.timerIndex c) = true then
        (m.channels c).timerExpired (cfg.bdshot c) else m.channels k := by
  unfold isrTimerTurn
  by_cases hflag : has flags (cfg.timerIndex c) = true
  · rw [if_pos (and_bit_ne_zero.mpr hflag)]
    by_cases hk : k = c
    · subst hk
      rw [if_pos ⟨rfl, hflag⟩]
      exact setChannel_same _ _ _
    · rw [if_neg fun h => hk h.1]
      exact setChannel_other _ hk _
  · rw [if_neg (mt and_bit_ne_zero.mp hflag), if_neg fun h => hflag h.2]

theorem timerExpired_frame (bdshot : Bool) (channel : DshotChannel) :
    (channel.timerExpired bdshot).rawResponse = channel.rawResponse ∧
      (channel.timerExpired bdshot).noResponseCnt = channel.noResponseCnt ∧
      ((channel.timerExpired bdshot).state = .receiveComplete ↔
        channel.state = .receiveComplete) ∧
      ((channel.timerExpired bdshot).state = .receive →
        channel.state = .receive ∨ bdshot = true) := by
  unfold DshotChannel.timerExpired
  cases hstate : channel.state <;> cases bdshot <;> simp [hstate]

theorem isrTimerTurn_frame (cfg : DshotConfig n) (flags : Word) (m : DshotData n) (c : Fin n) :
    TimerFrame cfg m (isrTimerTurn cfg flags m c) := by
  have hchannel (k : Fin n) := isrTimerTurn_channels cfg flags m c k
  obtain ⟨hraw, hcount, hcomplete, hreceive⟩ := timerExpired_frame (cfg.bdshot c) (m.channels c)
  have hmask : (isrTimerTurn cfg flags m c).bdshotRecvMask = m.bdshotRecvMask := by
    unfold isrTimerTurn
    split <;> rfl
  refine ⟨hmask, fun k => ?_, fun k => ?_, fun k => ?_, fun k => ?_⟩ <;> rw [hchannel k] <;>
    split
  · rename_i hk; rw [hk.1]; exact hraw
  · rfl
  · rename_i hk; rw [hk.1]; exact hcount
  · rfl
  · rename_i hk; rw [hk.1]; exact hcomplete
  · rfl
  · rename_i hk; rw [hk.1]; exact hreceive
  · exact Or.inl

theorem isrTimers_frame {cfg : DshotConfig n} {hw : Nat → Word → Word} {fuel : Nat}
    {d d' : DshotData n} (h : isrTimers cfg hw fuel d = some d') : TimerFrame cfg d d' := by
  have hread (m : DshotData n) (access : Nat) : TimerFrame cfg m (m.readTimerStatus hw access) :=
    ⟨rfl, fun _ => rfl, fun _ => rfl, fun _ => Iff.rfl, fun _ h => Or.inl h⟩
  unfold isrTimers at h
  dsimp only at h
  split at h
  · obtain ⟨s, hs, rfl⟩ := Option.map_eq_some_iff.mp h
    refine Loops.whileLoop_inv (P := fun s => TimerFrame cfg d s.data) _ _ ?_ (hread d 0) hs
    intro s hframe
    exact (hframe.trans (hread s.data s.access)).trans (isrTimerTurn_frame cfg _ _ _)
  · cases h
    exact hread d 0

/-! ## Steps -/

theorem isr_channel {cfg : DshotConfig n} {flags : Word} {shiftBufBis : Fin 32 → Word}
    {hw : Nat → Word → Word} {fuel : Nat} {d d' : DshotData n}
    (h : isr cfg flags shiftBufBis hw fuel d = some d') (c : Fin n) :
    (Completes (d.channels c) (d'.channels c) ↔ Receives cfg flags d c) ∧
      (Receives cfg flags d c → (d'.channels c).rawResponse = shiftBufBis (cfg.number c)) ∧
      ((d'.channels c).state = .receive → (d.channels c).state = .receive ∨ cfg.bdshot c = true) := by
  have hshift := (isrShifterLoop_spec cfg flags shiftBufBis d).done c c.isLt
  have hframe := isrTimers_frame h
  unfold Completes Receives
  rw [hframe.complete c, hframe.rawResponse c]
  have hreceive := hframe.receive c
  rw [hshift] at hreceive ⊢
  unfold DshotChannel.shifterFull at hreceive ⊢
  cases hflag : has flags (cfg.shifterIndex c) with
  | false => simpa [hflag] using hreceive
  | true =>
      cases hstate : (d.channels c).state <;> simp [hstate, hflag] at hreceive ⊢ <;>
        exact hreceive

theorem isr_recvMask {cfg : DshotConfig n} {flags : Word} {shiftBufBis : Fin 32 → Word}
    {hw : Nat → Word → Word} {fuel : Nat} {d d' : DshotData n}
    (h : isr cfg flags shiftBufBis hw fuel d = some d') (i : Fin 32) :
    has d'.bdshotRecvMask i = true ↔
      has d.bdshotRecvMask i = true ∨ ∃ c, Receives cfg flags d c ∧ cfg.shifterIndex c = i := by
  rw [(isrTimers_frame h).recvMask, (isrShifterLoop_spec cfg flags shiftBufBis d).recvMask]
  simp

theorem dataSet_frame (cfg : DshotConfig n) (d : DshotData n) (channel : Nat)
    (throttle : BitVec 16) (telemetry : Bool) :
    (dataSet cfg d channel throttle telemetry).bdshotRecvMask = d.bdshotRecvMask ∧
      ∀ c, ((dataSet cfg d channel throttle telemetry).channels c).state =
          (d.channels c).state ∨
        ((dataSet cfg d channel throttle telemetry).channels c).state = .start := by
  unfold dataSet
  split
  · rename_i h
    dsimp only
    split
    · refine ⟨by split <;> rfl, fun c => ?_⟩
      by_cases hc : c = ⟨channel, h⟩
      · subst hc
        right
        split <;> simp [DshotData.clearTimerStatus]
      · left
        split <;> simp [DshotData.clearTimerStatus, hc]
    · exact ⟨rfl, fun _ => Or.inl rfl⟩
  · exact ⟨rfl, fun _ => Or.inl rfl⟩

structure TriggerUpTo (cfg : DshotConfig n) (d : DshotData n) (k : Nat) (m : DshotData n) :
    Prop where
  recvMask : m.bdshotRecvMask = d.bdshotRecvMask
  state : ∀ c, (m.channels c).state = (d.channels c).state
  later : ∀ c : Fin n, k ≤ c.val → (m.channels c).noResponseCnt = (d.channels c).noResponseCnt
  done : ∀ c : Fin n, c.val < k → cfg.bdshot c = true → (m.channels c).noResponseCnt =
    (d.channels c).noResponseCnt + if has d.bdshotRecvMask (cfg.number c) then 0 else 1

theorem countNoResponse_channels (cfg : DshotConfig n) (m : DshotData n) (c k : Fin n) :
    ((countNoResponse cfg m c).channels k).state = (m.channels k).state ∧
      ((countNoResponse cfg m c).channels k).noResponseCnt = (m.channels k).noResponseCnt +
        if k = c ∧ cfg.bdshot c = true ∧ has m.bdshotRecvMask (cfg.number c) = false
          then 1 else 0 := by
  have hmask : m.bdshotRecvMask &&& bit (cfg.number c) = 0 ↔
      has m.bdshotRecvMask (cfg.number c) = false := by
    rw [← not_iff_not, ← ne_eq, and_bit_ne_zero, Bool.not_eq_false]
  simp only [← hmask]
  unfold countNoResponse
  by_cases hcounts : cfg.bdshot c = true ∧ m.bdshotRecvMask &&& bit (cfg.number c) = 0
  · rw [if_pos hcounts]
    by_cases hk : k = c
    · subst hk
      rw [if_pos ⟨rfl, hcounts⟩, setChannel_same]
      exact ⟨rfl, rfl⟩
    · rw [if_neg fun h => hk h.1, setChannel_other _ hk]
      exact ⟨rfl, (BitVec.add_zero _).symm⟩
  · rw [if_neg hcounts, if_neg fun h => hcounts h.2]
    exact ⟨rfl, (BitVec.add_zero _).symm⟩

theorem triggerTurn_channels (cfg : DshotConfig n) (m : DshotData n) (c : Fin n) :
    (triggerTurn cfg m c).bdshotRecvMask = m.bdshotRecvMask ∧
      (triggerTurn cfg m c).channels = (countNoResponse cfg m c).channels := by
  have hmask : (countNoResponse cfg m c).bdshotRecvMask = m.bdshotRecvMask := by
    unfold countNoResponse
    split <;> rfl
  unfold triggerTurn
  dsimp only
  split <;> exact ⟨hmask, rfl⟩

theorem triggerTurn_step {cfg : DshotConfig n} {d m : DshotData n} {c : Fin n}
    (h : TriggerUpTo cfg d c.val m) :
    TriggerUpTo cfg d (c.val + 1) (triggerTurn cfg m c) := by
  obtain ⟨hmask, hchannels⟩ := triggerTurn_channels cfg m c
  have hcount (k : Fin n) := countNoResponse_channels cfg m c k
  refine ⟨hmask.trans h.recvMask, fun k => ?_, fun k hk => ?_, fun k hk hbdshot => ?_⟩
  · rw [hchannels]
    exact (hcount k).1.trans (h.state k)
  · rw [hchannels, (hcount k).2, if_neg (by rintro ⟨rfl, -⟩; omega), h.later k (by omega)]
    exact BitVec.add_zero _
  · rw [hchannels, (hcount k).2]
    rcases eq_or_ne k c with rfl | hne
    · rw [h.later k (Nat.le_refl _), h.recvMask]
      cases has d.bdshotRecvMask (cfg.number k) <;> simp [hbdshot]
    · have hlt : k.val < c.val :=
        Nat.lt_of_le_of_ne (Nat.le_of_lt_succ hk) (Fin.val_ne_of_ne hne)
      rw [if_neg fun hand => hne hand.1, h.done k hlt hbdshot]
      exact BitVec.add_zero _

theorem trigger_spec (cfg : DshotConfig n) (d : DshotData n) :
    (trigger cfg d).bdshotRecvMask = 0 ∧
      ∀ c, ((trigger cfg d).channels c).state = (d.channels c).state ∧
        (cfg.bdshot c = true → ((trigger cfg d).channels c).noResponseCnt =
          (d.channels c).noResponseCnt + if has d.bdshotRecvMask (cfg.number c) then 0 else 1) := by
  have hloop : TriggerUpTo cfg d n
      (Fin.foldl n (triggerTurn cfg) (d.clearTimerStatus d.dshotTimerMask)) := by
    refine Loops.foldl_inv _ ?_ fun _ _ h => triggerTurn_step h
    exact ⟨rfl, fun _ => rfl, fun _ _ => rfl, fun _ hc => absurd hc (Nat.not_lt_zero _)⟩
  exact ⟨rfl, fun c => ⟨hloop.state c, hloop.done c c.isLt⟩⟩

/-! ## Matching numbers -/

def NumbersMatch (cfg : DshotConfig n) : Prop :=
  ∀ c, cfg.bdshot c = true → cfg.shifterIndex c = cfg.number c

/-- Only bidirectional channels wait for a reply, and the receive mask tells
which of them have had one. -/
structure RepliesInv (cfg : DshotConfig n) (s : DshotTrace n) : Prop where
  receive : ∀ c, (s.data.channels c).state = .receive → cfg.bdshot c = true
  replied : ∀ c, cfg.bdshot c = true → has s.data.bdshotRecvMask (cfg.number c) = s.replied c

theorem traceInit_inv (cfg : DshotConfig n) : RepliesInv cfg (traceInit cfg) where
  receive := fun _ h => DshotState.noConfusion h
  replied := fun c _ => has_zero (cfg.number c)

theorem not_completes_dataSet (cfg : DshotConfig n) (d : DshotData n) (channel : Nat)
    (throttle : BitVec 16) (telemetry : Bool) (c : Fin n) :
    ¬ Completes (d.channels c) ((dataSet cfg d channel throttle telemetry).channels c) := by
  rintro ⟨hbefore, hafter⟩
  rcases (dataSet_frame cfg d channel throttle telemetry).2 c with hstate | hstate
  · exact hbefore (hstate ▸ hafter)
  · rw [hstate] at hafter
    cases hafter

theorem traceStep_inv {cfg : DshotConfig n} (hmatch : NumbersMatch cfg) (s : DshotTrace n)
    (e : DshotEvent) (t : DshotTrace n) (h : RepliesInv cfg s)
    (hstep : traceStep cfg s e = some t) : RepliesInv cfg t := by
  obtain ⟨d, hd, rfl⟩ := Option.map_eq_some_iff.mp hstep
  cases e with
  | dataSet channel throttle telemetry =>
      cases hd
      obtain ⟨hmask, hstate⟩ := dataSet_frame cfg s.data channel throttle telemetry
      refine ⟨fun c hc => ?_, fun c hc => ?_⟩
      · rcases hstate c with hsame | hstart
        · exact h.receive c (hsame ▸ hc)
        · rw [hstart] at hc
          cases hc
      · have hnot := not_completes_dataSet cfg s.data channel throttle telemetry c
        rw [hmask, h.replied c hc]
        simp [hnot]
  | trigger =>
      cases hd
      obtain ⟨hmask, hchannel⟩ := trigger_spec cfg s.data
      refine ⟨fun c hc => h.receive c ((hchannel c).1 ▸ hc), fun c _ => ?_⟩
      rw [hmask]
      exact has_zero _
  | isr flags shiftBufBis hw fuel =>
      have hchannel := isr_channel hd
      refine ⟨fun c hc => ?_, fun c hc => ?_⟩
      · rcases (hchannel c).2.2 hc with hbefore | hbdshot
        · exact h.receive c hbefore
        · exact hbdshot
      · rw [Bool.eq_iff_iff, isr_recvMask hd, h.replied c hc, Bool.or_eq_true, decide_eq_true_eq,
          (hchannel c).1]
        refine or_congr_right ⟨?_, fun hreceives => ⟨c, hreceives, hmatch c hc⟩⟩
        rintro ⟨k, hreceives, hk⟩
        -- the flag set is that of a channel with this number, so of this one
        have hnumber := hmatch k (h.receive k hreceives.2)
        rw [hk, number_inj] at hnumber
        exact hnumber ▸ hreceives

theorem stepAttributed_of_match {cfg : DshotConfig n} (hmatch : NumbersMatch cfg)
    {s : DshotTrace n} {e : DshotEvent} {t : DshotTrace n} (h : RepliesInv cfg s)
    (hstep : traceStep cfg s e = some t) : StepAttributed cfg s e t := by
  obtain ⟨d, hd, rfl⟩ := Option.map_eq_some_iff.mp hstep
  cases e with
  | dataSet channel throttle telemetry =>
      cases hd
      exact not_completes_dataSet cfg s.data channel throttle telemetry
  | trigger =>
      cases hd
      intro c
      obtain ⟨-, hchannel⟩ := trigger_spec cfg s.data
      refine ⟨fun hcompletes => hcompletes.1 ((hchannel c).1 ▸ hcompletes.2), fun _ hbdshot => ?_⟩
      rw [← h.replied c hbdshot]
      exact (hchannel c).2 hbdshot
  | isr flags shiftBufBis hw fuel =>
      intro c hcompletes
      have hchannel := isr_channel hd c
      have hreceives := hchannel.1.mp hcompletes
      rw [hmatch c (h.receive c hreceives.2)]
      exact hchannel.2.1 hreceives

/-! ## A reply of any channel -/

/-- Every timer flag is up for one lap of the timer loop to channel `c`, and
none after it. -/
def lap (c : Fin n) : Nat → Word → Word := fun access _ =>
  if access ≤ c.val + 1 then BitVec.allOnes 32 else 0

theorem has_allOnes (i : Fin 32) : has (BitVec.allOnes 32) i = true := by
  unfold has
  rw [BitVec.getLsbD_allOnes]
  simp

/-- On its lap the loop gives channel `c` its turn once. -/
structure LapUpTo (cfg : DshotConfig n) (d : DshotData n) (c : Fin n) (t : Nat)
    (s : TimerLoop n) : Prop where
  access : s.access = t + 1
  channel : s.channel.val = t % n
  flags : s.flags = lap c t 0
  dshotMask : s.data.dshotMask = d.dshotMask
  own : s.data.channels c =
    if t ≤ c.val then d.channels c else (d.channels c).timerExpired (cfg.bdshot c)

theorem lap_turn {cfg : DshotConfig n} {d : DshotData n} {c : Fin n} {t : Nat} {s : TimerLoop n}
    (h : LapUpTo cfg d c t s) (ht : t ≤ c.val + 1) :
    LapUpTo cfg d c (t + 1) (s.turn cfg (lap c)) where
  access := congrArg (· + 1) h.access
  channel := by
    show (s.channel.val + 1) % n = (t + 1) % n
    rw [h.channel, Nat.mod_add_mod]
  flags := by
    show lap c s.access s.data.timerStatus = lap c (t + 1) 0
    rw [h.access]
    rfl
  dshotMask := (isrTimerTurn_masks cfg _ _ _).1.trans h.dshotMask
  own := by
    refine (isrTimerTurn_channels cfg _ _ _ c).trans ?_
    show (if c = s.channel ∧ has (lap c s.access s.data.timerStatus) _ = true then
      (s.data.channels s.channel).timerExpired (cfg.bdshot s.channel) else s.data.channels c) = _
    rw [h.access, lap]
    rcases Nat.lt_trichotomy t c.val with hlt | heq | hgt
    · have hne : c ≠ s.channel := by
        intro hc
        have hmod := h.channel
        rw [← hc, Nat.mod_eq_of_lt (by omega)] at hmod
        omega
      rw [if_neg fun hand => hne hand.1, if_pos (by omega), h.own, if_pos (by omega)]
    · have hc : s.channel = c := by
        refine Fin.ext (h.channel.trans ?_)
        rw [heq, Nat.mod_eq_of_lt c.isLt]
      rw [hc, if_pos ⟨rfl, by rw [if_pos (by omega)]; exact has_allOnes _⟩, h.own,
        if_pos (by omega), if_neg (by omega)]
    · have hzero : has (0 : Word) (cfg.timerIndex s.channel) = false := has_zero _
      rw [if_neg (c := t + 1 ≤ c.val + 1) (by omega), hzero,
        if_neg fun hand => Bool.noConfusion hand.2, h.own, if_neg (by omega), if_neg (by omega)]

theorem isrTimers_lap (cfg : DshotConfig n) {d : DshotData n}
    (hmask : d.dshotMask = ofIndices cfg.shifterIndex) (c : Fin n) :
    ∃ d', isrTimers cfg (lap c) (c.val + 3) d = some d' ∧ d'.dshotMask = d.dshotMask ∧
      d'.channels c = (d.channels c).timerExpired (cfg.bdshot c) := by
  have hpos : 0 < n := Nat.lt_of_le_of_lt (Nat.zero_le _) c.isLt
  generalize hm : d.readTimerStatus (lap c) 0 = m
  have henter : LapUpTo cfg d c 0 (.enter m hpos) := by
    subst hm
    exact ⟨rfl, (Nat.zero_mod n).symm, rfl, rfl, (if_pos (Nat.zero_le _)).symm⟩
  have hlap (t : Nat) (ht : t ≤ c.val + 2) :
      LapUpTo cfg d c t ((TimerLoop.turn cfg (lap c))^[t] (.enter m hpos)) := by
    induction t with
    | zero => exact henter
    | succ t ih =>
        rw [Function.iterate_succ_apply']
        exact lap_turn (ih (by omega)) (by omega)
  have hcond (t : Nat) (ht : t ≤ c.val + 2) :
      ((TimerLoop.turn cfg (lap c))^[t] (.enter m hpos)).cond = decide (t ≤ c.val + 1) := by
    unfold TimerLoop.cond
    rw [(hlap t ht).flags, (hlap t ht).dshotMask, hmask, lap]
    by_cases hle : t ≤ c.val + 1
    · have hne : BitVec.allOnes 32 &&& ofIndices cfg.shifterIndex ≠ 0 :=
        and_ne_zero.mpr ⟨_, has_allOnes _, has_ofIndices.mpr ⟨c, rfl⟩⟩
      rw [if_pos hle, decide_eq_true hne, decide_eq_true hle]
    · rw [if_neg hle, decide_eq_false hle]
      simp
  have hlast : ((TimerLoop.turn cfg (lap c))^[c.val + 2] (.enter m hpos)).cond = false := by
    rw [hcond _ (Nat.le_refl _)]
    exact decide_eq_false (by omega)
  have hexit := Loops.whileLoop_of_exit TimerLoop.cond (TimerLoop.turn cfg (lap c)) hlast
    fun t ht => by
      rw [hcond t (by omega)]
      exact decide_eq_true (by omega)
  have hend := hlap (c.val + 2) (Nat.le_refl _)
  refine ⟨_, ?_, hend.dshotMask, hend.own.trans (if_neg (by omega))⟩
  unfold isrTimers
  rw [hm]
  dsimp only
  rw [dif_pos hpos, hexit]
  rfl

/-- An interrupt after which channel `c` has had its flag of the shifters, if
any, and then its timer flag. -/
theorem isr_lap (cfg : DshotConfig n) {d : DshotData n}
    (hmask : d.dshotMask = ofIndices cfg.shifterIndex) (c : Fin n) (flags : Word)
    (shiftBufBis : Fin 32 → Word) :
    ∃ d', isr cfg flags shiftBufBis (lap c) (c.val + 3) d = some d' ∧
      d'.dshotMask = d.dshotMask ∧
      d'.channels c = (if has flags (cfg.shifterIndex c) then
        (d.channels c).shifterFull (shiftBufBis (cfg.number c))
        else d.channels c).timerExpired (cfg.bdshot c) := by
  obtain ⟨-, hshiftMask, -⟩ := isrShifterLoop_frame cfg flags shiftBufBis d
  obtain ⟨d', hrun, hmask', hchannel⟩ := isrTimers_lap cfg (hshiftMask.trans hmask) c
  refine ⟨d', hrun, hmask'.trans hshiftMask, ?_⟩
  rw [hchannel, (isrShifterLoop_spec cfg flags shiftBufBis d).done c c.isLt]

theorem traceStep_isr {cfg : DshotConfig n} {s : DshotTrace n} {flags : Word}
    {shiftBufBis : Fin 32 → Word} {hw : Nat → Word → Word} {fuel : Nat} {d : DshotData n}
    (h : isr cfg flags shiftBufBis hw fuel s.data = some d) :
    ∃ t, traceStep cfg s (.isr flags shiftBufBis hw fuel) = some t ∧ t.data = d :=
  ⟨_, Option.map_eq_some_iff.mpr ⟨d, h, rfl⟩, rfl⟩

/-- A bidirectional channel can be brought to wait for its reply. -/
theorem run_to_receive (cfg : DshotConfig n) (c : Fin n) (hbdshot : cfg.bdshot c = true) :
    ∃ events s, Guarded.run (traceStep cfg) (traceInit cfg) events = some s ∧
      s.data.dshotMask = ofIndices cfg.shifterIndex ∧ (s.data.channels c).state = .receive := by
  obtain ⟨d, hd, hmask, hchannel⟩ := isr_lap cfg (d := dshotInit cfg) rfl c
    (BitVec.allOnes 32) fun _ => 0
  obtain ⟨s, hs, rfl⟩ := traceStep_isr (s := traceInit cfg) hd
  obtain ⟨d', hd', hmask', hchannel'⟩ := isr_lap cfg hmask c 0 fun _ => 0
  obtain ⟨t, ht, rfl⟩ := traceStep_isr hd'
  have hrun := (Guarded.run_cons _).mpr ⟨s, hs, (Guarded.run_cons _).mpr
    ⟨t, ht, Guarded.run_nil (traceStep cfg) t⟩⟩
  refine ⟨_, t, hrun, hmask'.trans hmask, ?_⟩
  have hzero : has (0 : Word) (cfg.shifterIndex c) = false := has_zero _
  rw [hchannel', hchannel, hzero, has_allOnes, hbdshot]
  rfl

theorem numbersMatch_of_attributed {cfg : DshotConfig n} (h : RepliesAttributed cfg) :
    NumbersMatch cfg := by
  intro c hbdshot
  obtain ⟨events, s, hrun, hmask, hreceive⟩ := run_to_receive cfg c hbdshot
  -- the reply arrives with a mark in the word of the channel's number
  obtain ⟨d, hd, -, -⟩ := isr_lap cfg hmask c (BitVec.allOnes 32) fun i =>
    if i = cfg.number c then 1 else 0
  obtain ⟨t, hstep, rfl⟩ := traceStep_isr hd
  obtain ⟨hcompletes, hraw, -⟩ := isr_channel hd c
  have hreceives : Receives cfg (BitVec.allOnes 32) s.data c := ⟨has_allOnes _, hreceive⟩
  have hword := (h events s _ t hrun hstep c (hcompletes.mpr hreceives)).symm.trans
    (hraw hreceives)
  dsimp only at hword
  rw [if_pos rfl] at hword
  by_contra hne
  rw [if_neg hne] at hword
  cases hword

/-! ## Result -/

/-- Replies go to the right channels and are counted there in every run
exactly if the shifter of every bidirectional channel has the number of the
channel. -/
theorem replies_attributed_iff (cfg : DshotConfig n) :
    RepliesAttributed cfg ↔ ∀ c, cfg.bdshot c = true → cfg.shifterIndex c = cfg.number c := by
  constructor
  · exact numbersMatch_of_attributed
  · intro hmatch events s e t hrun hstep
    have hinv : RepliesInv cfg s :=
      Guarded.run_inv (traceStep cfg) (traceStep_inv hmatch) (traceInit_inv cfg) hrun
    exact stepAttributed_of_match hmatch hinv hstep

/-- Sent, received with 7 in the channel's shifter and 5 in shifter 0, and
triggered twice: the channel is left with 5, and the reply is counted as
missing. -/
theorem reply_of_second_shifter_lost :
    (¬ RepliesAttributed .secondShifter) ∧
      (Guarded.run (dshotStep .secondShifter) (dshotInit .secondShifter)
        [.trigger, .isr 2 (fun _ => 0) (lap (0 : Fin 1)) 3, .isr 0 (fun _ => 0) (lap (0 : Fin 1)) 3,
          .isr 2 (fun i => if i = 1 then 7 else 5) (lap (0 : Fin 1)) 3, .trigger]).map
        (fun d => ((d.channels 0).state, (d.channels 0).rawResponse,
          (d.channels 0).noResponseCnt)) = some (.receiveComplete, 5, 2) := by
  refine ⟨fun h => ?_, by decide +kernel⟩
  have hmatch := numbersMatch_of_attributed h 0 rfl
  exact absurd hmatch (by decide)

end Rdd2
