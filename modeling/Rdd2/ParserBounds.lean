import Rdd2.Reentry
import Rdd2.SerialRxRefine
import Rdd2.UbxRx

/-!
# The byte parsers stay in bounds

Both receivers fill fixed buffers through a position counter that lives in
a global. The radio's `rx_byte` shares it with the replay that it calls
itself, so its index invariant has to hold at every entry of a nested call
and at every return from one. `rxHandler` is that recursion with nothing
to stop it, as an instance of `Reentry`: an execution of `rx_byte` either
returns or ends with its call of `rx_replay` (`Returns`, `Calls`), and
`replaying` is the flag. What stops it, and how soon, is then a consequence
of the flag; that every store is inside its buffer is one of
`RxParser.Wf` (`parsers_in_bounds`).
-/

namespace Rdd2

/-! ## Executions of `rx_byte` -/

/-- `rx_byte` comes back with `t`, without a call of `rx_replay`. -/
def Returns (cfg : SerialConfig) (s : Rx) (b : UInt8) (t : Rx) : Prop :=
  ∀ rxReplay, rxByteWith cfg rxReplay s b = t

/-- `rx_byte` ends with the call `rx_replay(bytes)`, made in `t`. -/
def Calls (cfg : SerialConfig) (s : Rx) (b : UInt8) (t : Rx) (bytes : List UInt8) : Prop :=
  ∀ rxReplay, rxByteWith cfg rxReplay s b = rxReplay t bytes

/-- `rx_byte` and `rx_replay` calling each other. -/
def rxHandler (cfg : SerialConfig) : Reentry.Handler Rx UInt8 where
  handle s b o :=
    match o with
    | .done t => Returns cfg s b t
    | .again t bytes => Calls cfg s b t bytes
  busy s := s.replaying
  refuse := rxReplayWith fun s _ => s
  enter s := { s with parser.state := .sync0, parser.pos := 0, replaying := true }
  leave s := { s with replaying := false }

/-- The state in which an execution returns or makes its call. -/
def rxLeft (cfg : SerialConfig) (s : Rx) (b : UInt8) : Rx := rxByteWith cfg (fun t _ => t) s b

/-- An execution returns, or it rejects the candidate in the buffers and
hands it to `rx_replay`: the header, or the whole frame behind its sync
word. -/
theorem rxByteWith_outcome (cfg : SerialConfig) (s : Rx) (b : UInt8) :
    let t := rxLeft cfg s b
    Returns cfg s b t ∨
      (s.parser.state = .header ∧ Calls cfg s b t t.parser.header) ∨
      (s.parser.state = .crc ∧ Calls cfg s b t
        (t.parser.header ++ t.parser.payload.take t.parser.len ++ t.parser.crc)) := by
  intro t
  cases hstate : s.parser.state with
  | sync0 | sync1 | payload =>
      refine Or.inl fun rxReplay => ?_
      simp only [t, rxLeft, rxByteWith, hstate]
  | header =>
      by_cases hmore : s.parser.pos + 1 < headerTail
      · refine Or.inl fun rxReplay => ?_
        simp only [t, rxLeft, rxByteWith, hstate, if_pos hmore]
      set len := (getLe16 ((s.parser.header.set s.parser.pos b).getD 0 0)
        ((s.parser.header.set s.parser.pos b).getD 1 0)).toNat with hlen
      by_cases hbad : len = 0 ∨ len > cfg.maxPayload
      · refine Or.inr (Or.inl ⟨rfl, fun rxReplay => ?_⟩)
        simp only [t, rxLeft, rxByteWith, hstate, if_neg hmore, ← hlen, if_pos hbad]
      · refine Or.inl fun rxReplay => ?_
        simp only [t, rxLeft, rxByteWith, hstate, if_neg hmore, ← hlen, if_neg hbad]
  | crc =>
      by_cases hmore : s.parser.pos + 1 < trailerSize
      · refine Or.inl fun rxReplay => ?_
        simp only [t, rxLeft, rxByteWith, hstate, if_pos hmore]
      by_cases hcrc : cfg.crc16ItuT (cfg.crc16ItuT crcSeed s.parser.header)
          (s.parser.payload.take s.parser.len)
          = getLe16 ((s.parser.crc.set s.parser.pos b).getD 0 0)
            ((s.parser.crc.set s.parser.pos b).getD 1 0)
      · refine Or.inl fun rxReplay => ?_
        simp only [t, rxLeft, rxByteWith, hstate, if_neg hmore, if_pos hcrc]
      · refine Or.inr (Or.inr ⟨rfl, fun rxReplay => ?_⟩)
        simp only [t, rxLeft, rxByteWith, hstate, if_neg hmore, if_neg hcrc]

/-! ## What an execution stores -/

/-- `g_rx_header`, `g_rx_payload` and `g_rx_crc`. -/
def RxParser.buffers (p : RxParser) : List UInt8 × List UInt8 × List UInt8 :=
  (p.header, p.payload, p.crc)

/-- The buffers with `b` stored at `g_rx_pos` of the one the state fills. -/
def RxParser.stored (p : RxParser) (b : UInt8) : List UInt8 × List UInt8 × List UInt8 :=
  match p.state with
  | .header => (p.header.set p.pos b, p.payload, p.crc)
  | .payload => (p.header, p.payload.set p.pos b, p.crc)
  | .crc => (p.header, p.payload, p.crc.set p.pos b)
  | _ => p.buffers

theorem rxLeft_stored (cfg : SerialConfig) (s : Rx) (b : UInt8) :
    (rxLeft cfg s b).parser.buffers = s.parser.stored b := by
  simp only [rxLeft, rxByteWith, RxParser.stored, RxParser.buffers]
  cases s.parser.state with
  | sync0 => simp only; split <;> rfl
  | sync1 => simp only; (repeat' split) <;> rfl
  | header => simp only; (repeat' split) <;> rfl
  | payload => simp only; split <;> rfl
  | crc => simp only; (repeat' split) <;> rfl

theorem rxLeft_replaying (cfg : SerialConfig) (s : Rx) (b : UInt8) :
    (rxLeft cfg s b).replaying = s.replaying :=
  rxByteWith_replaying cfg (fun _ _ => rfl) s b

/-- Only the header sets the length. -/
theorem rxLeft_len (cfg : SerialConfig) {s : Rx} (h : s.parser.state = .crc) (b : UInt8) :
    (rxLeft cfg s b).parser.len = s.parser.len := by
  simp only [rxLeft, rxByteWith, h]
  (repeat' split) <;> rfl

theorem rxLeft_sized {cfg : SerialConfig} {s : Rx} (h : s.parser.Sized cfg) (b : UInt8) :
    (rxLeft cfg s b).parser.Sized cfg := by
  have hbuffers := rxLeft_stored cfg s b
  simp only [RxParser.stored, RxParser.buffers] at hbuffers
  split at hbuffers <;>
  · obtain ⟨hheader, hpayload, hcrc⟩ := by simpa only [Prod.mk.injEq] using hbuffers
    exact ⟨by simp [hheader, h.1], by simp [hpayload, h.2], by simp [hcrc, h.3]⟩

/-! ## The recursion -/

theorem rxHandler_left {cfg : SerialConfig} {s : Rx} {b : UInt8} {o : Reentry.Outcome Rx UInt8}
    (h : (rxHandler cfg).handle s b o) : o.left = rxLeft cfg s b := by
  cases o with
  | done t => exact (h fun t _ => t).symm
  | again t bytes => exact (h fun t _ => t).symm

/-- An execution that calls does not return without calling. -/
theorem Calls.not_returns {cfg : SerialConfig} {s t t' : Rx} {b : UInt8} {bytes : List UInt8}
    (h : Calls cfg s b t bytes) : ¬ Returns cfg s b t' := by
  intro hreturns
  have hflag : ∀ flag, ({ t with replaying := flag } : Rx) = t' := fun flag =>
    (h fun t _ => { t with replaying := flag }).symm.trans (hreturns _)
  have hboth := congrArg Rx.replaying ((hflag true).trans (hflag false).symm)
  cases hboth

theorem Calls.unique {cfg : SerialConfig} {s t t' : Rx} {b : UInt8} {bytes bytes' : List UInt8}
    (h : Calls cfg s b t bytes) (h' : Calls cfg s b t' bytes') : bytes = bytes' := by
  let note : Rx → List UInt8 → Rx := fun t bytes => { t with link.log.dropped := [bytes] }
  have hnote : note t bytes = note t' bytes' := (h note).symm.trans (h' note)
  have hlist : [bytes] = [bytes'] := congrArg (·.link.log.dropped) hnote
  exact List.singleton_inj.mp hlist

/-- The size of the local buffer a rejected candidate is copied to: `header`
or `scan`. -/
def replayBuffer (cfg : SerialConfig) : RxState → Nat
  | .header => headerTail
  | _ => headerTail + cfg.maxPayload + trailerSize

theorem Calls.fits {cfg : SerialConfig} {s t : Rx} {b : UInt8} {bytes : List UInt8}
    (hs : s.parser.Wf cfg) (h : Calls cfg s b t bytes) :
    bytes.length ≤ replayBuffer cfg s.parser.state := by
  have hsized := rxLeft_sized hs.1 b
  rcases rxByteWith_outcome cfg s b with hreturns | ⟨hstate, hcalls⟩ | ⟨hstate, hcalls⟩
  · exact absurd hreturns h.not_returns
  · rw [h.unique hcalls, hstate, hsized.1, replayBuffer]
  · have hwf := hs.2
    rw [hstate] at hwf
    have hlen := rxLeft_len cfg hstate b
    have hle := hwf.2.len_le
    rw [h.unique hcalls, hstate, List.length_append, List.length_append, List.length_take,
      hsized.1, hsized.2, hsized.3, hlen]
    simp only [replayBuffer]
    omega

theorem rxHandler_guarded (cfg : SerialConfig) :
    Reentry.Guarded (rxHandler cfg) (fun s => s.parser.Wf cfg)
      (headerTail + cfg.maxPayload + trailerSize) where
  busy_left := by
    intro s b o h
    rw [rxHandler_left h]
    exact rxLeft_replaying cfg s b
  busy_refuse := rxReplayWith_replaying _
  busy_enter := fun _ => rfl
  busy_leave := fun _ => rfl
  done := by
    intro s b t hs h
    cases hflag : s.replaying with
    | false =>
        have hafter := (rxByte_refines hs hflag b).wf
        rwa [rxByte, h] at hafter
    | true =>
        have hafter := (rxByteNested_refines hs hflag b).wf
        rwa [rxByteNested, h] at hafter
  refuse := by
    intro s b t bytes hs h hbusy
    have hflag : s.replaying = true := by
      rw [← rxLeft_replaying cfg s b, ← rxHandler_left h]
      exact hbusy
    have hafter := (rxByteNested_refines hs hflag b).wf
    rwa [rxByteNested, h] at hafter
  enter := by
    intro s b t bytes hs h
    obtain rfl : t = rxLeft cfg s b := rxHandler_left h
    exact (rxLeft_sized hs.1 b).reset
  leave := fun hs => hs
  back_le := by
    intro s b t bytes hs h
    refine (Calls.fits hs h).trans ?_
    cases s.parser.state <;> simp only [replayBuffer] <;> omega

/-- The recursion computes what the two levels of `rxByte` compute. -/
theorem rxHandler_runs {cfg : SerialConfig} {d : Nat} {s s' : Rx} {bytes : List UInt8}
    {xs : List (Reentry.Execution Rx UInt8)}
    (h : Reentry.Runs (rxHandler cfg) d s bytes xs s') : s' = bytes.foldl (rxByte cfg) s := by
  induction h with
  | nil => rfl
  | @done d s b t bytes xs s' h _ ih =>
      have hbyte : rxByte cfg s b = t := h _
      rw [ih, List.foldl_cons, hbyte]
  | @refused d s b t back bytes xs s' h hbusy _ ih =>
      have hbyte : rxByte cfg s b = rxReplayWith (fun s _ => s) t back :=
        (h (rxReplay cfg)).trans (rxReplayWith_of_replaying hbusy back)
      rw [ih, List.foldl_cons, hbyte]
      rfl
  | @entered d s b t back ys t' bytes xs s' h hbusy _ _ ihin ih =>
      have hclear : t.replaying = false := hbusy
      have hbyte : rxByte cfg s b = { t' with replaying := false } := by
        rw [rxByte_fix, h, ihin]
        simp only [rxReplayWith, hclear, Bool.false_eq_true, if_false]
        rfl
      rw [ih, List.foldl_cons, hbyte]
      rfl

/-! ## Stores in bounds -/

/-- The store of an execution that finds `p` and leaves `p'`: inside the
buffer that the state fills, and the only one. Where payload or checksum
bytes are collected, the length is one the link carries. -/
structure RxParser.StoresWithin (cfg : SerialConfig) (p : RxParser) (b : UInt8) (p' : RxParser) :
    Prop where
  sized : p.Sized cfg
  header : p.state = .header → p.pos < headerTail
  payload : p.state = .payload → p.pos < p.len
  crc : p.state = .crc → p.pos < trailerSize
  len : p.state = .payload ∨ p.state = .crc → 1 ≤ p.len ∧ p.len ≤ cfg.maxPayload
  stored : p'.buffers = p.stored b

theorem RxParser.Wf.storesWithin {cfg : SerialConfig} {p p' : RxParser} {b : UInt8}
    (h : p.Wf cfg) (hstored : p'.buffers = p.stored b) : p.StoresWithin cfg b p' := by
  obtain ⟨hsized, hstate⟩ := h
  constructor
  · exact hsized
  · intro hs
    rw [hs] at hstate
    exact hstate
  · intro hs
    rw [hs] at hstate
    exact hstate.1
  · intro hs
    rw [hs] at hstate
    exact hstate.1
  · rintro (hs | hs)
    · rw [hs] at hstate
      exact ⟨hstate.2.len_pos, hstate.2.len_le⟩
    · rw [hs] at hstate
      exact ⟨hstate.2.len_pos, hstate.2.len_le⟩
  · exact hstored

namespace Ubx

/-- `g_header`, `g_payload` and `g_checksum`. -/
def Rx.buffers (s : Rx) : List UInt8 × List UInt8 × List UInt8 :=
  (s.header, s.payload, s.checksum)

/-- The buffers with `b` stored at `g_pos` of the one the state fills. -/
def Rx.stored (s : Rx) (b : UInt8) : List UInt8 × List UInt8 × List UInt8 :=
  match s.state with
  | .header => (s.header.set s.pos b, s.payload, s.checksum)
  | .payload => (s.header, s.payload.set s.pos b, s.checksum)
  | .checksum => (s.header, s.payload, s.checksum.set s.pos b)
  | _ => s.buffers

theorem frameComplete_buffers (s : Rx) : (frameComplete s).buffers = s.buffers := by
  simp only [frameComplete, Rx.buffers]
  (repeat' split) <;> rfl

theorem rxByte_stored (cfg : Config) (s : Rx) (b : UInt8) :
    (rxByte cfg s b).buffers = s.stored b := by
  simp only [rxByte, Rx.stored]
  cases s.state with
  | sync1 => simp only; split <;> rfl
  | sync2 => simp only; (repeat' split) <;> rfl
  | header => simp only; (repeat' split) <;> rfl
  | payload => simp only; split <;> rfl
  | checksum =>
      simp only
      split
      · rfl
      · exact frameComplete_buffers _

/-- The store of a byte that turns `s` into `s'`: inside the buffer that the
state fills, and the only one. -/
structure Rx.StoresWithin (cfg : Config) (s : Rx) (b : UInt8) (s' : Rx) : Prop where
  sized : s.Sized cfg
  header : s.state = .header → s.pos < 4
  payload : s.state = .payload → s.pos < s.len.toNat ∧ s.len.toNat ≤ cfg.maxPayload
  checksum : s.state = .checksum → s.pos < 2
  stored : s'.buffers = s.stored b

theorem Rx.Wf.storesWithin {cfg : Config} {s : Rx} (h : s.Wf cfg) (b : UInt8) :
    s.StoresWithin cfg b (rxByte cfg s b) := by
  obtain ⟨hsized, hstate⟩ := h
  constructor
  · exact hsized
  · intro hs
    rw [hs] at hstate
    exact hstate
  · intro hs
    rw [hs] at hstate
    exact ⟨hstate.1, hstate.2.len_le⟩
  · intro hs
    rw [hs] at hstate
    exact hstate.1
  · exact rxByte_stored cfg s b

end Ubx

/-- Both parsers stay in bounds and do bounded work, whatever they are fed.

The radio's: `replaying` is clear when a byte arrives from the line; the
recursion that byte sets off ends, in the state that `rxByte` gives; it
takes no more executions of `rx_byte` than the byte itself and one for each
byte of the longest candidate, at most two of them nested. Each of them
stores inside the buffer its state fills, and a candidate it rejects fits
the local buffer it is copied to.

The onboard receiver's: every byte is stored inside its buffer. -/
theorem parsers_in_bounds :
    (∀ (cfg : SerialConfig) (stream : List UInt8) (b : UInt8),
      let s := rxFeed cfg (rxInit cfg) stream
      s.replaying = false ∧
      (∃ xs, Reentry.Runs (rxHandler cfg) 1 s [b] xs (rxByte cfg s b)) ∧
      ∀ xs s', Reentry.Runs (rxHandler cfg) 1 s [b] xs s' →
        s' = rxByte cfg s b ∧
        xs.length ≤ 1 + headerTail + cfg.maxPayload + trailerSize ∧
        ∀ x ∈ xs, x.depth ≤ 2 ∧
          x.entry.parser.StoresWithin cfg x.symbol x.outcome.left.parser ∧
          ∀ t bytes, x.outcome = .again t bytes →
            bytes.length ≤ replayBuffer cfg x.entry.parser.state) ∧
    (∀ (cfg : Ubx.Config) (stream : List UInt8) (b : UInt8),
      let s := Ubx.feed cfg (Ubx.rxInit cfg) stream
      s.StoresWithin cfg b (Ubx.rxByte cfg s b)) := by
  refine ⟨fun cfg stream b => ?_, fun cfg stream b => ?_⟩
  · intro s
    have hafter := rxFeed_rxInit cfg stream
    have hg := rxHandler_guarded cfg
    refine ⟨hafter.replaying_eq, ?_, fun xs s' hrun => ?_⟩
    · have htotal : ∀ s b, ∃ o, (rxHandler cfg).handle s b o := by
        intro s b
        rcases rxByteWith_outcome cfg s b with hreturns | ⟨-, hcalls⟩ | ⟨-, hcalls⟩
        · exact ⟨.done _, hreturns⟩
        · exact ⟨.again _ _, hcalls⟩
        · exact ⟨.again _ _, hcalls⟩
      obtain ⟨xs, s', hrun⟩ := Reentry.exists_runs hg htotal 1 [b] hafter.replaying_eq
      obtain rfl := rxHandler_runs hrun
      exact ⟨xs, hrun⟩
    · obtain ⟨hlen, hdepth⟩ := hrun.bounded hg hafter.wf hafter.replaying_eq
      obtain ⟨-, hentries⟩ := hrun.keeps hg hafter.wf
      refine ⟨rxHandler_runs hrun, ?_, fun x hx => ⟨hdepth x hx, ?_, fun t bytes ho => ?_⟩⟩
      · rw [List.length_singleton, Nat.one_mul] at hlen
        omega
      · obtain ⟨hwf, hhandle⟩ := hentries x hx
        refine hwf.storesWithin ?_
        rw [rxHandler_left hhandle]
        exact rxLeft_stored cfg x.entry x.symbol
      · obtain ⟨hwf, hhandle⟩ := hentries x hx
        rw [ho] at hhandle
        exact Calls.fits hwf hhandle
  · obtain ⟨⟨hwf, -⟩, -, -⟩ := Ubx.feed_refines cfg (Ubx.rxInit_pending cfg) stream
    exact hwf.storesWithin b

end Rdd2
