import Rdd2.SerialRoundTrip

/-!
# Sync words at frame starts

Positions in a concatenation of frames. `SyncAtStarts` says that the sync
word occurs in it only where a frame starts, so that a candidate in
progress is the beginning of a frame or no more than a lone first sync
byte. From there the receiver resynchronises: whatever state a stream left
it in, every frame that starts a whole frame's length or more into what
follows is accepted (`rx_resynchronises`).
-/

namespace Rdd2

open Rescan

/-! ## Positions -/

def wires (fs : List (Frame × UInt8)) : List UInt8 := fs.flatMap fun p => p.1.wire p.2

def startOf (fs : List (Frame × UInt8)) (k : Nat) : Nat := (wires (fs.take k)).length

def SyncAt (bytes : List UInt8) (p : Nat) : Prop :=
  bytes[p]? = some sync0 ∧ bytes[p + 1]? = some sync1

def SyncAtStarts (fs : List (Frame × UInt8)) : Prop :=
  ∀ p, SyncAt (wires fs) p → ∃ k, k < fs.length ∧ p = startOf fs k

instance (bytes : List UInt8) (p : Nat) : Decidable (SyncAt bytes p) :=
  inferInstanceAs (Decidable (_ ∧ _))

theorem SyncAt.lt {bytes : List UInt8} {p : Nat} (h : SyncAt bytes p) : p + 1 < bytes.length :=
  (List.getElem?_eq_some_iff.mp h.2).1

instance (fs : List (Frame × UInt8)) : Decidable (SyncAtStarts fs) :=
  decidable_of_iff
    (∀ p < (wires fs).length, SyncAt (wires fs) p → ∃ k, k < fs.length ∧ p = startOf fs k)
    ⟨fun h p hp => h p (Nat.lt_of_succ_lt hp.lt) hp, fun h p _ hp => h p hp⟩

theorem wires_append (fs gs : List (Frame × UInt8)) : wires (fs ++ gs) = wires fs ++ wires gs :=
  List.flatMap_append

theorem wires_drop_start {fs : List (Frame × UInt8)} {k : Nat} (hk : k < fs.length) :
    (wires fs).drop (startOf fs k) = fs[k].1.wire fs[k].2 ++ wires (fs.drop (k + 1)) := by
  have hsplit : wires fs = wires (fs.take k) ++ wires (fs.drop k) := by
    rw [← wires_append, List.take_append_drop]
  rw [hsplit, startOf, List.drop_left, List.drop_eq_getElem_cons hk]
  rfl

theorem startOf_succ {fs : List (Frame × UInt8)} {k : Nat} (hk : k < fs.length) :
    startOf fs (k + 1) = startOf fs k + (fs[k].1.wire fs[k].2).length := by
  rw [startOf, List.take_succ_eq_append_getElem hk, wires_append, List.length_append]
  simp [startOf, wires]

theorem startOf_eq (fs : List (Frame × UInt8)) (k : Nat) :
    startOf fs k = ((fs.map fun p => p.1.wire p.2).take k).flatten.length := by
  rw [startOf, wires, List.flatMap_def, List.map_take]

theorem startOf_mono (fs : List (Frame × UInt8)) {k l : Nat} (h : k ≤ l) :
    startOf fs k ≤ startOf fs l := by
  rw [startOf_eq, startOf_eq]
  exact flatten_take_mono _ h

theorem startOf_disjoint {fs : List (Frame × UInt8)} {k l : Nat} (hk : k < fs.length)
    (h : startOf fs k < startOf fs l) :
    startOf fs k + (fs[k].1.wire fs[k].2).length ≤ startOf fs l := by
  rw [← startOf_succ hk]
  refine startOf_mono fs ?_
  by_contra hlt
  have := startOf_mono fs (Nat.le_of_lt_succ (Nat.lt_of_not_le hlt))
  omega

theorem SyncAt.of_drop {bytes rest : List UInt8} {p : Nat}
    (h : bytes.drop p = sync0 :: sync1 :: rest) : SyncAt bytes p :=
  getElem?_of_drop h

theorem whole_wires {M : Nat} (hM : M ≤ 512) {fs : List (Frame × UInt8)}
    (hfs : ∀ p ∈ fs, p.1.Valid M) :
    List.Forall₂ (Whole (recogniser M)) (fs.map Prod.fst) (fs.map fun p => p.1.wire p.2) := by
  induction fs with
  | nil => exact .nil
  | cons p fs ih =>
      exact .cons (whole_wire hM (hfs p List.mem_cons_self) p.2)
        (ih fun q hq => hfs q (List.mem_cons_of_mem p hq))

theorem wires_eq_flatten (fs : List (Frame × UInt8)) :
    wires fs = (fs.map fun p => p.1.wire p.2).flatten :=
  List.flatMap_def ..

theorem judge_at_start {M : Nat} (hM : M ≤ 512) {fs : List (Frame × UInt8)}
    (hfs : ∀ p ∈ fs, p.1.Valid M) {k : Nat} (hk : k < fs.length) :
    judge M ((wires fs).drop (startOf fs k))
      = .accept fs[k].1 (fs[k].1.wire fs[k].2).length := by
  rw [wires_drop_start hk]
  exact (whole_wire hM (hfs _ (List.getElem_mem hk)) _).judge_append _

/-! ## Undecided candidates -/

/-- An undecided candidate is at most a lone sync byte, or begins with a
sync word. -/
theorem judge_more_cases {M : Nat} {w : List UInt8} (h : judge M w = .more) :
    w = [] ∨ w = [sync0] ∨ ∃ body, w = sync0 :: sync1 :: body := by
  match w with
  | [] => exact Or.inl rfl
  | [a] =>
    simp only [judge] at h
    split at h
    · rename_i ha
      exact Or.inr (Or.inl (by rw [ha]))
    · cases h
  | a :: b :: body =>
    simp only [judge] at h
    split at h
    · rename_i hs
      obtain ⟨rfl, rfl⟩ := hs
      exact Or.inr (Or.inr ⟨body, rfl⟩)
    · cases h

theorem judge_more_length {M : Nat} {w : List UInt8} (h : judge M w = .more) :
    w.length < headerSize + M + trailerSize := by
  rcases judge_more_cases h with rfl | rfl | ⟨body, hbody⟩
  · rw [headerSize, List.length_nil]
    omega
  · rw [headerSize, List.length_singleton]
    omega
  · by_contra hlen
    have hheader : headerSize ≤ w.length := by omega
    rw [judge_at_sync hbody hheader] at h
    simp only at h
    split at h
    · cases h
    · rename_i hadmit
      split at h
      · omega
      · split at h <;> cases h

/-! ## Resynchronisation -/

/-- A lone first sync byte makes no difference in front of a frame. -/
theorem liveRun_lone_sync {M : Nat} (bs : List UInt8) :
    (run (liveStep (recogniser M)) [sync0] (sync0 :: bs))
      = run (liveStep (recogniser M)) [] (sync0 :: bs) := by
  have hj : (recogniser M).judge ([sync0] ++ [sync0]) = .reject none 1 := by
    simp [recogniser, judge, sync0, sync1]
  have hone : liveStep (recogniser M) [sync0] sync0 = .silent [sync0] := by
    rw [liveStep, hj]
    exact scan_of_more _ rfl
  have hnone : liveStep (recogniser M) [] sync0 = .silent [sync0] :=
    liveStep_of_more _ rfl
  rw [run, run, hone, hnone]

/-- A candidate in progress after a whole frame's length of such frames is
no more than a lone first sync byte. -/
theorem liveRun_rest_at_boundary {M : Nat} (hM : M ≤ 512) {w : List UInt8}
    (hw : judge M w = .more) {early late : List (Frame × UInt8)}
    (hvalid : ∀ p ∈ early ++ late, p.1.Valid M) (hsync : SyncAtStarts (early ++ late))
    (hearly : headerSize + M + trailerSize ≤ (wires early).length) :
    (run (liveStep (recogniser M)) w (wires early)).rest = [] ∨
      (run (liveStep (recogniser M)) w (wires early)).rest = [sync0] := by
  have hsuffix : (run (liveStep (recogniser M)) w (wires early)).rest <:+ wires early :=
    liveRun_rest_suffix (recogniser M) (fun _ => judge_more_length) hw hearly
  have hmore : judge M (run (liveStep (recogniser M)) w (wires early)).rest = .more :=
    judge_run_live_rest (recogniser M) hw (wires early)
  generalize (run (liveStep (recogniser M)) w (wires early)).rest = w' at hsuffix hmore
  rcases judge_more_cases hmore with h | h | ⟨body, hbody⟩
  · exact Or.inl h
  · exact Or.inr h
  · -- a window that begins with a sync word would begin with a whole frame
    obtain ⟨used, hused⟩ := hsuffix
    have hdrop : (wires (early ++ late)).drop used.length = w' ++ wires late := by
      rw [wires_append, ← hused, List.append_assoc, List.drop_left]
    have hat : SyncAt (wires (early ++ late)) used.length := by
      rw [hbody] at hdrop
      exact .of_drop hdrop
    obtain ⟨k, hk, hstart⟩ := hsync _ hat
    have hlt : k < early.length := by
      by_contra hge
      have hmono := startOf_mono (early ++ late) (Nat.le_of_not_lt hge)
      rw [← hstart, startOf, List.take_left] at hmono
      have hlen := congrArg List.length hused
      rw [List.length_append, hbody, List.length_cons] at hlen
      omega
    have hearly := whole_wires hM fun p hp => hvalid p (List.mem_append_left late hp)
    have hne : w' ≠ [] := by
      rw [hbody]
      exact List.cons_ne_nil _ _
    rw [wires_eq_flatten] at hused
    refine absurd ?_ (undecided_not_at_start hearly hused hmore hne k)
    rw [hstart, startOf_eq, List.map_append, List.take_append_of_le_length]
    simpa using Nat.le_of_lt hlt

/-- From any state a byte stream left the receiver in, and for any further
frames among whose bytes the sync word occurs only at frame starts: the
frames that start a whole frame's length or more into them are accepted,
each once and in order. -/
theorem rx_resynchronises (cfg : SerialConfig) (before : List UInt8)
    (early late : List (Frame × UInt8))
    (hvalid : ∀ p ∈ early ++ late, p.1.Valid cfg.maxPayload)
    (hsync : SyncAtStarts (early ++ late))
    (hearly : headerSize + cfg.maxPayload + trailerSize ≤ (wires early).length) :
    let s := rxFeed cfg (rxInit cfg) before
    (rxFeed cfg s (wires (early ++ late))).link.log.delivered
      = (rxFeed cfg s (wires early)).link.log.delivered ++ late.map Prod.fst := by
  intro s
  have hs := rxFeed_rxInit cfg before
  have hmore : judge cfg.maxPayload s.parser.window = .more := by
    rw [hs.window_eq]
    exact judge_run_live_rest (recogniser cfg.maxPayload) (recogniser cfg.maxPayload).judge_nil _
  have hone := (rxFeed_refines hs.wf hs.replaying_eq (wires early)).link.delivered_eq
  have hall := (rxFeed_refines hs.wf hs.replaying_eq (wires (early ++ late))).link.delivered_eq
  have hlate : (run (liveStep (recogniser cfg.maxPayload)) [] (wires late)).frames
      = late.map Prod.fst := by
    have hwhole := whole_wires cfg.maxPayload_le
      fun p hp => hvalid p (List.mem_append_right early hp)
    rw [wires_eq_flatten, liveRun_whole hwhole]
  have hrest : (run (liveStep (recogniser cfg.maxPayload))
      (run (liveStep (recogniser cfg.maxPayload)) s.parser.window (wires early)).rest
      (wires late)).frames = late.map Prod.fst := by
    rcases liveRun_rest_at_boundary cfg.maxPayload_le hmore hvalid hsync hearly with h | h
    · rw [h, hlate]
    · rw [h]
      cases late with
      | nil => rfl
      | cons p late =>
          rw [← hlate]
          exact congrArg Out.frames (liveRun_lone_sync _)
  rw [hall, hone, wires_append, run_append, Out.andThen_frames, hrest, List.append_assoc]

/-- Half a frame of a longer payload is in progress when the frames come. -/
theorem rx_resynchronises_half_frame :
    let cfg : SerialConfig :=
      { SerialConfig.mocap with
        maxPayload := 8, maxPayload_ge := by decide, maxPayload_le := by decide }
    let s := rxFeed cfg (rxInit cfg) [0x53, 0x59, 8, 0, 1, 0, 0, 0, 7]
    let early : List (Frame × UInt8) := [(⟨1, 1, [1]⟩, 0), (⟨1, 2, [2]⟩, 0)]
    (rxFeed cfg s (wires (early ++ [(⟨1, 3, [3]⟩, 0)]))).link.log.delivered
      = (rxFeed cfg s (wires early)).link.log.delivered ++ [⟨1, 3, [3]⟩] := by
  intro cfg
  exact rx_resynchronises cfg [0x53, 0x59, 8, 0, 1, 0, 0, 0, 7]
    [(⟨1, 1, [1]⟩, 0), (⟨1, 2, [2]⟩, 0)] [(⟨1, 3, [3]⟩, 0)] (by decide) (by decide +kernel)
    (by decide +kernel)

end Rdd2
