import Rdd2.SerialRxAgree
import Rdd2.SerialWires

/-!
# One corrupted byte

A byte of a concatenation of frames is changed. With a single level of
rescanning the firmware can then lose a frame that the reference decoder
recovers: a bogus candidate in a payload, rejected while the corrupted
frame is being rescanned, takes the frame behind it along
(`corrupted_byte_loses_frame`).

This needs a sync word inside a payload. If the sync word occurs only at
frame starts, a changed byte makes at most one more, and `Corrupted` follows
the three sync words that a harmful nested rejection would need: one of
them is the new one, and of the other two one starts a frame that was not
touched, or one candidate is too short for the other. So the firmware
accepts what the decoder returns (`corrupted_byte_agrees`).
-/

namespace Rdd2

open Rescan

/-! ## Candidates that fail -/

/-- A candidate that fails has a sync word and a header. -/
theorem judge_fault {M : Nat} {x : List UInt8} {e : RxFault} {k : Nat}
    (h : judge M x = .reject (some e) k) :
    k = 2 ∧ headerSize ≤ x.length ∧ ∃ body, x = sync0 :: sync1 :: body := by
  match x with
  | [] => cases h
  | [a] => simp only [judge] at h; split at h <;> cases h
  | a :: b :: body =>
    simp only [judge] at h
    split at h
    · rename_i hs
      obtain ⟨rfl, rfl⟩ := hs
      refine ⟨(judgeBody_reject h).2, ?_, body, rfl⟩
      by_contra hlen
      have hshort := judge_short (M := M) (Nat.lt_of_not_le hlen)
      simp only [judge, and_self, if_true] at hshort
      rw [hshort] at h
      cases h
    · cases h

/-- An undecided candidate with a header has an admissible length, and is
shorter than its frame. -/
theorem judge_more_header {M : Nat} {w body : List UInt8} (hw : judge M w = .more)
    (hbody : w = sync0 :: sync1 :: body) (hlen : headerSize ≤ w.length) :
    (getLe16 (byteAt w 2) (byteAt w 3)).toNat ≤ M ∧
      w.length < headerSize + (getLe16 (byteAt w 2) (byteAt w 3)).toNat + trailerSize := by
  rw [judge_at_sync hbody hlen] at hw
  simp only at hw
  split at hw
  · cases hw
  · rename_i hadmit
    split at hw
    · rename_i hshort
      exact ⟨by omega, hshort⟩
    · split at hw <;> cases hw

/-- Behind the header of an undecided candidate: its length is admitted, and so
has no sync byte for its high byte. -/
theorem judge_more_high {M : Nat} (hM : M ≤ 512) {w : List UInt8} (hw : judge M w = .more)
    (hlen : headerSize ≤ w.length) : byteAt w 3 ≠ sync0 ∧ byteAt w 3 ≠ sync1 := by
  have hsync : w = sync0 :: sync1 :: w.drop 2 := by
    rw [headerSize] at hlen
    rcases judge_more_cases hw with rfl | rfl | ⟨body, rfl⟩
    · rw [List.length_nil] at hlen
      omega
    · rw [List.length_singleton] at hlen
      omega
    · rfl
  have hadmit := (judge_more_header hw hsync hlen).1
  rw [getLe16_toNat] at hadmit
  have hsmall : (byteAt w 3).toNat < 0x53 := by omega
  constructor
  · intro heq
    rw [heq] at hsmall
    exact absurd hsmall (by decide)
  · intro heq
    rw [heq] at hsmall
    exact absurd hsmall (by decide)

theorem forgettable_of_no_sync {M : Nat} {d v : List UInt8}
    (h : ∀ p < d.length, ¬ SyncAt (d ++ v) p) : Forgettable (recogniser M) d v := by
  induction d with
  | nil => exact ⟨[], scan_nil _, fun _ _ => rfl⟩
  | cons a d ih =>
      have hlater : ∀ p < d.length, ¬ SyncAt (d ++ v) p := by
        intro p hp hat
        exact h (p + 1) (by simpa using hp) (by simpa [SyncAt] using hat)
      have hfirst : ¬ SyncAt (a :: (d ++ v)) 0 := h 0 (by simp)
      cases d with
      | nil =>
          refine ⟨if a = sync0 then [a] else [], scan_singleton M a, ?_⟩
          intro b hb
          split
          · rename_i ha
            obtain ⟨v', rfl⟩ := List.head?_eq_some_iff.mp hb
            exact scan_no_sync fun hs => hfirst ⟨by simp [hs.1], by simp [hs.2]⟩
          · rfl
      | cons b d =>
          obtain ⟨r, hscan, hnext⟩ := ih hlater
          refine ⟨r, ?_, hnext⟩
          rw [scan_no_sync fun hs => hfirst ⟨by simp [hs.1], by simp [hs.2]⟩, hscan]

/-! ## A changed byte -/

theorem SyncAt.of_set {bytes : List UInt8} {i p : Nat} {c : UInt8}
    (h : SyncAt (bytes.set i c) p) (h0 : i ≠ p) (h1 : i ≠ p + 1) : SyncAt bytes p := by
  obtain ⟨hp, hp'⟩ := h
  rw [List.getElem?_set_ne h0] at hp
  rw [List.getElem?_set_ne h1] at hp'
  exact ⟨hp, hp'⟩

theorem wire_head {M : Nat} (hM : M ≤ 512) {f : Frame} (hf : f.Valid M) (flags : UInt8) :
    ∃ lo hi tail, f.wire flags = sync0 :: sync1 :: lo :: hi :: tail ∧
      (getLe16 lo hi).toNat = f.payload.length := by
  have hword : f.payload.length < 65536 := by
    have := hf.2
    omega
  refine ⟨_, _, _, rfl, ?_⟩
  rw [getLe16_putLe16]
  exact UInt16.toNat_ofNat_of_lt' hword

section Corrupted

variable {M : Nat} (hM : M ≤ 512) {fs : List (Frame × UInt8)} (hfs : ∀ p ∈ fs, p.1.Valid M)
  (hsync : SyncAtStarts fs) {i : Nat} {c : UInt8}

include hM hfs

theorem judge_untouched {k : Nat} (hk : k < fs.length)
    (hi : i < startOf fs k ∨ startOf fs k + (fs[k].1.wire fs[k].2).length ≤ i) :
    judge M (((wires fs).set i c).drop (startOf fs k))
      = .accept fs[k].1 (fs[k].1.wire fs[k].2).length := by
  rcases hi with hi | hi
  · rw [List.drop_set_of_lt hi]
    exact judge_at_start hM hfs hk
  · rw [List.drop_set, if_neg (by omega), wires_drop_start hk, List.set_append_right _ _ (by omega)]
    exact (whole_wire hM (hfs _ (List.getElem_mem hk)) _).judge_append _

include hsync in
/-- A candidate that fails although its sync word was not touched is a
frame with the changed byte in it. -/
theorem fault_start {p : Nat} {x v : List UInt8} {e : RxFault} {k : Nat}
    (hx : ((wires fs).set i c).drop p = x ++ v) (hj : judge M x = .reject (some e) k)
    (h0 : i ≠ p) (h1 : i ≠ p + 1) :
    ∃ (l : Nat) (hl : l < fs.length), p = startOf fs l ∧ p ≤ i ∧
      i < p + (fs[l].1.wire fs[l].2).length := by
  obtain ⟨-, -, body, hbody⟩ := judge_fault hj
  have hat : SyncAt ((wires fs).set i c) p := by
    rw [hbody] at hx
    exact .of_drop hx
  obtain ⟨l, hl, rfl⟩ := hsync p (hat.of_set h0 h1)
  refine ⟨l, hl, rfl, ?_⟩
  by_contra hi
  have haccept := judge_untouched hM hfs (i := i) (c := c) hl (by omega)
  have hstable := judge_stable (M := M) (w := x) (by rw [hj]; nofun) v
  rw [← hx, haccept, hj] at hstable
  cases hstable

/-- With its length bytes untouched a candidate is decided within its
frame. -/
theorem undecided_in_frame {l : Nat} (hl : l < fs.length) {w v : List UInt8} {b : UInt8}
    (hw : judge M w = .more) (hlen : headerSize ≤ w.length)
    (hx : ((wires fs).set i c).drop (startOf fs l) = w ++ [b] ++ v)
    (hi : startOf fs l + 4 ≤ i) : w.length < (fs[l].1.wire fs[l].2).length := by
  obtain ⟨lo, hi', tail, hwire, hword⟩ :=
    wire_head hM (hfs _ (List.getElem_mem hl)) fs[l].2
  obtain ⟨j, hj⟩ : ∃ j, i - startOf fs l = j + 4 := ⟨i - startOf fs l - 4, by omega⟩
  rw [List.drop_set, if_neg (by omega), wires_drop_start hl, hwire, hj] at hx
  simp only [List.cons_append, List.set_cons_succ] at hx
  match w, hlen with
  | w0 :: w1 :: w2 :: w3 :: w', hlen =>
    simp only [List.cons_append, List.cons.injEq] at hx
    obtain ⟨rfl, rfl, rfl, rfl, -⟩ := hx
    have hshort := (judge_more_header hw rfl hlen).2
    rw [Frame.wire_length, ← hword]
    exact hshort

include hsync in
/-- A changed byte makes no candidate fail inside another one that begins
a third. -/
theorem nestingHarmless_set : NestingHarmless (recogniser M) ((wires fs).set i c) := by
  intro pre w v g y h b b' e e' k k' hs hw hj hd hy hj'
  obtain ⟨rfl, hxlen, xbody, hx⟩ := judge_fault hj
  obtain ⟨rfl, hylen, ybody, hybody⟩ := judge_fault hj'
  refine forgettable_of_no_sync fun p hp hat => ?_
  -- the three candidates and their places in the stream
  have hx' : w ++ [b] = sync0 :: sync1 :: (g ++ (y ++ [b']) ++ h) := by
    rw [← hd, hx]
    rfl
  have h1 : ((wires fs).set i c).drop pre.length = w ++ [b] ++ v := by
    rw [hs, List.append_assoc, List.drop_left]
  have h2 : ((wires fs).set i c).drop (pre.length + (2 + g.length)) = y ++ [b'] ++ (h ++ v) := by
    rw [← List.drop_drop, h1, hx', Nat.add_comm 2]
    simp
  have h3 : SyncAt ((wires fs).set i c) (pre.length + (2 + g.length) + (2 + p)) := by
    have hdrop : ((wires fs).set i c).drop (pre.length + (2 + g.length) + 2)
        = (y ++ [b']).drop 2 ++ (h ++ v) := by
      rw [← List.drop_drop, h2, List.drop_append_of_le_length]
      rw [headerSize] at hylen
      omega
    rw [← hdrop] at hat
    simpa [SyncAt, List.getElem?_drop, Nat.add_assoc] using hat
  have hwlen : w.length = 2 + g.length + y.length + h.length := by
    have hcount := congrArg List.length hx'
    simp only [List.length_append, List.length_cons, List.length_nil] at hcount
    omega
  simp only [List.length_drop, List.length_append, List.length_singleton, headerSize]
    at hp hylen hxlen
  by_cases hi : i = pre.length + (2 + g.length) ∨ i = pre.length + (2 + g.length) + 1
  · -- the second sync word is the new one, the first and the third start frames
    obtain ⟨l, hl, hstart, hle, hlt⟩ :=
      fault_start hM hfs hsync h1 hj (by omega) (by omega)
    obtain ⟨m, hm, hthird⟩ := hsync _ (h3.of_set (by omega) (by omega))
    have hbehind := startOf_disjoint hl (l := m) (by omega)
    by_cases hlength : pre.length + 4 ≤ i
    · rw [hstart] at h1 hlength
      have hshort := undecided_in_frame hM hfs hl hw (by rw [headerSize]; omega) h1 hlength
      omega
    · -- the new sync word lies on the length: no admissible length is that large
      obtain ⟨hno0, hno1⟩ := judge_more_high hM hw (by rw [headerSize]; omega)
      have hbyte : byteAt w 3 = byteAt (w ++ [b]) 3 := by
        rw [byteAt, byteAt, List.getD_append _ _ _ _ (by omega)]
      rw [hx', hybody] at hbyte
      rcases g with _ | ⟨a, _ | ⟨_, _⟩⟩
      · exact hno1 hbyte
      · exact hno0 hbyte
      · simp only [List.length_cons] at hi
        omega
  · -- the second candidate is a frame with the changed byte, and so is the first
    obtain ⟨m, hm, hstart', hle', hlt'⟩ :=
      fault_start hM hfs hsync h2 hj' (by omega) (by omega)
    obtain ⟨l, hl, hstart, hle, hlt⟩ :=
      fault_start hM hfs hsync h1 hj (by omega) (by omega)
    have hbehind := startOf_disjoint hl (l := m) (by omega)
    omega

end Corrupted

/-! ## The receiver and the decoder -/

/-- No sync word begins in `d`, not even one that would end behind it. -/
def NoSyncBegins (d : List UInt8) : Prop := (∀ p, ¬ SyncAt d p) ∧ d.getLast? ≠ some sync0

theorem scan_of_noSyncBegins {M : Nat} {d : List UInt8} (h : NoSyncBegins d) :
    scan (recogniser M) d = .silent [] := by
  have hnone : findSync d = none := by
    cases hfind : findSync d with
    | none => rfl
    | some start =>
        obtain ⟨-, body, hbody⟩ := scan_of_findSync_some (M := M) hfind
        exact absurd (.of_drop hbody) (h.1 start)
  obtain ⟨rest, hscan, hlast⟩ := scan_of_findSync_none (M := M) hnone
  rcases List.eq_nil_or_concat d with rfl | ⟨d', a, hd⟩
  · exact scan_nil _
  · rw [List.concat_eq_append] at hd
    subst hd
    have ha : a ≠ sync0 := by
      have := h.2
      simpa using this
    have hdrop : (d' ++ [a]).drop ((d' ++ [a]).length - 1) = [a] := by simp
    rw [hdrop, scan_singleton, if_neg ha] at hlast
    rw [hscan, ← hlast]

/-- A byte of a concatenation of frames is changed, and further frames
follow. The firmware accepts exactly what the reference decoder returns, if
the sync word occurs only at the starts of the frames as they were sent, or
else if no sync word begins among the bytes of the candidates the firmware
rejected during a replay. -/
theorem corrupted_byte_agrees (cfg : SerialConfig) (frames further : List (Frame × UInt8))
    (hvalid : ∀ p ∈ frames ++ further, p.1.Valid cfg.maxPayload) (i : Nat) (c : UInt8)
    (chunks : List (List UInt8)) (hchunks : chunks.flatten = (wires frames).set i c ++ wires further)
    (hsafe : SyncAtStarts (frames ++ further) ∨
      ∀ d ∈ (rxFeed cfg (rxInit cfg) chunks.flatten).link.log.dropped, NoSyncBegins d) :
    (rxFeed cfg (rxInit cfg) chunks.flatten).link.log.delivered
      = ((FrameDecoder.new cfg.maxPayload).feedAll chunks).1 := by
  rw [(feedAll_new cfg.maxPayload chunks).1]
  refine (rx_agrees cfg ?_).1
  rcases hsafe with hsync | hdropped
  · obtain ⟨j, hj⟩ : ∃ j, chunks.flatten = (wires (frames ++ further)).set j c := by
      rw [hchunks, wires_append]
      by_cases hi : i < (wires frames).length
      · exact ⟨i, (List.set_append_left i c hi).symm⟩
      · refine ⟨(wires frames ++ wires further).length, ?_⟩
        rw [List.set_eq_of_length_le (Nat.le_of_not_lt hi), List.set_eq_of_length_le (Nat.le_refl _)]
    rw [hj]
    exact safe_of_candidates (nestingHarmless_set cfg.maxPayload_le hvalid hsync)
  · refine safe_of_harmless fun d hd => scan_of_noSyncBegins (hdropped d ?_)
    rw [(rxFeed_rxInit cfg chunks.flatten).link.dropped_eq]
    exact List.mem_append_right _ hd

/-- The length of the first frame, changed so that its candidate covers the
second. -/
theorem corrupted_byte_agrees_length :
    let stream := (wires [(⟨8, 1, [1, 2]⟩, 0), (⟨8, 2, [3]⟩, 0)]).set 2 13
    (rxFeed .mocap (rxInit .mocap) stream).link.log.delivered
      = ((FrameDecoder.new 128).feedAll [stream]).1 := by
  intro stream
  have h := corrupted_byte_agrees .mocap [(⟨8, 1, [1, 2]⟩, 0), (⟨8, 2, [3]⟩, 0)] [] (by decide)
    2 13 [stream] (by simp [stream, wires]) (Or.inl (by decide +kernel))
  rw [List.flatten_cons, List.flatten_nil, List.append_nil] at h
  exact h

/-- Three frames; the payload of the first looks like the header of a frame
that would end with the second. The first length byte is changed from 8
to 30. The decoder recovers the second and the third frame, the firmware
only the third: the second went with the bogus candidate, which was
rejected during the replay of the first. -/
theorem corrupted_byte_loses_frame :
    let frames : List (Frame × UInt8) :=
      [(⟨8, 1, [0x53, 0x59, 11, 0, 8, 0, 0, 0]⟩, 0), (⟨8, 2, [7]⟩, 0), (⟨8, 3, [9]⟩, 0)]
    let stream := (wires frames).set 2 30
    (∀ p ∈ frames, p.1.Valid 128) ∧ (wires frames)[2]? = some 8 ∧
      (rxFeed .mocap (rxInit .mocap) stream).link.log.delivered = [⟨8, 3, [9]⟩] ∧
      ((FrameDecoder.new 128).feedAll [stream]).1 = [⟨8, 2, [7]⟩, ⟨8, 3, [9]⟩] := by
  intro frames stream
  refine ⟨by decide, by decide +kernel, by decide +kernel, ?_⟩
  rw [(feedAll_new 128 [stream]).1]
  decide +kernel

end Rdd2
