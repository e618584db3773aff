import Rdd2.RescanLive
import Rdd2.SerialFrame

/-!
# The frame recogniser of the radio link

The format table read as a `Rescan.Recogniser`: what the bytes from one
stream position on say about a frame starting there. Firmware and ground
station are both compared with it, and the bounded and the unlimited
rescan of `Rescan` give the two their meaning.

A position without a sync word is rejected silently and skipped by one
byte; a sync word with a bad length or a bad checksum is a fault, and its
two bytes are skipped.
-/

namespace Rdd2

open Rescan

/-- The verdict on what follows a sync word. -/
def judgeBody (maxPayload : Nat) : List UInt8 → Verdict Frame RxFault
  | l0 :: l1 :: i0 :: i1 :: seq :: flags :: rest =>
      let len := (getLe16 l0 l1).toNat
      if len = 0 ∨ maxPayload < len then .reject (some .badLength) 2
      else
        match rest.drop len with
        | c0 :: c1 :: _ =>
            let payload := rest.take len
            if crc16CcittFalse ([l0, l1, i0, i1, seq, flags] ++ payload) crcSeed = getLe16 c0 c1
            then .accept ⟨getLe16 i0 i1, seq, payload⟩ (headerSize + len + trailerSize)
            else .reject (some .badCrc) 2
        | _ => .more
  | _ => .more

/-- The verdict on the bytes from one stream position on. -/
def judge (maxPayload : Nat) : List UInt8 → Verdict Frame RxFault
  | [] => .more
  | [a] => if a = sync0 then .more else .reject none 1
  | a :: b :: body =>
      if a = sync0 ∧ b = sync1 then judgeBody maxPayload body else .reject none 1

/-! ## The laws of a recogniser -/

/-- A length the link does not carry is a fault, whatever follows. -/
theorem judgeBody_bad_length {M : Nat} {l0 l1 : UInt8}
    (h : (getLe16 l0 l1).toNat = 0 ∨ M < (getLe16 l0 l1).toNat) (i0 i1 seq flags : UInt8)
    (rest : List UInt8) :
    judgeBody M (l0 :: l1 :: i0 :: i1 :: seq :: flags :: rest) = .reject (some .badLength) 2 :=
  if_pos h

theorem judgeBody_complete {M : Nat} {l0 l1 : UInt8} {payload : List UInt8}
    (hlen : payload.length = (getLe16 l0 l1).toNat)
    (hmid : ¬ (payload.length = 0 ∨ M < payload.length)) (i0 i1 seq flags c0 c1 : UInt8)
    (rest : List UInt8) :
    judgeBody M (l0 :: l1 :: i0 :: i1 :: seq :: flags :: (payload ++ c0 :: c1 :: rest)) =
      if crc16CcittFalse ([l0, l1, i0, i1, seq, flags] ++ payload) crcSeed = getLe16 c0 c1
      then .accept ⟨getLe16 i0 i1, seq, payload⟩ (headerSize + payload.length + trailerSize)
      else .reject (some .badCrc) 2 := by
  simp only [judgeBody, ← hlen, if_neg hmid, List.drop_left, List.take_left]

theorem judgeBody_cases {M : Nat} {w : List UInt8} (h : judgeBody M w ≠ .more) :
    ∃ l0 l1 i0 i1 seq flags rest, w = l0 :: l1 :: i0 :: i1 :: seq :: flags :: rest ∧
      (((getLe16 l0 l1).toNat = 0 ∨ M < (getLe16 l0 l1).toNat) ∨
        ∃ payload c0 c1 more, rest = payload ++ c0 :: c1 :: more ∧
          payload.length = (getLe16 l0 l1).toNat ∧
          ¬ (payload.length = 0 ∨ M < payload.length)) := by
  rcases w with _ | ⟨l0, _ | ⟨l1, _ | ⟨i0, _ | ⟨i1, _ | ⟨seq, _ | ⟨flags, rest⟩⟩⟩⟩⟩⟩
  any_goals exact absurd rfl h
  refine ⟨l0, l1, i0, i1, seq, flags, rest, rfl, ?_⟩
  simp only [judgeBody] at h
  split at h
  · rename_i hbad
    exact Or.inl hbad
  · rename_i hmid
    rcases hd : rest.drop (getLe16 l0 l1).toNat with _ | ⟨c0, _ | ⟨c1, more⟩⟩
    · simp [hd] at h
    · simp [hd] at h
    · have hdlen := congrArg List.length hd
      simp only [List.length_drop, List.length_cons] at hdlen
      have htake : (rest.take (getLe16 l0 l1).toNat).length = (getLe16 l0 l1).toNat := by
        rw [List.length_take]
        omega
      refine Or.inr ⟨rest.take (getLe16 l0 l1).toNat, c0, c1, more, ?_, htake, ?_⟩
      · rw [← hd, List.take_append_drop]
      · rwa [htake]

theorem judgeBody_stable {M : Nat} {w : List UInt8} (h : judgeBody M w ≠ .more)
    (v : List UInt8) : judgeBody M (w ++ v) = judgeBody M w := by
  obtain ⟨l0, l1, i0, i1, seq, flags, rest, rfl, hverdict⟩ := judgeBody_cases h
  simp only [List.cons_append]
  rcases hverdict with hbad | ⟨payload, c0, c1, more, rfl, hlen, hmid⟩
  · rw [judgeBody_bad_length hbad, judgeBody_bad_length hbad]
  · rw [List.append_assoc, List.cons_append, List.cons_append, judgeBody_complete hlen hmid,
      judgeBody_complete hlen hmid]

theorem judge_stable {M : Nat} {w : List UInt8} (h : judge M w ≠ .more) (v : List UInt8) :
    judge M (w ++ v) = judge M w := by
  match w with
  | [] => exact absurd rfl h
  | [a] =>
    simp only [judge] at h ⊢
    split at h
    · exact absurd rfl h
    · rename_i ha
      cases v <;> simp [ha]
  | a :: b :: body =>
    simp only [judge, List.cons_append] at h ⊢
    split
    · rename_i hs
      rw [if_pos hs] at h
      exact judgeBody_stable h v
    · rfl

theorem judgeBody_accept {M : Nat} {w : List UInt8} {f : Frame} {n : Nat}
    (h : judgeBody M w = .accept f n) :
    ∃ flags rest, f.Valid M ∧ f.payload.length < 65536 ∧ w = f.body flags
        ++ putLe16 (crc16CcittFalse (f.body flags) crcSeed) ++ rest
      ∧ n = headerSize + f.payload.length + trailerSize := by
  have hdecided : judgeBody M w ≠ .more := by simp [h]
  obtain ⟨l0, l1, i0, i1, seq, flags, rest, rfl, hverdict⟩ := judgeBody_cases hdecided
  rcases hverdict with hbad | ⟨payload, c0, c1, more, rfl, hlen, hmid⟩
  · rw [judgeBody_bad_length hbad] at h
    cases h
  · rw [judgeBody_complete hlen hmid] at h
    split at h
    · rename_i hcrc
      obtain ⟨rfl, rfl⟩ := Verdict.accept.inj h
      have hbody : Frame.body ⟨getLe16 i0 i1, seq, payload⟩ flags
          = [l0, l1, i0, i1, seq, flags] ++ payload := by
        simp only [Frame.body, hlen, UInt16.ofNat_toNat, putLe16_getLe16]
        rfl
      have hword := (getLe16 l0 l1).toNat_lt
      refine ⟨flags, more, ⟨?_, ?_⟩, ?_, ?_, rfl⟩
      · simp only
        omega
      · simp only
        omega
      · simp only
        omega
      · rw [hbody, hcrc, putLe16_getLe16]
        simp only [List.cons_append, List.nil_append, List.append_assoc]
    · cases h

/-- An accepted candidate is a whole frame of the format table, and what
follows it. -/
theorem judge_accept {M : Nat} {w : List UInt8} {f : Frame} {n : Nat}
    (h : judge M w = .accept f n) :
    ∃ flags rest, f.Valid M ∧ f.payload.length < 65536 ∧ w = f.wire flags ++ rest
      ∧ n = (f.wire flags).length := by
  match w with
  | [] => cases h
  | [a] => simp only [judge] at h; split at h <;> cases h
  | a :: b :: body =>
    simp only [judge] at h
    split at h
    · rename_i hs
      obtain ⟨rfl, rfl⟩ := hs
      obtain ⟨flags, rest, hf, hlen, rfl, rfl⟩ := judgeBody_accept h
      exact ⟨flags, rest, hf, hlen, by simp [Frame.wire], (f.wire_length flags).symm⟩
    · cases h

/-- A frame of the format table is accepted, whatever its flags. -/
theorem judge_wire {M : Nat} {f : Frame} (hf : f.Valid M) (hword : f.payload.length < 65536)
    (flags : UInt8) : judge M (f.wire flags) = .accept f (f.wire flags).length := by
  have hlen : (UInt16.ofNat f.payload.length).toNat = f.payload.length :=
    UInt16.toNat_ofNat_of_lt' hword
  have hmid : ¬ (f.payload.length = 0 ∨ M < f.payload.length) := by
    have := hf.1
    have := hf.2
    omega
  rw [Frame.wire_length]
  simp only [Frame.wire, Frame.body, putLe16, judge, judgeBody, List.cons_append,
    List.nil_append, getLe16_putLe16, hlen, hmid, if_false, List.drop_left, List.take_left,
    and_self, if_true]

theorem judge_accept_take {M : Nat} {w : List UInt8} {f : Frame} {n : Nat}
    (h : judge M w = .accept f n) : judge M (w.take n) = .accept f n := by
  obtain ⟨flags, rest, hf, hword, rfl, rfl⟩ := judge_accept h
  rw [List.take_left]
  exact judge_wire hf hword flags

theorem judgeBody_reject {M : Nat} {w : List UInt8} {e : Option RxFault} {k : Nat}
    (h : judgeBody M w = .reject e k) : e ≠ none ∧ k = 2 := by
  have hdecided : judgeBody M w ≠ .more := by simp [h]
  obtain ⟨l0, l1, i0, i1, seq, flags, rest, rfl, hverdict⟩ := judgeBody_cases hdecided
  rcases hverdict with hbad | ⟨payload, c0, c1, more, rfl, hlen, hmid⟩
  · rw [judgeBody_bad_length hbad] at h
    obtain ⟨rfl, rfl⟩ := Verdict.reject.inj h
    exact ⟨nofun, rfl⟩
  · rw [judgeBody_complete hlen hmid] at h
    split at h
    · cases h
    · obtain ⟨rfl, rfl⟩ := Verdict.reject.inj h
      exact ⟨nofun, rfl⟩

/-- A rejection skips one byte when there is no sync word and two behind
one. -/
theorem judge_reject {M : Nat} {w : List UInt8} {e : Option RxFault} {k : Nat}
    (h : judge M w = .reject e k) :
    (e = none ∧ k = 1 ∧ 1 ≤ w.length) ∨ (e ≠ none ∧ k = 2 ∧ 2 ≤ w.length) := by
  match w with
  | [] => cases h
  | [a] =>
    simp only [judge] at h
    split at h
    · cases h
    · obtain ⟨rfl, rfl⟩ := Verdict.reject.inj h
      exact Or.inl ⟨rfl, rfl, by simp⟩
  | a :: b :: body =>
    simp only [judge] at h
    split at h
    · obtain ⟨he, rfl⟩ := judgeBody_reject h
      exact Or.inr ⟨he, rfl, by simp⟩
    · obtain ⟨rfl, rfl⟩ := Verdict.reject.inj h
      exact Or.inl ⟨rfl, rfl, by simp⟩

theorem judge_nil (M : Nat) : judge M [] = .more := rfl

theorem judge_accept_pos {M : Nat} {w : List UInt8} {f : Frame} {n : Nat}
    (h : judge M w = .accept f n) : 0 < n := by
  obtain ⟨flags, rest, -, -, -, rfl⟩ := judge_accept h
  rw [Frame.wire_length, headerSize]
  omega

theorem judge_accept_le {M : Nat} {w : List UInt8} {f : Frame} {n : Nat}
    (h : judge M w = .accept f n) : n ≤ w.length := by
  obtain ⟨flags, rest, -, -, rfl, rfl⟩ := judge_accept h
  simp

theorem judge_reject_pos {M : Nat} {w : List UInt8} {e : Option RxFault} {k : Nat}
    (h : judge M w = .reject e k) : 0 < k := by
  rcases judge_reject h with ⟨-, rfl, -⟩ | ⟨-, rfl, -⟩ <;> decide

theorem judge_reject_le {M : Nat} {w : List UInt8} {e : Option RxFault} {k : Nat}
    (h : judge M w = .reject e k) : k ≤ w.length := by
  rcases judge_reject h with ⟨-, rfl, hle⟩ | ⟨-, rfl, hle⟩ <;> exact hle

/-- The recogniser of the link, for any payload limit. -/
def recogniser (maxPayload : Nat) : Recogniser UInt8 Frame RxFault where
  judge := judge maxPayload
  judge_nil := judge_nil maxPayload
  stable := judge_stable
  accept_pos := judge_accept_pos
  accept_le := judge_accept_le
  accept_take := judge_accept_take
  reject_pos := judge_reject_pos
  reject_le := judge_reject_le

end Rdd2
