import Rdd2.RescanWhole
import Rdd2.SerialFrame

/-!
# UBX frames

The wire format the u-blox receiver speaks, as `gnss_onboard.c` reads it.

```
off  size  field
  0     2   sync      0xb5 0x62
  2     1   class
  3     1   id
  4     2   len       payload byte count, little-endian
  6     N   payload
6+N     2   checksum  Fletcher-8 over bytes [2, 6+N)
```

The format read as a `Rescan.Recogniser`: `judge` is what the bytes from one
stream position on say about a frame starting there, for a reader that
buffers `maxPayload` bytes. It skips one byte where there is no sync word,
the six header bytes of a frame too long for it, and the whole of a candidate
whose checksum fails. `Reading` lists the cases; everything said about
`judge` later goes through it.
-/

namespace Rdd2.Ubx

open Rescan

/-! ## Frames -/

/-- `UBX_PREAMBLE_SYNC_CHAR_1` and `_2`, of Zephyr's UBX protocol header. -/
def syncChar1 : UInt8 := 0xb5
def syncChar2 : UInt8 := 0x62
/-- `UBX_HEADER_SIZE`. -/
def headerSize : Nat := 6
/-- `sizeof(g_checksum)`. -/
def checksumSize : Nat := 2
/-- `UBX_CLASS_ID_NAV`. -/
def classIdNav : UInt8 := 0x01
/-- `UBX_NAV_PVT_ID`. -/
def navPvtId : UInt8 := 0x07
/-- `sizeof(struct ubx_nav_pvt)`, asserted at build time. -/
def navPvtSize : Nat := 92

/-- `checksum`: the two running sums carried over `data`. -/
def checksum (data : List UInt8) (ck : UInt8 × UInt8) : UInt8 × UInt8 :=
  data.foldl (fun ck byte => (ck.1 + byte, ck.2 + (ck.1 + byte))) ck

theorem checksum_append (xs ys : List UInt8) (ck : UInt8 × UInt8) :
    checksum (xs ++ ys) ck = checksum ys (checksum xs ck) :=
  List.foldl_append

/-- A sync word, four header bytes and what follows them. -/
def candidate (cls id l0 l1 : UInt8) (rest : List UInt8) : List UInt8 :=
  syncChar1 :: syncChar2 :: cls :: id :: l0 :: l1 :: rest

/-- What a frame tells its reader. The length field is 16 bits wide. -/
structure Frame where
  cls : UInt8
  id : UInt8
  payload : List UInt8
  length_lt : payload.length < 65536
  deriving DecidableEq, Repr

namespace Frame

/-- `g_header` of the frame. -/
def header (f : Frame) : List UInt8 :=
  [f.cls, f.id] ++ putLe16 (UInt16.ofNat f.payload.length)

def sums (f : Frame) : UInt8 × UInt8 := checksum (f.header ++ f.payload) (0, 0)

def wire (f : Frame) : List UInt8 :=
  [syncChar1, syncChar2] ++ f.header ++ f.payload ++ [f.sums.1, f.sums.2]

/-- A frame of class NAV, id 0x07 and length 92. -/
def IsNavPvt (f : Frame) : Prop :=
  f.cls = classIdNav ∧ f.id = navPvtId ∧ f.payload.length = navPvtSize

instance (f : Frame) : Decidable f.IsNavPvt := by
  unfold IsNavPvt
  infer_instance

def tail (f : Frame) : List UInt8 := f.payload ++ [f.sums.1, f.sums.2]

theorem header_length (f : Frame) : f.header.length = 4 := rfl

theorem wire_length (f : Frame) :
    f.wire.length = headerSize + f.payload.length + checksumSize := by
  simp [wire, header_length, headerSize, checksumSize]
  omega

theorem length_field (f : Frame) :
    (UInt16.ofNat f.payload.length).toNat = f.payload.length :=
  UInt16.toNat_ofNat_of_lt' f.length_lt

/-- The sync word and the header bytes, written out. -/
theorem wire_candidate (f : Frame) : ∃ l0 l1, (getLe16 l0 l1).toNat = f.payload.length ∧
    f.header = [f.cls, f.id, l0, l1] ∧ f.wire = candidate f.cls f.id l0 l1 f.tail := by
  refine ⟨_, _, ?_, rfl, rfl⟩
  rw [getLe16_putLe16, f.length_field]

end Frame

/-! ## The recogniser -/

/-- Why a candidate with a sync word is given up. -/
inductive Fault where
  | oversize
  | checksum
  deriving DecidableEq, Repr

theorem take_length_lt (len : UInt16) (bytes : List UInt8) :
    (bytes.take len.toNat).length < 65536 := by
  have hlen := len.toNat_lt
  rw [List.length_take]
  omega

/-- The verdict on what follows a sync word. -/
def judgeBody (maxPayload : Nat) : List UInt8 → Verdict Frame Fault
  | cls :: id :: l0 :: l1 :: rest =>
      let len := getLe16 l0 l1
      if maxPayload < len.toNat then .reject (some .oversize) headerSize
      else
        match rest.drop len.toNat with
        | ckA :: ckB :: _ =>
            if checksum ([cls, id, l0, l1] ++ rest.take len.toNat) (0, 0) = (ckA, ckB)
            then .accept ⟨cls, id, rest.take len.toNat, take_length_lt len rest⟩
              (headerSize + len.toNat + checksumSize)
            else .reject (some .checksum) (headerSize + len.toNat + checksumSize)
        | _ => .more
  | _ => .more

/-- The verdict on the bytes from one stream position on. -/
def judge (maxPayload : Nat) : List UInt8 → Verdict Frame Fault
  | [] => .more
  | [a] => if a = syncChar1 then .more else .reject none 1
  | a :: b :: body =>
      if a = syncChar1 ∧ b = syncChar2 then judgeBody maxPayload body else .reject none 1

inductive Reading (maxPayload : Nat) : List UInt8 → Verdict Frame Fault → Prop where
  | skip (a : UInt8) (v : List UInt8) (ha : a ≠ syncChar1) :
      Reading maxPayload (a :: v) (.reject none 1)
  | unpaired (b : UInt8) (v : List UInt8) (hb : b ≠ syncChar2) :
      Reading maxPayload (syncChar1 :: b :: v) (.reject none 1)
  | oversize (cls id l0 l1 : UInt8) (v : List UInt8) (h : maxPayload < (getLe16 l0 l1).toNat) :
      Reading maxPayload (candidate cls id l0 l1 v) (.reject (some .oversize) headerSize)
  | corrupt (cls id l0 l1 : UInt8) (payload : List UInt8) (ckA ckB : UInt8) (v : List UInt8)
      (hlen : payload.length = (getLe16 l0 l1).toNat) (hmax : payload.length ≤ maxPayload)
      (hsum : checksum ([cls, id, l0, l1] ++ payload) (0, 0) ≠ (ckA, ckB)) :
      Reading maxPayload (candidate cls id l0 l1 (payload ++ ckA :: ckB :: v))
        (.reject (some .checksum) (headerSize + payload.length + checksumSize))
  | frame (f : Frame) (v : List UInt8) (hmax : f.payload.length ≤ maxPayload) :
      Reading maxPayload (f.wire ++ v) (.accept f f.wire.length)

/-- A candidate whose payload and checksum are there. -/
theorem judge_candidate {maxPayload : Nat} (cls id l0 l1 : UInt8) {payload : List UInt8}
    (hlen : payload.length = (getLe16 l0 l1).toNat) (hmax : payload.length ≤ maxPayload)
    (hlt : payload.length < 65536) (ckA ckB : UInt8) (v : List UInt8) :
    judge maxPayload (candidate cls id l0 l1 (payload ++ ckA :: ckB :: v)) =
      if checksum ([cls, id, l0, l1] ++ payload) (0, 0) = (ckA, ckB)
      then .accept ⟨cls, id, payload, hlt⟩ (headerSize + payload.length + checksumSize)
      else .reject (some .checksum) (headerSize + payload.length + checksumSize) := by
  have hle : ¬ maxPayload < payload.length := by omega
  simp only [candidate, judge, judgeBody, and_self, if_true, ← hlen, hle, if_false,
    List.drop_left, List.take_left]

/-- A candidate whose payload or checksum is not all there yet. -/
theorem judge_candidate_more {maxPayload : Nat} (cls id l0 l1 : UInt8) {rest : List UInt8}
    (hmax : (getLe16 l0 l1).toNat ≤ maxPayload)
    (hshort : rest.length < (getLe16 l0 l1).toNat + checksumSize) :
    judge maxPayload (candidate cls id l0 l1 rest) = .more := by
  have hle : ¬ maxPayload < (getLe16 l0 l1).toNat := by omega
  simp only [candidate, judge, judgeBody, and_self, if_true, hle, if_false]
  have hdrop : (rest.drop (getLe16 l0 l1).toNat).length < 2 := by
    rw [List.length_drop]
    simp only [checksumSize] at hshort
    omega
  match rest.drop (getLe16 l0 l1).toNat, hdrop with
  | [_], _ | [], _ => rfl

theorem wire_of_sums {cls id l0 l1 : UInt8} {payload : List UInt8}
    (hlen : payload.length = (getLe16 l0 l1).toNat) (hlt : payload.length < 65536)
    {ckA ckB : UInt8} (hsum : checksum ([cls, id, l0, l1] ++ payload) (0, 0) = (ckA, ckB)) :
    Frame.wire ⟨cls, id, payload, hlt⟩ = candidate cls id l0 l1 (payload ++ [ckA, ckB]) := by
  have hheader : Frame.header ⟨cls, id, payload, hlt⟩ = [cls, id, l0, l1] := by
    simp only [Frame.header, hlen, UInt16.ofNat_toNat, putLe16_getLe16]
    rfl
  simp only [Frame.wire, Frame.sums, hheader, hsum]
  rfl

/-- Every decided position is one of those listed. -/
theorem reading {maxPayload : Nat} {w : List UInt8} (h : judge maxPayload w ≠ .more) :
    Reading maxPayload w (judge maxPayload w) := by
  match w with
  | [] => exact absurd rfl h
  | [a] =>
      by_cases ha : a = syncChar1
      · exact absurd (by simp [judge, ha]) h
      · have hj : judge maxPayload [a] = .reject none 1 := by simp [judge, ha]
        rw [hj]
        exact .skip a [] ha
  | a :: b :: body =>
      by_cases ha : a = syncChar1
      · subst ha
        by_cases hb : b = syncChar2
        · subst hb
          match body with
          | [_, _, _] | [_, _] | [_] | [] => exact absurd (by simp [judge, judgeBody]) h
          | cls :: id :: l0 :: l1 :: rest =>
              by_cases hmax : maxPayload < (getLe16 l0 l1).toNat
              · have hj : judge maxPayload (candidate cls id l0 l1 rest)
                    = .reject (some .oversize) headerSize := by
                  simp [candidate, judge, judgeBody, hmax]
                rw [← candidate, hj]
                exact .oversize cls id l0 l1 rest hmax
              · by_cases hshort : rest.length < (getLe16 l0 l1).toNat + checksumSize
                · exact absurd (judge_candidate_more cls id l0 l1 (by omega) hshort) h
                · obtain ⟨payload, ckA, ckB, v, hlen, rfl⟩ : ∃ payload ckA ckB v,
                      payload.length = (getLe16 l0 l1).toNat
                        ∧ rest = payload ++ ckA :: ckB :: v := by
                    have hsplit := List.take_append_drop (getLe16 l0 l1).toNat rest
                    have hdrop : checksumSize ≤ (rest.drop (getLe16 l0 l1).toNat).length := by
                      rw [List.length_drop]
                      omega
                    match hd : rest.drop (getLe16 l0 l1).toNat, hdrop with
                    | ckA :: ckB :: v, _ =>
                        refine ⟨rest.take (getLe16 l0 l1).toNat, ckA, ckB, v, ?_, ?_⟩
                        · rw [List.length_take]
                          omega
                        · rw [← hd, hsplit]
                    | [_], hle => simp [checksumSize] at hle
                  have hlt : payload.length < 65536 := by
                    have := (getLe16 l0 l1).toNat_lt
                    omega
                  rw [← candidate, judge_candidate cls id l0 l1 hlen (by omega) hlt]
                  split
                  · rename_i hsum
                    have hwire := wire_of_sums hlen hlt hsum
                    have happ : candidate cls id l0 l1 (payload ++ ckA :: ckB :: v)
                        = Frame.wire ⟨cls, id, payload, hlt⟩ ++ v := by
                      rw [hwire]
                      simp [candidate]
                    rw [happ, ← Frame.wire_length ⟨cls, id, payload, hlt⟩]
                    refine .frame _ v ?_
                    simp only
                    omega
                  · rename_i hsum
                    exact .corrupt cls id l0 l1 payload ckA ckB v hlen (by omega) hsum
        · have hj : judge maxPayload (syncChar1 :: b :: body) = .reject none 1 := by
            simp [judge, hb]
          rw [hj]
          exact .unpaired b body hb
      · have hj : judge maxPayload (a :: b :: body) = .reject none 1 := by simp [judge, ha]
        rw [hj]
        exact .skip a (b :: body) ha

theorem judge_wire {maxPayload : Nat} {f : Frame} (hmax : f.payload.length ≤ maxPayload)
    (v : List UInt8) : judge maxPayload (f.wire ++ v) = .accept f f.wire.length := by
  obtain ⟨l0, l1, hlen, hheader, hwire⟩ := f.wire_candidate
  have happ : f.wire ++ v
      = candidate f.cls f.id l0 l1 (f.payload ++ f.sums.1 :: f.sums.2 :: v) := by
    rw [hwire]
    simp [candidate, Frame.tail]
  rw [f.wire_length, happ, judge_candidate f.cls f.id l0 l1 hlen.symm hmax f.length_lt, if_pos]
  rw [← hheader]
  rfl

/-- Only at the listed positions is that verdict given. -/
theorem Reading.judge_eq {maxPayload : Nat} {w : List UInt8} {V : Verdict Frame Fault}
    (h : Reading maxPayload w V) : judge maxPayload w = V := by
  cases h with
  | skip a v ha => cases v <;> simp [judge, ha]
  | unpaired b v hb => simp [judge, hb]
  | oversize cls id l0 l1 v h => simp [candidate, judge, judgeBody, h]
  | corrupt cls id l0 l1 payload ckA ckB v hlen hmax hsum =>
      have hlt : payload.length < 65536 := by
        have := (getLe16 l0 l1).toNat_lt
        omega
      rw [judge_candidate cls id l0 l1 hlen hmax hlt, if_neg hsum]
  | frame f v hmax => exact judge_wire hmax v

/-- A decided position stays as it is when the stream goes on. -/
theorem Reading.append {maxPayload : Nat} {w : List UInt8} {V : Verdict Frame Fault}
    (h : Reading maxPayload w V) (v : List UInt8) : Reading maxPayload (w ++ v) V := by
  cases h with
  | skip a v' ha => exact .skip a (v' ++ v) ha
  | unpaired b v' hb => exact .unpaired b (v' ++ v) hb
  | oversize cls id l0 l1 v' h => exact .oversize cls id l0 l1 (v' ++ v) h
  | corrupt cls id l0 l1 payload ckA ckB v' hlen hmax hsum =>
      have happ : candidate cls id l0 l1 (payload ++ ckA :: ckB :: v') ++ v
          = candidate cls id l0 l1 (payload ++ ckA :: ckB :: (v' ++ v)) := by
        simp [candidate]
      rw [happ]
      exact .corrupt cls id l0 l1 payload ckA ckB (v' ++ v) hlen hmax hsum
  | frame f v' hmax =>
      rw [List.append_assoc]
      exact .frame f (v' ++ v) hmax

theorem reading_of {maxPayload : Nat} {w : List UInt8} {V : Verdict Frame Fault}
    (h : judge maxPayload w = V) (hV : V ≠ .more) : Reading maxPayload w V := by
  subst h
  exact reading hV

theorem judge_reject {maxPayload : Nat} {w : List UInt8} {e : Option Fault} {k : Nat}
    (h : judge maxPayload w = .reject e k) : 0 < k ∧ k ≤ w.length := by
  cases reading_of h nofun with
  | skip a v ha => simp
  | unpaired b v hb => simp
  | oversize cls id l0 l1 v h => simp [candidate, headerSize]
  | corrupt cls id l0 l1 payload ckA ckB v hlen hmax hsum =>
      simp [candidate, headerSize, checksumSize]
      omega

theorem judge_accept {maxPayload : Nat} {w : List UInt8} {f : Frame} {n : Nat}
    (h : judge maxPayload w = .accept f n) :
    f.payload.length ≤ maxPayload ∧ n = f.wire.length ∧ ∃ v, w = f.wire ++ v := by
  cases reading_of h nofun with
  | frame f v hmax => exact ⟨hmax, rfl, v, rfl⟩

/-- The recogniser of a reader that buffers `maxPayload` bytes. -/
def recogniser (maxPayload : Nat) : Recogniser UInt8 Frame Fault where
  judge := judge maxPayload
  judge_nil := rfl
  stable := fun h v => ((reading h).append v).judge_eq
  accept_pos := by
    intro w f n h
    obtain ⟨-, rfl, -⟩ := judge_accept h
    rw [f.wire_length, headerSize]
    omega
  accept_le := by
    intro w f n h
    obtain ⟨-, rfl, v, rfl⟩ := judge_accept h
    simp
  accept_take := by
    intro w f n h
    obtain ⟨hmax, rfl, v, rfl⟩ := judge_accept h
    rw [List.take_left]
    simpa using judge_wire hmax []
  reject_pos := fun h => (judge_reject h).1
  reject_le := fun h => (judge_reject h).2

end Rdd2.Ubx
