import Rdd2.UbxFraming

/-!
# The onboard reader resynchronises

`rx_byte` never looks at a byte twice, so a bogus header makes it wake up in
the middle of a frame. What it has in progress then is still the end of what
it has read, and shorter than a frame of the longest payload; once so many
bytes of frames have passed, the candidate lies within them. Where the sync
word occurs only at frame starts it can begin nowhere but there, and a
frame that is all there is not a candidate any more: the reader is down to
half a sync word at most, and in step from the next frame on
(`reader_resynchronises`).
-/

namespace Rdd2.Ubx

open Rescan

/-! ## Positions -/

def startOf (fs : List Frame) (k : Nat) : Nat := (stream (fs.take k)).length

def SyncAt (bytes : List UInt8) (p : Nat) : Prop :=
  bytes[p]? = some syncChar1 ∧ bytes[p + 1]? = some syncChar2

def SyncAtStarts (fs : List Frame) : Prop :=
  ∀ p, SyncAt (stream fs) p → ∃ k, k < fs.length ∧ p = startOf fs k

instance (bytes : List UInt8) (p : Nat) : Decidable (SyncAt bytes p) :=
  inferInstanceAs (Decidable (_ ∧ _))

theorem SyncAt.lt {bytes : List UInt8} {p : Nat} (h : SyncAt bytes p) : p + 1 < bytes.length :=
  (List.getElem?_eq_some_iff.mp h.2).1

instance (fs : List Frame) : Decidable (SyncAtStarts fs) :=
  decidable_of_iff
    (∀ p < (stream fs).length, SyncAt (stream fs) p → ∃ k, k < fs.length ∧ p = startOf fs k)
    ⟨fun h p hp => h p (Nat.lt_of_succ_lt hp.lt) hp, fun h p _ hp => h p hp⟩

theorem SyncAt.of_drop {bytes rest : List UInt8} {p : Nat}
    (h : bytes.drop p = syncChar1 :: syncChar2 :: rest) : SyncAt bytes p :=
  getElem?_of_drop h

theorem stream_append (fs gs : List Frame) : stream (fs ++ gs) = stream fs ++ stream gs := by
  simp [stream]

theorem stream_cut (fs : List Frame) (k : Nat) :
    stream fs = stream (fs.take k) ++ stream (fs.drop k) := by
  rw [← stream_append, List.take_append_drop]

theorem startOf_eq (fs : List Frame) (k : Nat) :
    startOf fs k = ((fs.map Frame.wire).take k).flatten.length := by
  rw [startOf, stream, List.map_take]

theorem startOf_mono (fs : List Frame) {k l : Nat} (h : k ≤ l) : startOf fs k ≤ startOf fs l := by
  rw [startOf_eq, startOf_eq]
  exact flatten_take_mono _ h

section Scan

variable {maxPayload : Nat}

theorem whole_stream {fs : List Frame} (h : ∀ f ∈ fs, f.payload.length ≤ maxPayload) :
    List.Forall₂ (Whole (recogniser maxPayload)) fs (fs.map Frame.wire) := by
  induction fs with
  | nil => exact .nil
  | cons f fs ih =>
      have hwhole : Whole (recogniser maxPayload) f f.wire := by
        simpa [Whole, recogniser] using judge_wire (h f (List.mem_cons_self ..)) []
      exact .cons hwhole (ih fun g hg => h g (List.mem_cons_of_mem f hg))

/-! ## The candidate in progress -/

theorem undecided_length {w : List UInt8} (h : judge maxPayload w = .more) :
    w.length < headerSize + maxPayload + checksumSize := by
  rcases undecided_cases h with (rfl | rfl) | ⟨body, rfl⟩
  · simp only [List.length_nil, headerSize]
    omega
  · simp only [List.length_singleton, headerSize]
    omega
  · match body with
    | [_, _, _] | [_, _] | [_] | [] =>
        simp only [List.length_cons, List.length_nil, headerSize, checksumSize]
        omega
    | cls :: id :: l0 :: l1 :: rest =>
        by_contra hlong
        simp only [List.length_cons, headerSize, checksumSize] at hlong
        by_cases hbig : maxPayload < (getLe16 l0 l1).toNat
        · have hj := (Reading.oversize cls id l0 l1 rest hbig).judge_eq
          rw [candidate, h] at hj
          cases hj
        · have hle : (rest.drop (getLe16 l0 l1).toNat).length ≥ 2 := by
            rw [List.length_drop]
            omega
          simp only [judge, judgeBody, and_self, if_true, hbig, if_false] at h
          rcases hd : rest.drop (getLe16 l0 l1).toNat with _ | ⟨ckA, _ | ⟨ckB, v⟩⟩
          · simp [hd] at hle
          · simp [hd] at hle
          · rw [hd] at h
            simp only at h
            split_ifs at h

/-- What a scan has in progress behind enough bytes lies within them. -/
theorem scan_rest_within {w bytes : List UInt8}
    (hlong : headerSize + maxPayload + checksumSize ≤ bytes.length) :
    (scan (recogniser maxPayload) (w ++ bytes)).rest <:+ bytes := by
  have hsuffix := scan_rest_suffix (recogniser maxPayload) (w ++ bytes)
  have hshort := undecided_length (judge_scan_rest (recogniser maxPayload) (w ++ bytes))
  refine List.suffix_of_suffix_length_le hsuffix (List.suffix_append w bytes) ?_
  omega

/-- A candidate that is the end of whole frames is half a sync word at most,
where the sync word occurs only at frame starts. -/
theorem idle_of_suffix {fs : List Frame} {k : Nat}
    (hvalid : ∀ f ∈ fs, f.payload.length ≤ maxPayload) (hsync : SyncAtStarts fs)
    {w : List UInt8} (hmore : judge maxPayload w = .more) (hw : w <:+ stream (fs.take k)) :
    Idle w := by
  rcases undecided_cases hmore with h | ⟨body, hbody⟩
  · exact h
  · exfalso
    obtain ⟨used, hused⟩ := hw
    have hcut : stream fs = used ++ (w ++ stream (fs.drop k)) := by
      rw [stream_cut fs k, ← hused, List.append_assoc]
    have hdrop : (stream fs).drop used.length
        = syncChar1 :: syncChar2 :: (body ++ stream (fs.drop k)) := by
      rw [hcut, List.drop_left, hbody]
      rfl
    have hat : SyncAt (stream fs) used.length := .of_drop hdrop
    obtain ⟨l, hl, hstart⟩ := hsync _ hat
    have hlk : l ≤ k := by
      by_contra hgt
      have hmono := startOf_mono fs (Nat.le_of_not_le hgt)
      have hlen := congrArg List.length hused
      rw [List.length_append, hbody, List.length_cons, ← startOf] at hlen
      omega
    have hearly : List.Forall₂ (Whole (recogniser maxPayload)) (fs.take k)
        ((fs.take k).map Frame.wire) :=
      whole_stream fun f hf => hvalid f (List.mem_of_mem_take hf)
    have hne : w ≠ [] := by
      rw [hbody]
      exact List.cons_ne_nil _ _
    refine undecided_not_at_start hearly hused hmore hne l ?_
    rw [hstart, startOf_eq, List.map_take, List.take_take, Nat.min_eq_left hlk]

/-- Behind half a sync word frames are accepted as they are. -/
theorem scan_idle_stream {p : List UInt8} (hp : Idle p) {fs : List Frame}
    (hvalid : ∀ f ∈ fs, f.payload.length ≤ maxPayload) :
    (scan (recogniser maxPayload) (p ++ stream fs)).frames = fs := by
  have hwhole := scan_whole (whole_stream hvalid)
  cases fs with
  | nil =>
      have hj : (recogniser maxPayload).judge p = .more := by
        rcases hp with rfl | rfl <;> simp [recogniser, judge]
      rw [stream, List.map_nil, List.flatten_nil, List.append_nil, scan_of_more _ hj]
      rfl
  | cons f fs =>
      have hcons : stream (f :: fs) = f.wire ++ stream fs := rfl
      rw [hcons, scan_idle_wire hp, ← hcons, stream, hwhole]

end Scan

/-! ## Resynchronisation -/

/-- From any state a byte stream left the reader in, and for any further
frames that fit its buffer and among whose bytes the sync word occurs only at
frame starts: of the frames from one on that starts the longest frame's
length or more into them, each passes the checksum test once, in order, and
nothing else does. -/
theorem reader_resynchronises (cfg : Config) (before : List UInt8) (fs : List Frame)
    (hvalid : ∀ f ∈ fs, f.payload.length ≤ cfg.maxPayload) (hsync : SyncAtStarts fs)
    (k : Nat) (hk : headerSize + cfg.maxPayload + checksumSize ≤ startOf fs k) :
    let s := feed cfg (rxInit cfg) before
    (feed cfg s (stream fs)).link.passed
      = (feed cfg s (stream (fs.take k))).link.passed ++ fs.drop k := by
  intro s
  obtain ⟨hs, -, -⟩ := feed_refines cfg (rxInit_pending cfg) before
  obtain ⟨hpending, hwindow, hearly⟩ := feed_refines cfg hs (stream (fs.take k))
  have hidle : Idle (feed cfg s (stream (fs.take k))).window := by
    have hwithin : (feed cfg s (stream (fs.take k))).window <:+ stream (fs.take k) := by
      rw [hwindow]
      exact scan_rest_within hk
    exact idle_of_suffix hvalid hsync hpending.2 hwithin
  obtain ⟨-, -, hlate⟩ := feed_refines cfg hpending (stream (fs.drop k))
  have hsplit : feed cfg s (stream fs)
      = feed cfg (feed cfg s (stream (fs.take k))) (stream (fs.drop k)) := by
    rw [stream_cut fs k, feed, List.foldl_append]
    rfl
  rw [hsplit, hlate, Link.passed_after,
    scan_idle_stream hidle fun f hf => hvalid f (List.mem_of_mem_drop hf)]

/-- A poll of a message: a frame without a payload. -/
def poll : Frame := ⟨classIdNav, 0x03, [], by decide⟩

/-- The reader waits for the payload of a longer frame when the frames come. -/
theorem reader_resynchronises_midFrame :
    let s := feed .standard (rxInit .standard) [0xb5, 0x62, 1, 7, 100, 0, 9]
    (feed .standard s (stream [poll, stillFix, stillFix, poll])).link.passed
      = (feed .standard s (stream ([poll, stillFix, stillFix, poll].take 3))).link.passed
        ++ [poll, stillFix, stillFix, poll].drop 3 :=
  reader_resynchronises .standard [0xb5, 0x62, 1, 7, 100, 0, 9]
    [poll, stillFix, stillFix, poll] (by decide +kernel) (by decide +kernel) 3
    (by decide +kernel)

end Rdd2.Ubx
