import Rdd2.SerialScan

/-!
# The ground station's decoder

`FrameDecoder` of `tools/synapse_serial`: an incremental decoder over a
growing and shrinking buffer. It throws prefixes away eagerly - everything
but one byte when no sync word is in sight - and stops at the first
incomplete candidate.

`leftmostScan` says what it is for, in terms of positions of the whole
stream, with no buffer. The two agree however the stream is cut into
chunks (`feedAll_eq_leftmostScan`). Between them stands `Rescan.scan`:
`feedLoop_spec` reads one call of `feed` as a scan of the buffer, and what
`feed` leaves in the buffer scans to nothing but the candidate in
progress.
-/

namespace Rdd2

open Rescan

/-! ## The decoder -/

structure FrameDecoder where
  maxPayload : Nat
  buf : List UInt8
  crcErrors : Nat
  deriving DecidableEq, Repr

/-- `FrameDecoder.__init__` -/
def FrameDecoder.new (maxPayload : Nat) : FrameDecoder := ⟨maxPayload, [], 0⟩

/-- `buf[i]`, read only where the length has been checked. -/
def byteAt (buf : List UInt8) (i : Nat) : UInt8 := buf.getD i 0

/-- `buf[i:j]` -/
def slice (buf : List UInt8) (i j : Nat) : List UInt8 := (buf.drop i).take (j - i)

/-- `buf.find(SYNC)` -/
def findSync : List UInt8 → Option Nat
  | [] => none
  | [_] => none
  | a :: b :: rest =>
      if a = sync0 ∧ b = sync1 then some 0 else (findSync (b :: rest)).map (· + 1)

theorem findSync_lt {buf : List UInt8} {start : Nat} (h : findSync buf = some start) :
    start + 2 ≤ buf.length := by
  induction buf using findSync.induct generalizing start with
  | case1 => cases h
  | case2 => cases h
  | case3 a b rest hs =>
      rw [findSync, if_pos hs] at h
      obtain rfl := Option.some.inj h
      simp
  | case4 a b rest hs ih =>
      rw [findSync, if_neg hs, Option.map_eq_some_iff] at h
      obtain ⟨s, hrest, rfl⟩ := h
      have := ih hrest
      simp only [List.length_cons] at this ⊢
      omega

/-- The loop of `FrameDecoder.feed`, with the frames found so far. -/
def FrameDecoder.feedLoop (d : FrameDecoder) (frames : List Frame) :
    List Frame × FrameDecoder :=
  match _h : findSync d.buf with
  | none =>
      -- keep one byte in case a sync word straddles two chunks
      (frames, { d with buf := d.buf.drop (d.buf.length - 1) })
  | some start =>
      let buf := d.buf.drop start
      if buf.length < headerSize then (frames, { d with buf := buf })
      else
        let length := (getLe16 (byteAt buf 2) (byteAt buf 3)).toNat
        let topicId := getLe16 (byteAt buf 4) (byteAt buf 5)
        let seq := byteAt buf 6
        if length = 0 ∨ d.maxPayload < length then
          feedLoop { d with buf := buf.drop 2 } frames
        else
          let total := headerSize + length + trailerSize
          if buf.length < total then (frames, { d with buf := buf })
          else
            let body := slice buf 2 (headerSize + length)
            let want := getLe16 (byteAt buf (headerSize + length))
              (byteAt buf (headerSize + length + 1))
            if crc16CcittFalse body crcSeed ≠ want then
              feedLoop { d with crcErrors := d.crcErrors + 1, buf := buf.drop 2 } frames
            else
              let payload := slice buf headerSize (headerSize + length)
              feedLoop { d with buf := buf.drop total } (frames ++ [⟨topicId, seq, payload⟩])
  termination_by d.buf.length
  decreasing_by
    all_goals
      have hlt := findSync_lt _h
      simp_all only [List.length_drop, headerSize, trailerSize]
      omega

def FrameDecoder.feed (d : FrameDecoder) (chunk : List UInt8) : List Frame × FrameDecoder :=
  feedLoop { d with buf := d.buf ++ chunk } []

/-- Successive calls of `feed`: everything they returned, and the decoder
after the last. -/
def FrameDecoder.feedAll (d : FrameDecoder) : List (List UInt8) → List Frame × FrameDecoder
  | [] => ([], d)
  | chunk :: chunks =>
      let first := d.feed chunk
      let later := feedAll first.2 chunks
      (first.1 ++ later.1, later.2)

/-! ## The declarative scan -/

/-- The first position at or after `p` holding a sync word. -/
def nextSync (bytes : List UInt8) (p : Nat) : Option Nat :=
  (List.range' p (bytes.length - p)).find? fun q =>
    bytes[q]? = some sync0 ∧ bytes[q + 1]? = some sync1

theorem nextSync_bounds {bytes : List UInt8} {p q : Nat} (h : nextSync bytes p = some q) :
    p ≤ q ∧ q + 2 ≤ bytes.length := by
  have hmem := List.mem_of_find?_eq_some h
  have hq := List.find?_some h
  rw [List.mem_range'_1] at hmem
  simp only [decide_eq_true_eq] at hq
  obtain ⟨hlt, -⟩ := List.getElem?_eq_some_iff.mp hq.2
  omega

/-- The leftmost scan of `bytes` from position `p` on: the frames, and how
many candidates failed their checksum. -/
def leftmostScan (maxPayload : Nat) (bytes : List UInt8) (p : Nat) : List Frame × Nat :=
  match _h : nextSync bytes p with
  | none => ([], 0)
  | some q =>
      let len := (getLe16 (byteAt bytes (q + 2)) (byteAt bytes (q + 3))).toNat
      if bytes.length < q + headerSize then ([], 0)
      else if len = 0 ∨ maxPayload < len then leftmostScan maxPayload bytes (q + 2)
      else if bytes.length < q + headerSize + len + trailerSize then ([], 0)
      else if crc16CcittFalse (slice bytes (q + 2) (q + headerSize + len)) crcSeed
          ≠ getLe16 (byteAt bytes (q + headerSize + len))
              (byteAt bytes (q + headerSize + len + 1)) then
        let later := leftmostScan maxPayload bytes (q + 2)
        (later.1, later.2 + 1)
      else
        let frame : Frame := ⟨getLe16 (byteAt bytes (q + 4)) (byteAt bytes (q + 5)),
          byteAt bytes (q + 6), slice bytes (q + headerSize) (q + headerSize + len)⟩
        let later := leftmostScan maxPayload bytes (q + headerSize + len + trailerSize)
        (frame :: later.1, later.2)
  termination_by bytes.length - p
  decreasing_by
    all_goals
      have hb := nextSync_bounds _h
      simp only [headerSize, trailerSize] at *
      omega

/-! ## Candidates by offsets

The recogniser's verdict in the decoder's own terms: reads at fixed
offsets and slices. -/

theorem judge_short {M : Nat} {body : List UInt8}
    (h : (sync0 :: sync1 :: body).length < headerSize) :
    judge M (sync0 :: sync1 :: body) = .more := by
  simp only [judge, and_self, if_true]
  rcases body with _ | ⟨_, _ | ⟨_, _ | ⟨_, _ | ⟨_, _ | ⟨_, _ | ⟨_, _⟩⟩⟩⟩⟩⟩
  any_goals rfl
  simp only [List.length_cons, headerSize] at h
  omega

theorem judge_at_sync {M : Nat} {buf body : List UInt8} (hbuf : buf = sync0 :: sync1 :: body)
    (hlen : headerSize ≤ buf.length) :
    judge M buf =
      let length := (getLe16 (byteAt buf 2) (byteAt buf 3)).toNat
      if length = 0 ∨ M < length then .reject (some .badLength) 2
      else if buf.length < headerSize + length + trailerSize then .more
      else if crc16CcittFalse (slice buf 2 (headerSize + length)) crcSeed
          ≠ getLe16 (byteAt buf (headerSize + length)) (byteAt buf (headerSize + length + 1))
        then .reject (some .badCrc) 2
      else .accept ⟨getLe16 (byteAt buf 4) (byteAt buf 5), byteAt buf 6,
        slice buf headerSize (headerSize + length)⟩ (headerSize + length + trailerSize) := by
  subst hbuf
  match body with
  | l0 :: l1 :: i0 :: i1 :: seq :: flags :: rest =>
    have hlow : getLe16 (byteAt (sync0 :: sync1 :: l0 :: l1 :: i0 :: i1 :: seq :: flags :: rest) 2)
        (byteAt (sync0 :: sync1 :: l0 :: l1 :: i0 :: i1 :: seq :: flags :: rest) 3)
        = getLe16 l0 l1 := rfl
    simp only [judge, and_self, if_true, judgeBody, hlow]
    split
    · rfl
    · rcases hd : rest.drop (getLe16 l0 l1).toNat with _ | ⟨c0, _ | ⟨c1, more⟩⟩
      · have hdlen := congrArg List.length hd
        simp only [List.length_drop, List.length_nil] at hdlen
        rw [if_pos]
        simp only [List.length_cons, headerSize, trailerSize]
        omega
      · have hdlen := congrArg List.length hd
        simp only [List.length_drop, List.length_cons, List.length_nil] at hdlen
        rw [if_pos]
        simp only [List.length_cons, headerSize, trailerSize]
        omega
      · have hdlen := congrArg List.length hd
        simp only [List.length_drop, List.length_cons] at hdlen
        have hlong : ¬ (sync0 :: sync1 :: l0 :: l1 :: i0 :: i1 :: seq :: flags :: rest).length
            < headerSize + (getLe16 l0 l1).toNat + trailerSize := by
          simp only [List.length_cons, headerSize, trailerSize]
          omega
        have hbody : slice (sync0 :: sync1 :: l0 :: l1 :: i0 :: i1 :: seq :: flags :: rest) 2
            (headerSize + (getLe16 l0 l1).toNat)
            = [l0, l1, i0, i1, seq, flags] ++ rest.take (getLe16 l0 l1).toNat := by
          have htwo : headerSize + (getLe16 l0 l1).toNat - 2 = (getLe16 l0 l1).toNat + 6 := by
            simp only [headerSize]
            omega
          rw [slice, htwo]
          rfl
        have hpayload : slice (sync0 :: sync1 :: l0 :: l1 :: i0 :: i1 :: seq :: flags :: rest)
            headerSize (headerSize + (getLe16 l0 l1).toNat) = rest.take (getLe16 l0 l1).toNat := by
          rw [slice, Nat.add_sub_cancel_left]
          rfl
        have hcrc : ∀ i, byteAt (sync0 :: sync1 :: l0 :: l1 :: i0 :: i1 :: seq :: flags :: rest)
            (headerSize + (getLe16 l0 l1).toNat + i) = (c0 :: c1 :: more).getD i 0 := by
          intro i
          have hidx : headerSize + (getLe16 l0 l1).toNat + i
              = (getLe16 l0 l1).toNat + i + 8 := by
            simp only [headerSize]
            omega
          rw [byteAt, hidx, ← hd]
          simp [List.getD]
        have hc0 := hcrc 0
        have hc1 := hcrc 1
        rw [Nat.add_zero] at hc0
        rw [if_neg hlong, hbody, hpayload, hc0, hc1, ite_not]
        rfl
  | [_, _, _, _, _] | [_, _, _, _] | [_, _, _] | [_, _] | [_] | [] =>
    simp [headerSize] at hlen

/-! ## Skipping to the sync word -/

theorem judge_no_sync {M : Nat} {a b : UInt8} {rest : List UInt8}
    (h : ¬ (a = sync0 ∧ b = sync1)) : judge M (a :: b :: rest) = .reject none 1 := by
  simp [judge, h]

theorem scan_no_sync {M : Nat} {a b : UInt8} {rest : List UInt8}
    (h : ¬ (a = sync0 ∧ b = sync1)) :
    scan (recogniser M) (a :: b :: rest) = scan (recogniser M) (b :: rest) := by
  have hj : (recogniser M).judge (a :: b :: rest) = .reject none 1 := judge_no_sync h
  rw [scan_of_reject (recogniser M) hj, Out.fault_none]
  rfl

/-- Without a sync word the scan ends silently, and the one byte `feed`
keeps is all that matters. -/
theorem scan_of_findSync_none {M : Nat} {buf : List UInt8} (h : findSync buf = none) :
    ∃ rest, scan (recogniser M) buf = .silent rest
      ∧ scan (recogniser M) (buf.drop (buf.length - 1)) = .silent rest := by
  induction buf using findSync.induct with
  | case1 => exact ⟨[], scan_nil _, scan_nil _⟩
  | case2 a =>
      by_cases ha : a = sync0
      · have hj : (recogniser M).judge [a] = .more := by simp [recogniser, judge, ha]
        exact ⟨[a], scan_of_more _ hj, scan_of_more _ hj⟩
      · have hj : (recogniser M).judge [a] = .reject none 1 := by simp [recogniser, judge, ha]
        have hscan : scan (recogniser M) [a] = .silent [] := by
          rw [scan_of_reject _ hj, Out.fault_none]
          exact scan_nil _
        exact ⟨[], hscan, hscan⟩
  | case3 a b rest hs => simp [findSync, hs] at h
  | case4 a b rest hs ih =>
      rw [findSync, if_neg hs, Option.map_eq_none_iff] at h
      obtain ⟨left, hscan, hlast⟩ := ih h
      refine ⟨left, by rw [scan_no_sync hs, hscan], ?_⟩
      rw [← hlast]
      rfl

/-- The scan goes straight to the sync word `find` returns. -/
theorem scan_of_findSync_some {M : Nat} {buf : List UInt8} {start : Nat}
    (h : findSync buf = some start) :
    scan (recogniser M) buf = scan (recogniser M) (buf.drop start)
      ∧ ∃ body, buf.drop start = sync0 :: sync1 :: body := by
  induction buf using findSync.induct generalizing start with
  | case1 => cases h
  | case2 => cases h
  | case3 a b rest hs =>
      rw [findSync, if_pos hs] at h
      obtain rfl := Option.some.inj h
      obtain ⟨rfl, rfl⟩ := hs
      exact ⟨rfl, rest, rfl⟩
  | case4 a b rest hs ih =>
      rw [findSync, if_neg hs, Option.map_eq_some_iff] at h
      obtain ⟨s, hrest, rfl⟩ := h
      obtain ⟨hscan, hbody⟩ := ih hrest
      exact ⟨(scan_no_sync hs).trans hscan, hbody⟩

/-! ## One call of `feed` -/

/-- What a loop over the buffer `buf` owes: the frames and checksum errors
of its scan, and a buffer that scans to the candidate in progress. -/
structure FedAs (maxPayload : Nat) (buf : List UInt8) (frames : List Frame) (crcErrors : Nat)
    (r : List Frame × FrameDecoder) : Prop where
  frames_eq : r.1 = frames ++ (scan (recogniser maxPayload) buf).frames
  crcErrors_eq : r.2.crcErrors
    = crcErrors + (scan (recogniser maxPayload) buf).faults.count .badCrc
  maxPayload_eq : r.2.maxPayload = maxPayload
  rest_eq : scan (recogniser maxPayload) r.2.buf
    = .silent (scan (recogniser maxPayload) buf).rest

theorem feedLoop_spec (d : FrameDecoder) (frames : List Frame) :
    FedAs d.maxPayload d.buf frames d.crcErrors (d.feedLoop frames) := by
  fun_induction FrameDecoder.feedLoop d frames with
  | case1 d frames hnone =>
      obtain ⟨rest, hscan, hlast⟩ := scan_of_findSync_none (M := d.maxPayload) hnone
      constructor <;> simp [hscan, hlast]
  | case2 d frames start hstart buf hshort =>
      obtain ⟨hscan, body, hbody⟩ := scan_of_findSync_some (M := d.maxPayload) hstart
      have hj : (recogniser d.maxPayload).judge buf = .more := by
        simp only [buf] at hshort ⊢
        rw [hbody] at hshort ⊢
        exact judge_short hshort
      rw [scan_of_more _ hj] at hscan
      constructor <;> simp [hscan, scan_of_more _ hj]
  | case3 d frames start hstart buf hlong length hlen ih =>
      obtain ⟨hscan, body, hbody⟩ := scan_of_findSync_some (M := d.maxPayload) hstart
      have hj : (recogniser d.maxPayload).judge buf = .reject (some .badLength) 2 :=
        (judge_at_sync hbody (Nat.le_of_not_lt hlong)).trans (if_pos hlen)
      rw [scan_of_reject _ hj] at hscan
      obtain ⟨hf, hc, hm, hr⟩ := ih
      exact ⟨by simpa [hscan] using hf, by simpa [hscan] using hc, hm, by simpa [hscan] using hr⟩
  | case4 d frames start hstart buf hlong length hlen total hshort =>
      obtain ⟨hscan, body, hbody⟩ := scan_of_findSync_some (M := d.maxPayload) hstart
      have hj : (recogniser d.maxPayload).judge buf = .more :=
        (judge_at_sync hbody (Nat.le_of_not_lt hlong)).trans
          ((if_neg hlen).trans (if_pos hshort))
      rw [scan_of_more _ hj] at hscan
      constructor <;> simp [hscan, scan_of_more _ hj]
  | case5 d frames start hstart buf hlong length hlen total hfull body' want hcrc ih =>
      obtain ⟨hscan, body, hbody⟩ := scan_of_findSync_some (M := d.maxPayload) hstart
      have hj : (recogniser d.maxPayload).judge buf = .reject (some .badCrc) 2 :=
        (judge_at_sync hbody (Nat.le_of_not_lt hlong)).trans
          ((if_neg hlen).trans ((if_neg hfull).trans (if_pos hcrc)))
      rw [scan_of_reject _ hj] at hscan
      obtain ⟨hf, hc, hm, hr⟩ := ih
      refine ⟨by simpa [hscan] using hf, ?_, hm, by simpa [hscan] using hr⟩
      simp only [hscan, hc, Out.fault_faults, Option.toList_some, List.singleton_append,
        List.count_cons_self]
      omega
  | case6 d frames start hstart buf hlong length topicId seq hlen total hfull body' want hcrc
      payload ih =>
      obtain ⟨hscan, body, hbody⟩ := scan_of_findSync_some (M := d.maxPayload) hstart
      have hj : (recogniser d.maxPayload).judge buf
          = .accept ⟨topicId, seq, payload⟩ (headerSize + length + trailerSize) :=
        (judge_at_sync hbody (Nat.le_of_not_lt hlong)).trans
          ((if_neg hlen).trans ((if_neg hfull).trans (if_neg hcrc)))
      rw [scan_of_accept _ hj] at hscan
      obtain ⟨hf, hc, hm, hr⟩ := ih
      exact ⟨by simpa [hscan] using hf, by simpa [hscan] using hc, hm, by simpa [hscan] using hr⟩

/-- One call of `feed`, from a buffer that scans to the candidate `w`: the
scan of `w` and the chunk. -/
theorem feed_spec (d : FrameDecoder) {w : List UInt8}
    (hbuf : scan (recogniser d.maxPayload) d.buf = .silent w) (chunk : List UInt8) :
    FedAs d.maxPayload (w ++ chunk) [] d.crcErrors (d.feed chunk) := by
  have hspec := feedLoop_spec { d with buf := d.buf ++ chunk } []
  have happ := scan_append (recogniser d.maxPayload) d.buf chunk
  rw [hbuf, Out.silent_andThen] at happ
  obtain ⟨hf, hc, hm, hr⟩ := hspec
  simp only [happ, Out.silent_rest] at hf hc hm hr
  exact ⟨hf, hc, hm, hr⟩

theorem feedAll_spec (d : FrameDecoder) {w : List UInt8}
    (hbuf : scan (recogniser d.maxPayload) d.buf = .silent w) (chunks : List (List UInt8)) :
    FedAs d.maxPayload (w ++ chunks.flatten) [] d.crcErrors (d.feedAll chunks) := by
  induction chunks generalizing d w with
  | nil =>
      have hw : (recogniser d.maxPayload).judge w = .more := by
        have hrest := judge_scan_rest (recogniser d.maxPayload) d.buf
        rwa [hbuf] at hrest
      constructor <;> simp [FrameDecoder.feedAll, scan_of_more _ hw, hbuf]
  | cons chunk chunks ih =>
      obtain ⟨hf, hc, hm, hr⟩ := feed_spec d hbuf chunk
      rw [← hm] at hr
      obtain ⟨hf', hc', hm', hr'⟩ := ih (d.feed chunk).2 hr
      have happ := scan_append (recogniser d.maxPayload) (w ++ chunk) chunks.flatten
      rw [hm] at hf' hc' hm' hr'
      have hsplit : w ++ (chunk :: chunks).flatten = (w ++ chunk) ++ chunks.flatten := by simp
      rw [hsplit]
      constructor
      · simp only [FrameDecoder.feedAll, hf, hf', happ, List.nil_append, Out.andThen_frames]
      · simp only [FrameDecoder.feedAll, hc, hc', happ, Out.andThen_faults, List.count_append]
        omega
      · exact hm'
      · simp only [FrameDecoder.feedAll, hr', happ, Out.andThen_rest]

/-! ## The positions of the declarative scan -/

theorem byteAt_drop (bytes : List UInt8) (q i : Nat) :
    byteAt (bytes.drop q) i = byteAt bytes (q + i) := by
  simp [byteAt, List.getD]

theorem slice_drop (bytes : List UInt8) (q i j : Nat) :
    slice (bytes.drop q) i j = slice bytes (q + i) (q + j) := by
  simp only [slice, List.drop_drop]
  congr 1
  omega

theorem nextSync_eq_findSync (bytes : List UInt8) (p : Nat) :
    nextSync bytes p = (findSync (bytes.drop p)).map (p + ·) := by
  induction hn : bytes.length - p generalizing p with
  | zero =>
      rw [nextSync, hn, List.drop_eq_nil_of_le (by omega)]
      rfl
  | succ n ih =>
      have hp : p < bytes.length := by omega
      have hnext := ih (p + 1) (by omega)
      have hn' : bytes.length - (p + 1) = n := by omega
      rw [nextSync, hn'] at hnext
      rw [nextSync, hn, List.range'_succ, List.drop_eq_getElem_cons hp]
      cases hd : bytes.drop (p + 1) with
      | nil =>
          have hlast : bytes.length ≤ p + 1 := List.drop_eq_nil_iff.mp hd
          have hzero : n = 0 := by omega
          subst hzero
          simp [findSync, List.getElem?_eq_none hlast]
      | cons b rest =>
          have hb : bytes[p + 1]? = some b := by
            rw [← List.head?_drop, hd]
            rfl
          rw [hd] at hnext
          by_cases hs : bytes[p] = sync0 ∧ b = sync1
          · simp [findSync, hs, hb, hp]
          · have hpos : ¬ (bytes[p]? = some sync0 ∧ bytes[p + 1]? = some sync1) := by
              simpa [hb, hp] using hs
            rw [findSync, if_neg hs, List.find?_cons_of_neg (by simpa using hpos), hnext,
              Option.map_map]
            congr 1
            funext i
            simp only [Function.comp_apply]
            omega

theorem judge_at_position {M : Nat} {bytes body : List UInt8} {q : Nat}
    (hsync : bytes.drop q = sync0 :: sync1 :: body) (hlong : q + headerSize ≤ bytes.length) :
    judge M (bytes.drop q) =
      let len := (getLe16 (byteAt bytes (q + 2)) (byteAt bytes (q + 3))).toNat
      if len = 0 ∨ M < len then .reject (some .badLength) 2
      else if bytes.length < q + headerSize + len + trailerSize then .more
      else if crc16CcittFalse (slice bytes (q + 2) (q + headerSize + len)) crcSeed
          ≠ getLe16 (byteAt bytes (q + headerSize + len))
              (byteAt bytes (q + headerSize + len + 1)) then .reject (some .badCrc) 2
      else .accept ⟨getLe16 (byteAt bytes (q + 4)) (byteAt bytes (q + 5)), byteAt bytes (q + 6),
        slice bytes (q + headerSize) (q + headerSize + len)⟩ (headerSize + len + trailerSize) := by
  have hlen : headerSize ≤ (bytes.drop q).length := by
    rw [List.length_drop]
    omega
  have hshort : ∀ n, (bytes.length - q < headerSize + n + trailerSize)
      = (bytes.length < q + headerSize + n + trailerSize) := by
    intro n
    apply propext
    omega
  rw [judge_at_sync hsync hlen]
  simp only [byteAt_drop, slice_drop, List.length_drop, ← Nat.add_assoc, hshort]

theorem leftmostScan_eq_scan (M : Nat) (bytes : List UInt8) (p : Nat) :
    leftmostScan M bytes p = ((scan (recogniser M) (bytes.drop p)).frames,
      (scan (recogniser M) (bytes.drop p)).faults.count .badCrc) := by
  have hfind : ∀ {p q}, nextSync bytes p = some q →
      scan (recogniser M) (bytes.drop p) = scan (recogniser M) (bytes.drop q)
        ∧ ∃ body, bytes.drop q = sync0 :: sync1 :: body := by
    intro p q hq
    rw [nextSync_eq_findSync, Option.map_eq_some_iff] at hq
    obtain ⟨start, hstart, rfl⟩ := hq
    have hskip := scan_of_findSync_some (M := M) hstart
    rwa [List.drop_drop] at hskip
  fun_induction leftmostScan M bytes p with
  | case1 p hnone =>
      rw [nextSync_eq_findSync, Option.map_eq_none_iff] at hnone
      obtain ⟨rest, hscan, -⟩ := scan_of_findSync_none (M := M) hnone
      simp [hscan]
  | case2 p q hq hshort =>
      obtain ⟨hscan, body, hbody⟩ := hfind hq
      have hj : (recogniser M).judge (bytes.drop q) = .more := by
        have hlen : (bytes.drop q).length < headerSize := by
          rw [List.length_drop, headerSize] at *
          omega
        rw [hbody] at hlen ⊢
        exact judge_short hlen
      rw [hscan, scan_of_more _ hj]
      rfl
  | case3 p q hq len hlong hlen ih =>
      obtain ⟨hscan, body, hbody⟩ := hfind hq
      have hj : (recogniser M).judge (bytes.drop q) = .reject (some .badLength) 2 :=
        (judge_at_position hbody (Nat.le_of_not_lt hlong)).trans (if_pos hlen)
      rw [hscan, scan_of_reject _ hj, List.drop_drop, ih]
      simp
  | case4 p q hq len hlong hlen hshort =>
      obtain ⟨hscan, body, hbody⟩ := hfind hq
      have hj : (recogniser M).judge (bytes.drop q) = .more :=
        (judge_at_position hbody (Nat.le_of_not_lt hlong)).trans
          ((if_neg hlen).trans (if_pos hshort))
      rw [hscan, scan_of_more _ hj]
      rfl
  | case5 p q hq len hlong hlen hfull hcrc later ih =>
      obtain ⟨hscan, body, hbody⟩ := hfind hq
      have hj : (recogniser M).judge (bytes.drop q) = .reject (some .badCrc) 2 :=
        (judge_at_position hbody (Nat.le_of_not_lt hlong)).trans
          ((if_neg hlen).trans ((if_neg hfull).trans (if_pos hcrc)))
      rw [hscan, scan_of_reject _ hj, List.drop_drop]
      simp [later, ih]
  | case6 p q hq len hlong hlen hfull hcrc frame later ih =>
      obtain ⟨hscan, body, hbody⟩ := hfind hq
      have hj : (recogniser M).judge (bytes.drop q)
          = .accept frame (headerSize + len + trailerSize) :=
        (judge_at_position hbody (Nat.le_of_not_lt hlong)).trans
          ((if_neg hlen).trans ((if_neg hfull).trans (if_neg hcrc)))
      have hend : q + (headerSize + len + trailerSize) = q + headerSize + len + trailerSize := by
        omega
      rw [hscan, scan_of_accept _ hj, List.drop_drop, hend]
      simp [later, ih]

/-! ## Chunking does not matter -/

theorem feedAll_append (d : FrameDecoder) (cs cs' : List (List UInt8)) :
    d.feedAll (cs ++ cs') = ((d.feedAll cs).1 ++ ((d.feedAll cs).2.feedAll cs').1,
      ((d.feedAll cs).2.feedAll cs').2) := by
  induction cs generalizing d with
  | nil => rfl
  | cons c cs ih => simp [FrameDecoder.feedAll, ih]

theorem new_buf_scan (M : Nat) : scan (recogniser M) (FrameDecoder.new M).buf = .silent [] :=
  scan_nil _

/-- However a stream is cut into chunks, the calls of `feed` together
return the frames of the declarative scan of the whole stream and count its
checksum errors; and one more chunk then gives what feeding everything at
once would have given. -/
theorem feedAll_eq_leftmostScan (maxPayload : Nat) (chunks : List (List UInt8)) :
    (((FrameDecoder.new maxPayload).feedAll chunks).1,
        ((FrameDecoder.new maxPayload).feedAll chunks).2.crcErrors)
      = leftmostScan maxPayload chunks.flatten 0 ∧
    ∀ chunk,
      let fed := (FrameDecoder.new maxPayload).feedAll chunks
      let next := fed.2.feed chunk
      let atOnce := (FrameDecoder.new maxPayload).feed (chunks.flatten ++ chunk)
      (fed.1 ++ next.1, next.2.crcErrors) = (atOnce.1, atOnce.2.crcErrors) := by
  have hnew := new_buf_scan maxPayload
  have key : ∀ cs : List (List UInt8), FedAs maxPayload cs.flatten [] 0
      ((FrameDecoder.new maxPayload).feedAll cs) :=
    fun cs => feedAll_spec (FrameDecoder.new maxPayload) hnew cs
  refine ⟨?_, fun chunk => ?_⟩
  · obtain ⟨hf, hc, -, -⟩ := key chunks
    rw [leftmostScan_eq_scan, List.drop_zero, hf, hc]
    simp
  · obtain ⟨hf, hc, -, -⟩ := key (chunks ++ [chunk])
    obtain ⟨hf', hc', -, -⟩ := key [chunks.flatten ++ chunk]
    rw [feedAll_append] at hf hc
    simp only [FrameDecoder.feedAll, List.append_nil, List.flatten_append, List.flatten_cons,
      List.flatten_nil] at hf hc hf' hc'
    simp only [hf, hc, hf', hc']

end Rdd2
