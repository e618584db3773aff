import Mathlib.Data.Set.Defs
import Rdd2.UbxRx

/-!
# Oversize frames and the position fix

A frame longer than the reader's buffer is given up at its header, and the
reader hunts for the next sync word in the bytes that follow: the payload and
the checksum of a frame it has counted as skipped. Those bytes are data. They
may hold a NAV-PVT frame of their own, which is then published, or end in the
middle of a candidate, which then swallows the beginning of the next frame.

`Inert` says of a stretch of bytes that neither happens. It is all an
oversize frame has to meet for every stream it occurs in to be read right, and
every stream with a frame that does not meet it can be continued to one that
is not (`published_iff_inert`).
-/

namespace Rdd2.Ubx

open Rescan

def navPvts (fs : List Frame) : List (List UInt8) := (fs.filter (·.IsNavPvt)).map (·.payload)

theorem navPvts_append (fs gs : List Frame) : navPvts (fs ++ gs) = navPvts fs ++ navPvts gs := by
  simp [navPvts]

theorem navPvts_eq_nil {fs : List Frame} : navPvts fs = [] ↔ ∀ f ∈ fs, ¬ f.IsNavPvt := by
  simp [navPvts]

/-- The calls of `publish_nav_pvt` while a stretch of bytes is read. -/
def calls (cfg : Config) (bytes : List UInt8) : List (List UInt8) :=
  (feed cfg (rxInit cfg) bytes).link.published

theorem calls_eq_scan (cfg : Config) (bytes : List UInt8) :
    calls cfg bytes = navPvts (scan (recogniser cfg.maxPayload) bytes).frames := by
  obtain ⟨-, -, hlink⟩ := feed_refines cfg (rxInit_pending cfg) bytes
  have hwindow : (rxInit cfg).window = [] := rfl
  rw [calls, hlink, Link.published_after, hwindow, List.nil_append]
  rfl

def stream (fs : List Frame) : List UInt8 := (fs.map Frame.wire).flatten

/-- Bytes in which the reader finds no position fix and which it is through
with when the next frame begins: bytes to skip, headers too long, candidates
with a wrong checksum and frames of another kind, with at most half a sync
word at the end. -/
inductive Inert (maxPayload : Nat) : List UInt8 → Prop where
  | nil : Inert maxPayload []
  | sync : Inert maxPayload [syncChar1]
  | rejected {w : List UInt8} {e : Option Fault} {k : Nat}
      (h : Reading maxPayload w (.reject e k)) (rest : Inert maxPayload (w.drop k)) :
      Inert maxPayload w
  | frame (f : Frame) {v : List UInt8} (hmax : f.payload.length ≤ maxPayload)
      (hf : ¬ f.IsNavPvt) (rest : Inert maxPayload v) : Inert maxPayload (f.wire ++ v)

section Scan

variable {maxPayload : Nat}

/-- Half a sync word or nothing. -/
def Idle (w : List UInt8) : Prop := w = [] ∨ w = [syncChar1]

/-- An inert stretch is scanned to the end without a fix. -/
theorem Inert.scan {w : List UInt8} (h : Inert maxPayload w) :
    navPvts (scan (recogniser maxPayload) w).frames = [] ∧
    Idle (scan (recogniser maxPayload) w).rest := by
  induction h with
  | nil =>
      rw [scan_nil]
      exact ⟨rfl, Or.inl rfl⟩
  | sync =>
      have hj : (recogniser maxPayload).judge [syncChar1] = .more := by
        simp [recogniser, judge]
      rw [scan_of_more _ hj]
      exact ⟨rfl, Or.inr rfl⟩
  | rejected h rest ih =>
      rw [scan_of_reject _ h.judge_eq]
      exact ih
  | frame f hmax hf rest ih =>
      rw [scan_of_accept _ (judge_wire hmax _), List.drop_left]
      refine ⟨?_, ih.2⟩
      rw [Out.andThen_frames, navPvts_append, ih.1]
      simp [navPvts, hf]

/-- And only an inert one is. -/
theorem inert_of_scan {w : List UInt8}
    (hfix : navPvts (scan (recogniser maxPayload) w).frames = [])
    (hrest : Idle (scan (recogniser maxPayload) w).rest) : Inert maxPayload w := by
  induction w using scan_induction (recogniser maxPayload) with
  | more w h =>
      rw [scan_of_more _ h] at hrest
      rcases hrest with rfl | rfl
      · exact .nil
      · exact .sync
  | accept w f n h ih =>
      obtain ⟨hmax, rfl, v, rfl⟩ := judge_accept h
      rw [scan_of_accept _ h] at hfix hrest
      rw [List.drop_left] at hfix hrest ih
      rw [Out.andThen_frames, navPvts_append, List.append_eq_nil_iff] at hfix
      have hf : ¬ f.IsNavPvt := navPvts_eq_nil.mp hfix.1 f (List.mem_singleton.mpr rfl)
      exact .frame f hmax hf (ih hfix.2 hrest)
  | reject w e k h ih =>
      rw [scan_of_reject _ h] at hfix hrest
      exact .rejected (reading_of h nofun) (ih hfix hrest)

/-! ## Streams whose oversize frames are inert -/

/-- Half a sync word before a frame is skipped. -/
theorem scan_idle_wire {p : List UInt8} (hp : Idle p) (f : Frame) (v : List UInt8) :
    scan (recogniser maxPayload) (p ++ (f.wire ++ v))
      = scan (recogniser maxPayload) (f.wire ++ v) := by
  rcases hp with rfl | rfl
  · rfl
  · obtain ⟨l0, l1, -, -, hwire⟩ := f.wire_candidate
    have hne : syncChar1 ≠ syncChar2 := by decide
    have hread : Reading maxPayload (syncChar1 :: (f.wire ++ v)) (.reject none 1) := by
      rw [hwire]
      exact .unpaired syncChar1 _ hne
    have hj : (recogniser maxPayload).judge (syncChar1 :: (f.wire ++ v)) = .reject none 1 :=
      hread.judge_eq
    rw [List.singleton_append, scan_of_reject _ hj, Out.fault_none]
    rfl

/-- A frame too long for the reader is scanned from behind its header on. -/
theorem scan_oversize {f : Frame} (hbig : maxPayload < f.payload.length) (v : List UInt8) :
    scan (recogniser maxPayload) (f.wire ++ v)
      = (scan (recogniser maxPayload) (f.tail ++ v)).fault (some .oversize) := by
  obtain ⟨l0, l1, hlen, -, hwire⟩ := f.wire_candidate
  have hj : (recogniser maxPayload).judge (f.wire ++ v)
      = .reject (some .oversize) headerSize := by
    rw [hwire]
    exact (Reading.oversize f.cls f.id l0 l1 (f.tail ++ v) (hlen ▸ hbig)).judge_eq
  rw [scan_of_reject _ hj, hwire]
  rfl

theorem not_isNavPvt_of_oversize {f : Frame} (hmax : navPvtSize ≤ maxPayload)
    (hbig : maxPayload < f.payload.length) : ¬ f.IsNavPvt := by
  rintro ⟨-, -, hlen⟩
  omega

/-- The fixes of a stream whose oversize frames are inert are those of its
NAV-PVT frames, whatever half a sync word stands before it. -/
theorem scan_stream (hmax : navPvtSize ≤ maxPayload) {fs : List Frame}
    (h : ∀ f ∈ fs, maxPayload < f.payload.length → Inert maxPayload f.tail) :
    ∀ {p : List UInt8}, Idle p →
      navPvts (scan (recogniser maxPayload) (p ++ stream fs)).frames = navPvts fs := by
  induction fs with
  | nil =>
      intro p hp
      have hsilent : scan (recogniser maxPayload) (p ++ stream []) = .silent p := by
        have hj : (recogniser maxPayload).judge p = .more := by
          rcases hp with rfl | rfl <;> simp [recogniser, judge]
        rw [stream, List.map_nil, List.flatten_nil, List.append_nil]
        exact scan_of_more _ hj
      rw [hsilent]
      rfl
  | cons f fs ih =>
      intro p hp
      have ih := @ih fun g hg => h g (List.mem_cons_of_mem f hg)
      have hcons : stream (f :: fs) = f.wire ++ stream fs := rfl
      have hsplit : navPvts (f :: fs) = navPvts [f] ++ navPvts fs :=
        navPvts_append [f] fs
      rw [hcons, scan_idle_wire hp, hsplit]
      by_cases hbig : maxPayload < f.payload.length
      · obtain ⟨hfix, hrest⟩ := (h f (List.mem_cons_self ..) hbig).scan
        have hf := not_isNavPvt_of_oversize hmax hbig
        rw [scan_oversize hbig, scan_append, Out.fault_frames, Out.andThen_frames,
          navPvts_append, hfix, ih hrest]
        simp [navPvts, hf]
      · rw [scan_of_accept _ (judge_wire (Nat.le_of_not_lt hbig) _), List.drop_left,
          Out.andThen_frames, navPvts_append, ← ih (Or.inl rfl)]
        rfl

/-! ## Oversize frames that are not -/

theorem scan_no_sync {v : List UInt8} (h : syncChar1 ∉ v) :
    (scan (recogniser maxPayload) v).frames = [] := by
  induction v with
  | nil =>
      rw [scan_nil]
      rfl
  | cons a v ih =>
      obtain ⟨ha, hv⟩ := not_or.mp (mt List.mem_cons.mpr h)
      have hj : (recogniser maxPayload).judge (a :: v) = .reject none 1 :=
        (Reading.skip a v (Ne.symm ha)).judge_eq
      rw [scan_of_reject _ hj]
      exact ih hv

/-- A fix of nothing but zeros: its only sync byte is its first. -/
def stillFix : Frame where
  cls := classIdNav
  id := navPvtId
  payload := List.replicate navPvtSize 0
  length_lt := by decide

theorem stillFix_wire : ∃ rest, stillFix.wire = syncChar1 :: rest ∧ syncChar1 ∉ rest :=
  ⟨stillFix.wire.tail, rfl, by decide +kernel⟩

theorem stillFix_isNavPvt : stillFix.IsNavPvt := ⟨rfl, rfl, List.length_replicate⟩

theorem Frame.IsNavPvt.ext {f g : Frame} (hf : f.IsNavPvt) (hg : g.IsNavPvt)
    (h : f.payload = g.payload) : f = g := by
  cases f
  cases g
  obtain ⟨rfl, rfl, -⟩ := hf
  obtain ⟨rfl, rfl, -⟩ := hg
  subst h
  rfl

theorem undecided_cases {w : List UInt8} (hmore : judge maxPayload w = .more) :
    Idle w ∨ ∃ body, w = syncChar1 :: syncChar2 :: body := by
  match w with
  | [] => exact Or.inl (Or.inl rfl)
  | [a] =>
      by_cases ha : a = syncChar1
      · exact Or.inl (Or.inr (congrArg (fun a => [a]) ha))
      · simp [judge, ha] at hmore
  | a :: b :: body =>
      by_cases hsync : a = syncChar1 ∧ b = syncChar2
      · exact Or.inr ⟨body, by rw [hsync.1, hsync.2]⟩
      · simp [judge, hsync] at hmore

theorem judge_sync_reject {body : List UInt8} {k : Nat} :
    judge maxPayload (syncChar1 :: syncChar2 :: body) ≠ .reject none k := by
  intro h
  cases reading_of h nofun with
  | skip a v ha => exact ha rfl
  | unpaired b v hb => exact hb rfl

/-- What an undecided candidate turns into reaches beyond it. -/
theorem undecided_short {w u : List UInt8} (hmore : judge maxPayload w = .more) {k : Nat}
    (h : judge maxPayload ((w ++ u).take k) ≠ .more) : w.length < k := by
  by_contra hk
  rw [List.take_append_of_le_length (Nat.le_of_not_lt hk)] at h
  have hw := (recogniser maxPayload).stable h (w.drop k)
  rw [List.take_append_drop] at hw
  exact h (hw.symm.trans hmore)

/-- A candidate that was given up is given up by its own bytes. -/
theorem judge_reject_take {w : List UInt8} {e : Fault} {k : Nat}
    (h : judge maxPayload w = .reject (some e) k) :
    judge maxPayload (w.take k) = .reject (some e) k := by
  cases reading_of h nofun with
  | oversize cls id l0 l1 v hbig => exact (Reading.oversize cls id l0 l1 [] hbig).judge_eq
  | corrupt cls id l0 l1 payload ckA ckB v hlen hmax hsum =>
      have happ : candidate cls id l0 l1 (payload ++ ckA :: ckB :: v)
          = candidate cls id l0 l1 (payload ++ ckA :: ckB :: []) ++ v := by
        simp [candidate]
      rw [happ, List.take_left' (by simp [candidate, headerSize, checksumSize]; omega)]
      exact (Reading.corrupt cls id l0 l1 payload ckA ckB [] hlen hmax hsum).judge_eq

/-- A candidate with a whole sync word swallows the sync byte of the fix behind
it, and the fix is lost. -/
theorem stillFix_swallowed {w : List UInt8} (hmore : judge maxPayload w = .more)
    (hidle : ¬ Idle w) :
    navPvts (scan (recogniser maxPayload) (w ++ stillFix.wire)).frames
      ≠ [stillFix.payload] := by
  obtain ⟨rest, hwire, hrest⟩ := stillFix_wire
  -- behind the candidate nothing of the fix can start a frame
  have hlost : ∀ {k : Nat}, w.length < k →
      (scan (recogniser maxPayload) ((w ++ stillFix.wire).drop k)).frames = [] := by
    intro k hk
    obtain ⟨j, rfl⟩ : ∃ j, k = w.length + (j + 1) := ⟨k - w.length - 1, by omega⟩
    rw [List.drop_length_add_append, hwire, List.drop_succ_cons]
    exact scan_no_sync fun hmem => hrest (List.mem_of_mem_drop hmem)
  cases hj : judge maxPayload (w ++ stillFix.wire) with
  | more =>
      rw [scan_of_more (recogniser maxPayload) hj]
      simp [navPvts]
  | accept f n =>
      have htake : judge maxPayload ((w ++ stillFix.wire).take n) = .accept f n :=
        (recogniser maxPayload).accept_take hj
      have hlong : w.length < n := undecided_short hmore (by rw [htake]; nofun)
      obtain ⟨-, rfl, v, hv⟩ := judge_accept hj
      rw [scan_of_accept (recogniser maxPayload) hj, Out.andThen_frames, hlost hlong]
      intro hfix
      by_cases hf : f.IsNavPvt
      · simp only [navPvts, hf, List.append_nil, decide_true, List.filter_cons_of_pos,
          List.filter_nil, List.map_cons, List.map_nil, List.cons.injEq, and_true] at hfix
        obtain rfl := hf.ext stillFix_isNavPvt hfix
        -- the accepted frame is the fix again, one copy shifted against the other
        rw [hwire] at hv hlong
        match w, hidle with
        | [], hidle => exact hidle (Or.inl rfl)
        | a :: w, _ =>
            obtain ⟨-, hv⟩ := List.cons.inj hv
            rcases List.append_eq_append_iff.mp hv with ⟨c, hc, hcv⟩ | ⟨c, hc, -⟩
            · cases c with
              | nil =>
                  rw [hc] at hlong
                  simp only [List.append_nil, List.length_cons, lt_self_iff_false] at hlong
              | cons b c =>
                  obtain ⟨rfl, -⟩ := List.cons.inj hcv
                  exact hrest (hc ▸ by simp)
            · rw [hc] at hlong
              simp only [List.length_cons, List.length_append] at hlong
              omega
      · simp [navPvts, hf] at hfix
  | reject e k =>
      rcases undecided_cases hmore with hw | ⟨body, rfl⟩
      · exact absurd hw hidle
      · cases e with
        | none => exact absurd hj judge_sync_reject
        | some e =>
            have hlong := undecided_short hmore (by rw [judge_reject_take hj]; nofun)
            have hgiven : (recogniser maxPayload).judge
                (syncChar1 :: syncChar2 :: body ++ stillFix.wire) = .reject (some e) k := hj
            rw [scan_of_reject _ hgiven, Out.fault_frames, hlost hlong]
            simp [navPvts]

end Scan

/-! ## The condition -/

/-- Oversize frames that occur in no stream that is misread are inert: a stream
of the frame alone, and one of the frame and a fix, tell. -/
theorem inert_of_calls (cfg : Config) {f : Frame} (hbig : cfg.maxPayload < f.payload.length)
    (halone : calls cfg (stream [f]) = navPvts [f])
    (hfix : calls cfg (stream [f, stillFix]) = navPvts [f, stillFix]) :
    Inert cfg.maxPayload f.tail := by
  have hf := not_isNavPvt_of_oversize cfg.maxPayload_ge hbig
  have hone : stream [f] = f.wire ++ [] := by simp [stream]
  have htwo : stream [f, stillFix] = f.wire ++ stillFix.wire := by simp [stream]
  have hnone : navPvts [f] = [] := by simp [navPvts, hf]
  have hstill : navPvts [f, stillFix] = [stillFix.payload] := by
    simp [navPvts, hf, stillFix_isNavPvt]
  rw [calls_eq_scan, hone, scan_oversize hbig, List.append_nil, Out.fault_frames, hnone]
    at halone
  refine inert_of_scan halone ?_
  by_contra hidle
  have hmore := judge_scan_rest (recogniser cfg.maxPayload) f.tail
  rw [calls_eq_scan, htwo, scan_oversize hbig, scan_append, Out.fault_frames,
    Out.andThen_frames, navPvts_append, halone, hstill] at hfix
  exact stillFix_swallowed hmore hidle hfix

/-- Whatever oversize frames the receiver may send: every stream of valid
frames gives the position fixes of its NAV-PVT frames, and no others, if and
only if what follows the header of each of those oversize frames is inert. -/
theorem published_iff_inert (cfg : Config) (sent : Set Frame) :
    (∀ fs : List Frame, (∀ f ∈ fs, cfg.maxPayload < f.payload.length → f ∈ sent) →
      calls cfg (stream fs) = navPvts fs) ↔
    ∀ f ∈ sent, cfg.maxPayload < f.payload.length → Inert cfg.maxPayload f.tail := by
  constructor
  · intro h f hf hbig
    have hmem : ∀ g ∈ [f], cfg.maxPayload < g.payload.length → g ∈ sent := by
      intro g hg _
      rwa [List.mem_singleton.mp hg]
    refine inert_of_calls cfg hbig (h _ hmem) (h _ ?_)
    intro g hg hlong
    rcases List.mem_cons.mp hg with rfl | hg
    · exact hf
    · rw [List.mem_singleton.mp hg] at hlong
      exact absurd hlong (Nat.not_lt.mpr cfg.maxPayload_ge)
  · intro h fs hfs
    have hinert : ∀ f ∈ fs, cfg.maxPayload < f.payload.length → Inert cfg.maxPayload f.tail :=
      fun f hf hbig => h f (hfs f hf hbig) hbig
    rw [calls_eq_scan]
    exact scan_stream cfg.maxPayload_ge hinert (Or.inl rfl)

/-- A frame of 129 bytes, one more than the default limit, whose payload
begins with a position fix. -/
def carrier : Frame where
  cls := 0x02
  id := 0x15
  payload := stillFix.wire ++ List.replicate 29 0
  length_lt := by decide +kernel

/-- The frame is counted as skipped and its payload published as a fix. -/
theorem carried_fix_published :
    ¬ ∀ fs : List Frame, calls .standard (stream fs) = navPvts fs := by
  intro h
  have hcalls : calls .standard (stream [carrier]) = [stillFix.payload] := by decide +kernel
  have hnone : navPvts [carrier] = [] := by decide +kernel
  have hread := h [carrier]
  rw [hcalls, hnone] at hread
  cases hread

end Rdd2.Ubx
