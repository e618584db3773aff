import Rdd2.RescanLive
import Mathlib.Data.List.Forall2
import Mathlib.Data.List.Induction

/-!
# Streams of whole frames

What the readers of `Rescan` make of a stream that is nothing but whole
frames, one after the other. Both report the frames and are left with
nothing in progress (`scan_whole`, `liveRun_whole`), what is in progress at
the end of such a stream begins where no frame does
(`undecided_not_at_start`), and cutting it anywhere cuts at most one frame in
two (`Whole.cut`), so that the live reader has reported at any time exactly the
frames that are through (`liveRun_prefix`).
-/

namespace Rescan

variable {α φ ε : Type} (R : Recogniser α φ ε)

/-- `seg` is the frame `f`, no symbol less and none more. -/
def Whole (f : φ) (seg : List α) : Prop := R.judge seg = .accept f seg.length

variable {R}

theorem Whole.judge_append {f : φ} {seg : List α} (h : Whole R f seg) (v : List α) :
    R.judge (seg ++ v) = .accept f seg.length := by
  rw [← h]
  refine R.stable ?_ v
  rw [h]
  nofun

theorem scan_whole_append {fs : List φ} {segs : List (List α)} (h : List.Forall₂ (Whole R) fs segs)
    (v : List α) :
    scan R (segs.flatten ++ v) = Out.andThen ⟨fs, [], [], []⟩ (scan R v) := by
  induction h with
  | nil => exact (Out.silent_andThen [] _).symm
  | cons hseg _ ih =>
      rw [List.flatten_cons, List.append_assoc, scan_of_accept R (hseg.judge_append _),
        List.drop_left, ih, ← Out.andThen_assoc]
      rfl

theorem scan_whole {fs : List φ} {segs : List (List α)} (h : List.Forall₂ (Whole R) fs segs) :
    scan R segs.flatten = ⟨fs, [], [], []⟩ := by
  have happ := scan_whole_append h []
  rw [List.append_nil, scan_nil] at happ
  simpa [Out.andThen] using happ

theorem liveRun_whole {fs : List φ} {segs : List (List α)} (h : List.Forall₂ (Whole R) fs segs) :
    run (liveStep R) [] segs.flatten = ⟨fs, [], [], []⟩ := by
  induction h with
  | nil => rfl
  | cons hseg _ ih =>
      rw [List.flatten_cons, run_append, liveRun_frame R hseg, ih]
      rfl

theorem whole_undecided {fs : List φ} {segs : List (List α)} (h : List.Forall₂ (Whole R) fs segs)
    (hmore : R.judge segs.flatten = .more) : fs = [] ∧ segs = [] := by
  cases h with
  | nil => exact ⟨rfl, rfl⟩
  | cons hseg _ =>
      rw [List.flatten_cons, hseg.judge_append] at hmore
      cases hmore

/-- A candidate that is the end of whole frames does not begin where one of
them starts. -/
theorem undecided_not_at_start {fs : List φ} {segs : List (List α)}
    (h : List.Forall₂ (Whole R) fs segs) {used w : List α} (hused : used ++ w = segs.flatten)
    (hmore : R.judge w = .more) (hw : w ≠ []) (k : Nat) :
    used.length ≠ (segs.take k).flatten.length := by
  intro hk
  have hsplit : segs.flatten = (segs.take k).flatten ++ (segs.drop k).flatten := by
    rw [← List.flatten_append, List.take_append_drop]
  rw [hsplit] at hused
  have hrest := (List.append_inj hused hk).2
  rw [hrest] at hmore hw
  obtain ⟨-, hnil⟩ := whole_undecided (List.forall₂_drop k h) hmore
  rw [hnil] at hw
  exact hw rfl

theorem flatten_take_mono (segs : List (List α)) {k l : Nat} (h : k ≤ l) :
    (segs.take k).flatten.length ≤ (segs.take l).flatten.length := by
  obtain ⟨m, rfl⟩ := Nat.exists_eq_add_of_le h
  rw [List.take_add, List.flatten_append, List.length_append]
  omega

theorem getElem?_of_drop {bytes rest : List α} {a b : α} {p : Nat}
    (h : bytes.drop p = a :: b :: rest) : bytes[p]? = some a ∧ bytes[p + 1]? = some b := by
  refine ⟨?_, ?_⟩
  · have := congrArg (·[0]?) h
    simpa using this
  · have := congrArg (·[1]?) h
    simpa using this

/-- Wherever a stream of whole frames is cut, the first part is whole
frames and an undecided beginning of the next. -/
theorem Whole.cut {fs : List φ} {segs : List (List α)} (h : List.Forall₂ (Whole R) fs segs)
    {u v : List α} (huv : u ++ v = segs.flatten) :
    ∃ fs₁ fs₂ segs₁ segs₂ w, fs = fs₁ ++ fs₂ ∧ List.Forall₂ (Whole R) fs₁ segs₁ ∧
      List.Forall₂ (Whole R) fs₂ segs₂ ∧ u = segs₁.flatten ++ w ∧ w ++ v = segs₂.flatten ∧
      R.judge w = .more := by
  induction h generalizing u with
  | nil =>
      obtain ⟨rfl, rfl⟩ := List.append_eq_nil_iff.mp huv
      exact ⟨[], [], [], [], [], rfl, .nil, .nil, rfl, rfl, R.judge_nil⟩
  | @cons f seg fs segs hseg hsegs ih =>
      by_cases hlen : u.length < seg.length
      · refine ⟨[], f :: fs, [], seg :: segs, u, rfl, .nil, .cons hseg hsegs, rfl, huv, ?_⟩
        have htake : u = seg.take u.length := by
          have := congrArg (List.take u.length) huv
          rwa [List.take_left, List.flatten_cons,
            List.take_append_of_le_length (Nat.le_of_lt hlen)] at this
        rw [htake]
        exact judge_take_frame hseg (by simpa using hlen)
      · obtain ⟨u', rfl⟩ : ∃ u', u = seg ++ u' := by
          refine ⟨u.drop seg.length, ?_⟩
          have := congrArg (List.take seg.length) huv
          rw [List.flatten_cons, List.take_left,
            List.take_append_of_le_length (Nat.le_of_not_lt hlen)] at this
          conv_lhs => rw [← List.take_append_drop seg.length u, this]
        rw [List.append_assoc, List.flatten_cons, List.append_cancel_left_eq] at huv
        obtain ⟨fs₁, fs₂, segs₁, segs₂, w, rfl, h₁, h₂, rfl, hv, hw⟩ := ih huv
        exact ⟨f :: fs₁, fs₂, seg :: segs₁, segs₂, w, rfl, .cons hseg h₁, h₂, by simp, hv, hw⟩

theorem liveRun_undecided {w : List α} (h : R.judge w = .more) :
    run (liveStep R) [] w = .silent w := by
  induction w using List.reverseRecOn with
  | nil => rfl
  | append_singleton w b ih =>
      have hw : R.judge w = .more := by
        by_contra hne
        rw [R.stable hne [b]] at h
        exact hne h
      rw [run_append, ih hw, Out.silent_andThen, run_singleton]
      exact liveStep_of_more R h

/-- Of the beginning of a stream of whole frames the live reader has reported
exactly the frames that are in it whole. -/
theorem liveRun_prefix {fs : List φ} {segs : List (List α)} (h : List.Forall₂ (Whole R) fs segs)
    {u v : List α} (huv : u ++ v = segs.flatten) :
    ∃ k w, k ≤ fs.length ∧ run (liveStep R) [] u = ⟨fs.take k, [], w, []⟩ ∧
      (segs.take k).flatten.length ≤ u.length ∧
      ∀ l, k < l → l ≤ fs.length → u.length < (segs.take l).flatten.length := by
  induction h generalizing u with
  | nil =>
      obtain ⟨rfl, rfl⟩ := List.append_eq_nil_iff.mp huv
      exact ⟨0, [], Nat.le_refl _, rfl, Nat.le_refl _, fun l hl hle => absurd hl (Nat.not_lt.mpr hle)⟩
  | @cons f seg fs segs hseg hsegs ih =>
      rw [List.flatten_cons] at huv
      by_cases hlen : u.length < seg.length
      · have htake : u = seg.take u.length := by
          have htake := congrArg (List.take u.length) huv
          rwa [List.take_left, List.take_append_of_le_length (Nat.le_of_lt hlen)] at htake
        have hmore : R.judge u = .more := by
          rw [htake]
          exact judge_take_frame hseg hlen
        refine ⟨0, u, Nat.zero_le _, liveRun_undecided hmore, Nat.zero_le _, ?_⟩
        intro l hl _
        obtain ⟨l, rfl⟩ := Nat.exists_eq_add_of_lt hl
        rw [List.take_succ_cons, List.flatten_cons, List.length_append]
        omega
      · obtain ⟨u, rfl⟩ : ∃ u', u = seg ++ u' := by
          refine ⟨u.drop seg.length, ?_⟩
          have htake := congrArg (List.take seg.length) huv
          rw [List.take_append_of_le_length (Nat.le_of_not_lt hlen), List.take_left] at htake
          rw [← htake, List.length_take, Nat.min_eq_left (Nat.le_of_not_lt hlen),
            List.take_append_drop]
        rw [List.append_assoc, List.append_cancel_left_eq] at huv
        obtain ⟨k, w, hk, hrun, hle, hlater⟩ := ih huv
        refine ⟨k + 1, w, Nat.succ_le_succ hk, ?_, ?_, ?_⟩
        · rw [run_append, liveRun_frame R hseg, hrun]
          rfl
        · simpa using hle
        · intro l hl hlen
          obtain ⟨l, rfl⟩ : ∃ m, l = m + 1 := ⟨l - 1, by omega⟩
          have hlt := hlater l (Nat.lt_of_succ_lt_succ hl) (Nat.le_of_succ_le_succ hlen)
          simpa using hlt

end Rescan
