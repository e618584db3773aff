import Rdd2.RescanLive

/-!
# When the bounded rescan is the unlimited one

The live reader differs from the scan only in what its nested rescans
drop. A dropped stretch is `Forgettable` in front of what follows it if the
scan finds nothing in it and nothing that begins in it goes on behind it.
`Follows` relates the window of a reader to that of the scan while this is
so, and a run that drops forgettable stretches only (`LiveSafe`) reports
what the scan reports (`liveRun_agrees`).

Two ways to know that a run is safe: nothing can begin in any stretch it
dropped (`Harmless`), or the stream has the property wherever one failed
candidate lies inside another (`safe_of_candidates`).
-/

namespace Rescan

variable {α φ ε : Type} (R : Recogniser α φ ε)

/-- Reading `v` after `d` is reading `v` alone. -/
def Forgettable (d v : List α) : Prop :=
  ∃ r, scan R d = .silent r ∧ ∀ b ∈ v.head?, scan R (r ++ [b]) = scan R [b]

/-- A reader's window `w` and the scan's window `r` in front of `v`: equal,
or the reader has forgotten one that `v` does not go on with. -/
def Follows (v w r : List α) : Prop :=
  w = r ∨ (w = [] ∧ ∀ b ∈ v.head?, scan R (r ++ [b]) = scan R [b])

structure Agrees (v : List α) (o s : Out α φ ε) : Prop where
  frames_eq : o.frames = s.frames
  faults_eq : o.faults = s.faults
  rest : Follows R v o.rest s.rest

/-- Reading `b` inside a rescan, with `v` to come, drops nothing that
matters. -/
def NestedSafe (w : List α) (b : α) (v : List α) : Prop :=
  ∀ e k, R.judge (w ++ [b]) = .reject (some e) k → Forgettable R ((w ++ [b]).drop k) v

def RunSafe (step : List α → α → Out α φ ε) (safe : List α → α → List α → Prop) :
    List α → List α → List α → Prop
  | _, [], _ => True
  | w, b :: bs, v => safe w b (bs ++ v) ∧ RunSafe step safe (step w b).rest bs v

/-- Reading `b` from the line, with `v` to come, starts no rescan that
drops what matters. -/
def LiveSafe (w : List α) (b : α) (v : List α) : Prop :=
  ∀ e k, R.judge (w ++ [b]) = .reject (some e) k →
    RunSafe (nestedStep R) (NestedSafe R) [] ((w ++ [b]).drop k) v

/-! ## Step and run -/

variable {R}

theorem Agrees.refl (v : List α) (o : Out α φ ε) : Agrees R v o o := ⟨rfl, rfl, Or.inl rfl⟩

theorem Agrees.fault {v : List α} {o s : Out α φ ε} (h : Agrees R v o s) (e : Option ε) :
    Agrees R v (o.fault e) (s.fault e) :=
  ⟨h.frames_eq, by simp [h.faults_eq], h.rest⟩

theorem scan_accepted {w : List α} {f : φ} (h : R.judge w = .accept f w.length) :
    scan R w = ⟨[f], [], [], []⟩ := by
  rw [scan_of_accept R h, List.drop_length, scan_nil]
  rfl

theorem nestedStep_agrees {w : List α} {b : α} {v : List α} (hw : R.judge w = .more)
    (h : NestedSafe R w b v) : Agrees R v (nestedStep R w b) (scan R (w ++ [b])) := by
  unfold nestedStep
  split
  case h_1 hj =>
    rw [scan_of_more R hj]
    exact .refl v _
  case h_2 f n hj =>
    obtain rfl := accept_length hw hj
    rw [scan_accepted hj]
    exact .refl v _
  case h_3 k hj =>
    rw [scan_of_reject R hj, Out.fault_none]
    exact .refl v _
  case h_4 e k hj =>
    obtain ⟨r, hscan, hnext⟩ := h e k hj
    rw [scan_of_reject R hj, hscan]
    exact ⟨rfl, rfl, Or.inr ⟨rfl, hnext⟩⟩

/-- The induction of both readers: the step agrees with the scan from equal
windows, and after a forgotten window the next symbol makes them equal. -/
theorem run_agrees {step : List α → α → Out α φ ε} {safe : List α → α → List α → Prop}
    (hrest : ∀ w b, R.judge (step w b).rest = .more)
    (hstep : ∀ {w b v}, R.judge w = .more → safe w b v →
      Agrees R v (step w b) (scan R (w ++ [b])))
    {w r bs v : List α} (hw : R.judge w = .more) (hr : R.judge r = .more)
    (hfollows : Follows R (bs ++ v) w r) (hsafe : RunSafe step safe w bs v) :
    Agrees R v (run step w bs) (scan R (r ++ bs)) := by
  induction bs generalizing w r with
  | nil =>
      rw [List.append_nil, scan_of_more R hr]
      exact ⟨rfl, rfl, hfollows⟩
  | cons b bs ih =>
      obtain ⟨hb, hbs⟩ := hsafe
      have hone : Agrees R (bs ++ v) (step w b) (scan R (r ++ [b])) := by
        rcases hfollows with rfl | ⟨rfl, hnext⟩
        · exact hstep hw hb
        · rw [hnext b rfl]
          exact hstep hw hb
      have hrun := ih (hrest w b) (judge_scan_rest R (r ++ [b])) hone.rest hbs
      have hsplit : r ++ b :: bs = (r ++ [b]) ++ bs := by simp
      rw [hsplit, scan_append]
      exact ⟨by simp [run, hone.frames_eq, hrun.frames_eq],
        by simp [run, hone.faults_eq, hrun.faults_eq], hrun.rest⟩

theorem liveStep_agrees {w : List α} {b : α} {v : List α} (hw : R.judge w = .more)
    (h : LiveSafe R w b v) : Agrees R v (liveStep R w b) (scan R (w ++ [b])) := by
  unfold liveStep
  split
  case h_1 hj =>
    rw [scan_of_more R hj]
    exact .refl v _
  case h_2 f n hj =>
    obtain rfl := accept_length hw hj
    rw [scan_accepted hj]
    exact .refl v _
  case h_3 k hj =>
    rw [scan_of_reject R hj, Out.fault_none]
    exact .refl v _
  case h_4 e k hj =>
    rw [scan_of_reject R hj]
    exact (run_agrees (judge_nestedStep_rest R) nestedStep_agrees R.judge_nil R.judge_nil
      (Or.inl rfl) (h e k hj)).fault (some e)

theorem liveRun_agrees {bs : List α} (h : RunSafe (liveStep R) (LiveSafe R) [] bs []) :
    Agrees R [] (run (liveStep R) [] bs) (scan R bs) :=
  run_agrees (judge_liveStep_rest R) liveStep_agrees R.judge_nil R.judge_nil (Or.inl rfl) h

/-! ## Safe because nothing can begin in what was dropped -/

variable (R) in
/-- The scan finds nothing in any dropped stretch, to its end. -/
def Harmless (o : Out α φ ε) : Prop := ∀ d ∈ o.dropped, scan R d = .silent []

theorem Harmless.of_dropped_nil {o : Out α φ ε} (h : o.dropped = []) : Harmless R o := by
  intro d hd
  rw [h] at hd
  cases hd

theorem harmless_andThen {a b : Out α φ ε} :
    Harmless R (a.andThen b) ↔ Harmless R a ∧ Harmless R b := by
  simp only [Harmless, Out.andThen_dropped, List.mem_append]
  constructor
  · exact fun h => ⟨fun d hd => h d (Or.inl hd), fun d hd => h d (Or.inr hd)⟩
  · exact fun h d hd => hd.elim (h.1 d) (h.2 d)

theorem Harmless.runSafe {step : List α → α → Out α φ ε} {safe : List α → α → List α → Prop}
    (hstep : ∀ {w b}, Harmless R (step w b) → ∀ v, safe w b v) {w bs : List α}
    (h : Harmless R (run step w bs)) (v : List α) : RunSafe step safe w bs v := by
  induction bs generalizing w with
  | nil => trivial
  | cons b bs ih =>
      obtain ⟨hb, hbs⟩ := harmless_andThen.mp h
      exact ⟨hstep hb _, ih hbs⟩

theorem Harmless.nestedSafe {w : List α} {b : α} (h : Harmless R (nestedStep R w b))
    (v : List α) : NestedSafe R w b v := by
  intro e k hj
  refine ⟨[], h _ ?_, fun _ _ => rfl⟩
  simp [nestedStep, hj]

theorem Harmless.liveSafe {w : List α} {b : α} (h : Harmless R (liveStep R w b))
    (v : List α) : LiveSafe R w b v := by
  intro e k hj
  refine Harmless.runSafe Harmless.nestedSafe ?_ v
  simpa [liveStep, hj, Harmless] using h

/-- A run that dropped nothing in which a frame could begin is safe. -/
theorem safe_of_harmless {bs : List α} (h : Harmless R (run (liveStep R) [] bs)) :
    RunSafe (liveStep R) (LiveSafe R) [] bs [] :=
  Harmless.runSafe Harmless.liveSafe h []

/-! ## Safe because of the stream -/

variable (R) in
/-- Wherever in `s` a candidate that fails (`w ++ [b]`) contains behind its
head another one that fails (`y ++ [c]`), that one is forgettable. -/
def NestingHarmless (s : List α) : Prop :=
  ∀ {pre w v g y h : List α} {b c : α} {e e' : ε} {k k' : Nat},
    s = pre ++ (w ++ [b]) ++ v → R.judge w = .more →
    R.judge (w ++ [b]) = .reject (some e) k →
    (w ++ [b]).drop k = g ++ (y ++ [c]) ++ h → R.judge y = .more →
    R.judge (y ++ [c]) = .reject (some e') k' → Forgettable R ((y ++ [c]).drop k') (h ++ v)

theorem runSafe_of_placed {step : List α → α → Out α φ ε}
    {safe : List α → α → List α → Prop}
    (hrest : ∀ w b, R.judge (step w b).rest = .more)
    (hplaced : ∀ {fs read w}, Placed R fs read w → R.judge w = .more → ∀ b,
      Placed R (fs ++ (step w b).frames) (read ++ [b]) (step w b).rest)
    {s v : List α}
    (hsafe : ∀ {used w b bs}, s = used ++ w ++ b :: bs → R.judge w = .more → safe w b (bs ++ v))
    {fs : List φ} {read w bs : List α} (hs : s = read ++ bs) (hp : Placed R fs read w)
    (hw : R.judge w = .more) : RunSafe step safe w bs v := by
  induction bs generalizing fs read w with
  | nil => trivial
  | cons b bs ih =>
      obtain ⟨used, -, hread⟩ := id hp
      refine ⟨hsafe (by rw [hs, hread]) hw, ?_⟩
      exact ih (by rw [hs]; simp) (hplaced hp hw b) (hrest w b)

theorem safe_of_candidates {s : List α} (h : NestingHarmless R s) :
    RunSafe (liveStep R) (LiveSafe R) [] s [] := by
  have hstart : Placed R ([] : List φ) [] ([] : List α) := ⟨[], .gap _, rfl⟩
  refine runSafe_of_placed (judge_liveStep_rest R) (liveStep_placed R) ?_ rfl hstart R.judge_nil
  intro pre w b v hs hw e k hj
  rw [List.append_nil]
  refine runSafe_of_placed (s := (w ++ [b]).drop k) (judge_nestedStep_rest R)
    (nestedStep_placed R) ?_ rfl hstart R.judge_nil
  intro g y c t hd hy e' k' hj'
  have hs' : s = pre ++ (w ++ [b]) ++ v := by simpa using hs
  have hd' : (w ++ [b]).drop k = g ++ (y ++ [c]) ++ t := by simpa using hd
  exact h hs' hw hj hd' hy hj'

end Rescan
