import Newsroom.Proofs.EndMarks
import Newsroom.Stage.Screen

/-!
# The screen manager between two steps

What a step of the screen manager changes, for every verdict of its display.

## Main Definitions

* `Sink.NeverPanics`, `Sink.refusals` — what a display does with a number of lines
* `Sink.firstRefusal?`, `Sink.alarms` — the first refusal among a number of lines, and its report
* `Screen.Counting` — where the screen manager stands, by the marks it has counted
* `Screen.Truthful` — its counts and its last line, by the lines it has given to its
  display
* `Screen.Alarmed`, `Screen.Calm` — the line on which a display panicked, and that it was
  no article

## Main Statements

* `isSome_firstRefusal?` — there is a first refusal exactly if there is any
* `shown_fst` — the screen manager after a line was given to its display
* `alarms_shown` — of all refusals only the first is reported
* `took_item_fst`, `took_done_fst`, `close_fst` — the same after each of its steps
* `Counting.took`, `Counting.close` — it waits for exactly the marks that are missing
* `Truthful.took`, `Truthful.close` — the counts stay true, and nothing is given after
  the last line
* `Alarmed.took`, `Alarmed.close` — a panic is a verdict of the display on the line that it
  was given last
* `Truthful.calm_of_last` — nothing was missing when it panicked on the last line
-/

namespace Newsroom

/-- Whether a line is refused. -/
def Verdict.isRefusal : Verdict → Bool
  | .refuse _ => true
  | _ => false

/-- A display that may refuse lines but does not panic. -/
def Sink.NeverPanics (sink : Sink) : Prop :=
  ∀ k, sink k ≠ .panic

/-- How many of its first `n` lines a display refuses. -/
def Sink.refusals (sink : Sink) (n : Nat) : Nat :=
  (List.range n).countP fun k => (sink k).isRefusal

theorem Sink.refusals_succ (sink : Sink) (n : Nat) :
    Sink.refusals sink (n + 1) = Sink.refusals sink n + if (sink n).isRefusal then 1 else 0 := by
  simp [Sink.refusals, List.range_succ, List.countP_append, List.countP_cons]

/-! ### The first refusal -/

/-- Why a line is refused, if it is. -/
def Verdict.refusal? : Verdict → Option SystemFault
  | .refuse cause => some cause
  | _ => none

theorem Verdict.isSome_refusal? (v : Verdict) : v.refusal?.isSome = v.isRefusal := by
  cases v <;> rfl

/-- Why the first line is refused that is, of the first `n` lines. -/
def Sink.firstRefusal? (sink : Sink) (n : Nat) : Option SystemFault :=
  (List.range n).findSome? fun k => (sink k).refusal?

/-- What is reported of the first `n` lines. -/
def Sink.alarms (sink : Sink) (n : Nat) : List Event :=
  (Sink.firstRefusal? sink n).toList.map .displayFailed

theorem Sink.firstRefusal?_succ (sink : Sink) (n : Nat) :
    Sink.firstRefusal? sink (n + 1) = (Sink.firstRefusal? sink n).or (sink n).refusal? := by
  simp [Sink.firstRefusal?, List.range_succ, List.findSome?_append]

/-- There is a first refusal exactly if there is any. -/
theorem Sink.isSome_firstRefusal? (sink : Sink) (n : Nat) :
    (Sink.firstRefusal? sink n).isSome = decide (0 < Sink.refusals sink n) := by
  induction n with
  | zero => rfl
  | succ n ih =>
      rw [Sink.firstRefusal?_succ, Sink.refusals_succ, Option.isSome_or, ih,
        Verdict.isSome_refusal?]
      by_cases hbefore : 0 < Sink.refusals sink n <;> cases (sink n).isRefusal <;> simp [hbefore]

theorem Sink.alarms_succ (sink : Sink) (n : Nat) :
    Sink.alarms sink (n + 1) =
      Sink.alarms sink n ++
        if Sink.refusals sink n = 0 then (sink n).refusal?.toList.map .displayFailed else [] := by
  have hsome := Sink.isSome_firstRefusal? sink n
  rw [Sink.alarms, Sink.alarms, Sink.firstRefusal?_succ]
  cases hfirst : Sink.firstRefusal? sink n with
  | none =>
      have hzero : Sink.refusals sink n = 0 := by simpa [hfirst] using hsome
      simp [hzero]
  | some cause =>
      have hpos : Sink.refusals sink n ≠ 0 := by
        simpa [hfirst, Nat.pos_iff_ne_zero] using hsome
      simp [hpos]

namespace Screen

variable {α : Type}

/-- The screen manager waits for end marks exactly until it has them all. -/
def Counting (s : Screen α) : Prop :=
  match s.phase with
  | .waiting => s.report.sentinelsReceived < sentinelsExpected
  | .closing => s.report.sentinelsReceived = sentinelsExpected
  | .finished => s.report.sentinelsReceived = sentinelsExpected
  | .panicked => True

/-- A line is counted among those given, and where it is refused among the
failures. -/
theorem shown_fst (sink : Sink) (s : Screen α) (m : Message α) :
    (s.shown sink m).1 =
      { phase := if sink s.given.length = .panic then .panicked else s.phase
        report :=
          { s.report with
            writeErrors :=
              s.report.writeErrors + if (sink s.given.length).isRefusal then 1 else 0 }
        given := s.given ++ [m] } := by
  unfold shown
  cases hverdict : sink s.given.length <;> simp [Verdict.isRefusal]

theorem shown_snd (sink : Sink) (s : Screen α) (m : Message α) :
    (s.shown sink m).2 =
      if s.report.writeErrors = 0 then
        (sink s.given.length).refusal?.toList.map .displayFailed
      else [] := by
  unfold shown
  cases hverdict : sink s.given.length <;> simp [Verdict.refusal?]

/-- Of all refusals only the first is reported. -/
theorem alarms_shown {sink : Sink} {s : Screen α}
    (hcount : s.report.writeErrors = sink.refusals s.given.length) (m : Message α) :
    sink.alarms s.given.length ++ (s.shown sink m).2 = sink.alarms (s.given.length + 1) := by
  rw [shown_snd, hcount, Sink.alarms_succ]

theorem took_item_snd (sink : Sink) (s : Screen α) (body : α) :
    (s.took sink (.item body)).2 = (s.shown sink (.item body)).2 := by
  simp only [took]
  split <;> rfl

theorem close_snd (sink : Sink) (s : Screen α) (hphase : s.phase = .closing) :
    (s.close sink).2 =
      (s.shown sink .done).2 ++
        if sink s.given.length = .panic then [] else [.screenFinished s.report.displayed] := by
  simp only [close]
  rw [shown_fst, hphase]
  by_cases hpanic : sink s.given.length = .panic <;> simp [hpanic]

/-- A text is given to the display, and counted as displayed unless that panics. -/
theorem took_item_fst (sink : Sink) (s : Screen α) (hphase : s.phase = .waiting) (body : α) :
    (s.took sink (.item body)).1 =
      { phase := if sink s.given.length = .panic then .panicked else .waiting
        report :=
          { s.report with
            displayed := s.report.displayed + if sink s.given.length = .panic then 0 else 1
            writeErrors :=
              s.report.writeErrors + if (sink s.given.length).isRefusal then 1 else 0 }
        given := s.given ++ [.item body] } := by
  simp only [took]
  rw [shown_fst, hphase]
  by_cases hpanic : sink s.given.length = .panic <;> simp [hpanic]

/-- An end mark is counted, and after the last one nothing more is awaited. -/
theorem took_done_fst (sink : Sink) (s : Screen α) :
    (s.took sink .done).1 =
      { s with
        phase :=
          if s.report.sentinelsReceived + 1 < sentinelsExpected then .waiting else .closing
        report := { s.report with sentinelsReceived := s.report.sentinelsReceived + 1 } } := rfl

/-- The last line is given to the display, and the screen manager ends. -/
theorem close_fst (sink : Sink) (s : Screen α) (hphase : s.phase = .closing) :
    (s.close sink).1 =
      { phase := if sink s.given.length = .panic then .panicked else .finished
        report :=
          { s.report with
            writeErrors :=
              s.report.writeErrors + if (sink s.given.length).isRefusal then 1 else 0 }
        given := s.given ++ [.done] } := by
  simp only [close]
  rw [shown_fst, hphase]
  by_cases hpanic : sink s.given.length = .panic <;> simp [hpanic]

/-- A display that never panics keeps the screen manager at work. -/
theorem phase_took {sink : Sink} (hsink : sink.NeverPanics) {s : Screen α}
    (hphase : s.phase = .waiting) (m : Message α) : (s.took sink m).1.phase ≠ .panicked := by
  cases m with
  | item body => simp [took_item_fst sink s hphase, hsink _]
  | done =>
      rw [took_done_fst]
      dsimp only
      split <;> simp

theorem phase_close {sink : Sink} (hsink : sink.NeverPanics) {s : Screen α}
    (hphase : s.phase = .closing) : (s.close sink).1.phase = .finished := by
  simp [close_fst sink s hphase, hsink _]

/-! ### Marks -/

/-- A screen manager that waits goes on to wait until it has all marks. -/
theorem Counting.took {s : Screen α} (h : s.Counting) (hphase : s.phase = .waiting) (sink : Sink)
    (m : Message α) : (s.took sink m).1.Counting := by
  simp only [Counting, hphase] at h
  cases m with
  | item body =>
      rw [took_item_fst sink s hphase]
      by_cases hpanic : sink s.given.length = .panic
      · simp [Counting, hpanic]
      · simpa [Counting, hpanic] using h
  | done =>
      rw [took_done_fst]
      by_cases hmore : s.report.sentinelsReceived + 1 < sentinelsExpected
      · simp [Counting, hmore]
      · simp only [Counting, if_neg hmore]
        omega

theorem Counting.close {s : Screen α} (h : s.Counting) (hphase : s.phase = .closing) (sink : Sink) :
    (s.close sink).1.Counting := by
  simp only [Counting, hphase] at h
  rw [close_fst sink s hphase]
  by_cases hpanic : sink s.given.length = .panic
  · simp [Counting, hpanic]
  · simpa [Counting, hpanic] using h

/-! ### Counts -/

/-- The counts of a screen manager tell what it has given to its display, and its
last line is the last. -/
structure Truthful (sink : Sink) (s : Screen α) : Prop where
  displayed : s.phase ≠ .panicked → s.report.displayed = (s.given.filterMap Message.body?).length
  writeErrors : s.report.writeErrors = sink.refusals s.given.length
  lastLine : Link 1 (s.given.countP Message.isDone) 0 s.given
  finished : s.phase ≠ .panicked →
    s.given.countP Message.isDone = if s.phase = .finished then 1 else 0

theorem Truthful.start (sink : Sink) : Truthful sink ({} : Screen α) where
  displayed := fun _ => rfl
  writeErrors := rfl
  lastLine := Link.empty 1
  finished := fun _ => rfl

theorem Truthful.took {sink : Sink} {s : Screen α} (h : Truthful sink s)
    (hphase : s.phase = .waiting) (m : Message α) : Truthful sink (s.took sink m).1 := by
  have hnone : s.given.countP Message.isDone = 0 := by simpa [hphase] using h.finished
  have hdisplayed := h.displayed (by simp [hphase])
  have hlink := h.lastLine
  rw [hnone] at hlink
  cases m with
  | done =>
      -- nothing is given to the display until the last line
      rw [took_done_fst]
      refine { h with displayed := fun _ => hdisplayed, finished := fun _ => ?_ }
      dsimp only
      split <;> simp [hnone]
  | item body =>
      rw [took_item_fst sink s hphase]
      have hcount : (s.given ++ [Message.item body]).countP Message.isDone = 0 := by
        simp [List.countP_append, hnone]
      refine
        { displayed := fun hpanic => ?_
          writeErrors := ?_
          lastLine := ?_
          finished := fun hpanic => ?_ }
      · have hverdict : sink s.given.length ≠ .panic := by
          intro hverdict
          simp [hverdict] at hpanic
        simp [hverdict, hdisplayed]
      · simp [h.writeErrors, Sink.refusals_succ]
      · rw [hcount]
        exact hlink.insert_item (by decide) body
      · simp only [hcount]
        split at hpanic <;> simp_all

theorem Truthful.close {sink : Sink} {s : Screen α} (h : Truthful sink s)
    (hphase : s.phase = .closing) : Truthful sink (s.close sink).1 := by
  have hnone : s.given.countP Message.isDone = 0 := by simpa [hphase] using h.finished
  have hdisplayed := h.displayed (by simp [hphase])
  have hlink := h.lastLine
  rw [hnone] at hlink
  have hcount : (s.given ++ [Message.done]).countP Message.isDone = 1 := by
    simp [List.countP_append, hnone]
  rw [close_fst sink s hphase]
  refine
    { displayed := fun _ => by simp [hdisplayed]
      writeErrors := by simp [h.writeErrors, Sink.refusals_succ]
      lastLine := ?_
      finished := fun hpanic => ?_ }
  · rw [hcount]
    exact hlink.insert_done (by decide)
  · simp only [hcount]
    split at hpanic <;> simp_all

/-! ### Panics -/

/-- A screen manager that has panicked has given a line on which its display panics, and
the last line only when all end marks had arrived. -/
def Alarmed (sink : Sink) (s : Screen α) : Prop :=
  s.phase = .panicked → ∃ ms m, s.given = ms ++ [m] ∧ sink ms.length = .panic ∧
    (m = .done → s.report.sentinelsReceived = sentinelsExpected)

/-- No article has made the display panic: if it panicked, all end marks had arrived. -/
def Calm (s : Screen α) : Prop :=
  s.phase = .panicked → s.report.sentinelsReceived = sentinelsExpected

theorem phase_of_not_calm {s : Screen α} (h : ¬ s.Calm) : s.phase = .panicked :=
  Classical.byContradiction fun hawake => h fun hpanicked => absurd hpanicked hawake

theorem Alarmed.took {sink : Sink} {s : Screen α} (hphase : s.phase = .waiting) (m : Message α) :
    Alarmed sink (s.took sink m).1 := by
  intro hpanicked
  cases m with
  | done =>
      rw [took_done_fst] at hpanicked
      dsimp only at hpanicked
      split at hpanicked <;> cases hpanicked
  | item body =>
      rw [took_item_fst sink s hphase] at hpanicked ⊢
      by_cases hpanic : sink s.given.length = .panic
      · exact ⟨s.given, .item body, rfl, hpanic, fun h => by cases h⟩
      · simp [hpanic] at hpanicked

theorem Alarmed.close {sink : Sink} {s : Screen α} (hcounting : s.Counting)
    (hphase : s.phase = .closing) : Alarmed sink (s.close sink).1 := by
  intro hpanicked
  simp only [Counting, hphase] at hcounting
  rw [close_fst sink s hphase] at hpanicked ⊢
  by_cases hpanic : sink s.given.length = .panic
  · exact ⟨s.given, .done, rfl, hpanic, fun _ => hcounting⟩
  · simp [hpanic] at hpanicked

/-- Nothing was missing when it panicked on the last line. -/
theorem Truthful.calm_of_last {sink : Sink} {s : Screen α} (h : Truthful sink s)
    (halarmed : Alarmed sink s) (hlast : .done ∈ s.given) : s.Calm := by
  intro hpanicked
  obtain ⟨ms, m, hgiven, -, hreceived⟩ := halarmed hpanicked
  obtain ⟨before, after, hsplit⟩ := List.append_of_mem hlast
  -- nothing is given after the last line, which is therefore the one that was given last
  have hnone := h.lastLine.eq_nil_of_append hsplit
  rw [hgiven, hnone] at hsplit
  exact hreceived (List.cons.inj (List.append_inj' hsplit rfl).2).1

end Screen

end Newsroom
