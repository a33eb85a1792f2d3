import Newsroom.Proofs.Bench.Moves
import Newsroom.Proofs.Launch.Step

/-!
# A screen manager alone with its input

A screen manager on the bench, whose queue was filled before, and a display that may refuse any
line and panic on any.

## Main Definitions

* `Bench.displaying` — the screen manager on the bench
* `Bench.Settles` — where it comes to stand when it takes all the steps that it can
* `Screen.after` — the screen manager after some messages, while its display does not panic
* `Bench.Attending` — the bench after some messages
* `Bench.Shown`, `Bench.Broken`, `Bench.Starved` — the three ways in which it can end

## Main Statements

* `Attending.take`, `Attending.takes` — one message is taken, and then any number of them
* `Attending.close`, `Attending.breaks` — the last line, and a line on which the display panics
* `shows_to_third_mark` — how the screen manager ends, for every input and every display

## Design Notes

Calls of the display are counted by the texts that were taken, since nothing else is shown before
the last line.  Which call it is that panics is therefore known from the messages alone.
-/

namespace Newsroom

variable {ρ α : Type}

/-- The screen manager after some messages, while its display does not panic. -/
def Screen.after (sink : Sink) (taken : List (Message α)) : Screen α where
  phase := if taken.countP Message.isDone < sentinelsExpected then .waiting else .closing
  report :=
    { displayed := (taken.filterMap Message.body?).length
      sentinelsReceived := taken.countP Message.isDone
      writeErrors := sink.refusals (taken.filterMap Message.body?).length }
  given := (taken.filterMap Message.body?).map .item

theorem Screen.phase_after {sink : Sink} {taken : List (Message α)}
    (hmore : taken.countP Message.isDone < sentinelsExpected) :
    (after sink taken).phase = .waiting :=
  if_pos hmore

theorem Screen.length_given_after (sink : Sink) (taken : List (Message α)) :
    (after sink taken).given.length = (taken.filterMap Message.body?).length :=
  List.length_map _

/-- A message more, on which the display does not panic. -/
theorem Screen.took_after {sink : Sink} {taken : List (Message α)} {m : Message α}
    (hmore : taken.countP Message.isDone < sentinelsExpected)
    (hquiet : ∀ body, m = .item body → sink (taken.filterMap Message.body?).length ≠ .panic) :
    ((after sink taken).took sink m).1 = after sink (taken ++ [m]) := by
  cases m with
  | done =>
      rw [took_done_fst]
      by_cases hlast : taken.countP Message.isDone + 1 < sentinelsExpected <;>
        simp [after, List.countP_append, List.filterMap_append, List.filterMap_cons, hlast]
  | item body =>
      have hverdict : sink (after sink taken).given.length ≠ .panic := by
        rw [length_given_after]
        exact hquiet body rfl
      rw [took_item_fst sink _ (phase_after hmore), if_neg hverdict, if_neg hverdict,
        length_given_after]
      simp [after, List.countP_append, List.filterMap_append, hmore, Sink.refusals_succ]

/-- The report on a line more. -/
theorem Screen.alarms_shown_after (sink : Sink) (taken : List (Message α)) (m : Message α) :
    sink.alarms (taken.filterMap Message.body?).length ++ ((after sink taken).shown sink m).2 =
      sink.alarms ((taken.filterMap Message.body?).length + 1) := by
  have hcount : (after sink taken).report.writeErrors =
      sink.refusals (after sink taken).given.length := by
    rw [length_given_after]
    rfl
  have halarms := alarms_shown hcount m
  rwa [length_given_after] at halarms

/-- The reports on a message more. -/
theorem Screen.alarms_after (sink : Sink) (taken : List (Message α)) (m : Message α) :
    sink.alarms (taken.filterMap Message.body?).length ++ ((after sink taken).took sink m).2 =
      sink.alarms ((taken ++ [m]).filterMap Message.body?).length := by
  cases m with
  | done => simp [took, List.filterMap_append, List.filterMap_cons]
  | item body =>
      rw [took_item_snd, alarms_shown_after]
      simp [List.filterMap_append]

theorem Screen.phase_after_all {sink : Sink} {taken : List (Message α)}
    (hall : taken.countP Message.isDone = sentinelsExpected) :
    (after sink taken).phase = .closing := by
  rw [after, hall]
  rfl

/-- The last line. -/
theorem Screen.close_after (sink : Sink) {taken : List (Message α)}
    (hall : taken.countP Message.isDone = sentinelsExpected) :
    ((after sink taken).close sink).1 =
      { phase :=
          if sink (taken.filterMap Message.body?).length = .panic then .panicked else .finished
        report :=
          { displayed := (taken.filterMap Message.body?).length
            sentinelsReceived := 3
            writeErrors := sink.refusals ((taken.filterMap Message.body?).length + 1) }
        given := (taken.filterMap Message.body?).map .item ++ [.done] } := by
  rw [close_fst sink _ (phase_after_all hall), length_given_after, Sink.refusals_succ]
  simp only [after, hall]
  rfl

/-- The reports on the last line. -/
theorem Screen.alarms_close (sink : Sink) {taken : List (Message α)}
    (hall : taken.countP Message.isDone = sentinelsExpected) :
    sink.alarms (taken.filterMap Message.body?).length ++ ((after sink taken).close sink).2 =
      sink.alarms ((taken.filterMap Message.body?).length + 1) ++
        if sink (taken.filterMap Message.body?).length = .panic then []
        else [.screenFinished (taken.filterMap Message.body?).length] := by
  rw [close_snd sink _ (phase_after_all hall), ← List.append_assoc, alarms_shown_after,
    length_given_after]
  rfl

namespace Bench

/-- Where the screen manager comes to stand when it takes all the steps that it can. -/
def Settles [CategorySource ρ] [Payload α] (sink : Sink) (b b' : Bench ρ α) : Prop :=
  ∃ n, Schedule.run? (step? sink) b (List.replicate n (.act .screen)) = some b' ∧
    step? sink b' (.act .screen) = none

/-- The bench after some messages, on none of which the display has panicked. -/
structure Attending (sink : Sink) (b : Bench ρ α) (taken rest : List (Message α)) : Prop where
  screen : b.floor.screen = .after sink taken
  events : b.floor.events = sink.alarms (taken.filterMap Message.body?).length
  queue : b.floor.screenQueue.items = rest

/-- All texts were shown, and the last line. -/
structure Shown [Payload α] (sink : Sink) (texts : List α) (rest : List (Message α))
    (b : Bench ρ α) : Prop where
  given : b.floor.screen.given = texts.map .item ++ [.done]
  lines : b.floor.screen.given.map Message.text = texts.map Payload.text ++ ["DONE"]
  left : b.floor.screenQueue.items = rest
  report : b.floor.screen.report =
    { displayed := texts.length
      sentinelsReceived := 3
      writeErrors := sink.refusals (texts.length + 1) }
  events : b.floor.events = sink.alarms (texts.length + 1) ++ [.screenFinished texts.length]
  alarm : (sink.firstRefusal? (texts.length + 1)).isSome =
    decide (0 < b.floor.screen.report.writeErrors)
  joined : Launch.join? b.floor .screen = some ⟨.ok (), []⟩

variable [CategorySource ρ] [Payload α] {sink : Sink} {b b' b'' : Bench ρ α}
  {taken rest : List (Message α)} {m : Message α}

/-- A screen manager that can do nothing has settled. -/
theorem settles_of_none (h : step? sink b (.act .screen) = none) : Settles sink b b :=
  ⟨0, rfl, h⟩

theorem Settles.of_run {n : Nat}
    (hrun : Schedule.run? (step? sink) b (List.replicate n (.act .screen)) = some b')
    (h : Settles sink b' b'') : Settles sink b b'' := by
  obtain ⟨k, hrest, hnone⟩ := h
  refine ⟨n + k, ?_, hnone⟩
  rw [← List.replicate_append_replicate]
  exact Schedule.run?_append hrun hrest

theorem Settles.of_step (hstep : step? sink b (.act .screen) = some b')
    (h : Settles sink b' b'') : Settles sink b b'' := by
  refine Settles.of_run (n := 1) ?_ h
  rw [List.replicate_one, Schedule.run?, hstep]
  rfl

/-- A screen manager that has ended takes no step. -/
theorem step?_of_ended (h : b.floor.standing .screen ≠ .working) :
    step? sink b (.act .screen) = none := by
  cases hstep : step? sink b (.act .screen) with
  | none => rfl
  | some b' =>
      obtain ⟨floor, hfloor, rfl⟩ := act_eq_some_iff.1 hstep
      exact absurd hfloor.standing_eq_working h

/-- A screen manager that misses a mark takes the message that is first. -/
theorem exists_display (hphase : b.floor.screen.phase = .waiting)
    (hqueue : b.floor.screenQueue.items = m :: rest) :
    ∃ r, r.items = rest ∧
      step? sink b (.act .screen) =
        some { b with
          floor :=
            { b.floor with
              screenQueue := r
              screen := (b.floor.screen.took sink m).1
              events := b.floor.events ++ (b.floor.screen.took sink m).2 } } := by
  have hremove : b.floor.screenQueue.remove? =
      some (m, { b.floor.screenQueue with items := rest }) := by
    rw [Queue.remove?, hqueue]
  exact ⟨_, rfl, act_eq_some_iff.2 ⟨_, .display hphase hremove, rfl⟩⟩

/-- A message is taken on which the display does not panic. -/
theorem Attending.take (h : Attending sink b taken (m :: rest))
    (hmore : taken.countP Message.isDone < Screen.sentinelsExpected)
    (hquiet : ∀ body, m = .item body → sink (taken.filterMap Message.body?).length ≠ .panic) :
    ∃ b', step? sink b (.act .screen) = some b' ∧ Attending sink b' (taken ++ [m]) rest := by
  have hphase : b.floor.screen.phase = .waiting := by
    rw [h.screen]
    exact Screen.phase_after hmore
  obtain ⟨r, hr, hstep⟩ := exists_display hphase h.queue
  refine ⟨_, hstep, ?_, ?_, hr⟩
  · rw [h.screen]
    exact Screen.took_after hmore hquiet
  · rw [h.screen, h.events]
    exact Screen.alarms_after sink taken m

/-- After the third mark the last line is shown. -/
theorem Attending.close (h : Attending sink b taken rest)
    (hall : taken.countP Message.isDone = Screen.sentinelsExpected)
    (hquiet : sink (taken.filterMap Message.body?).length ≠ .panic) :
    ∃ b', Settles sink b b' ∧ Shown sink (taken.filterMap Message.body?) rest b' := by
  have hphase : b.floor.screen.phase = .closing := by rw [h.screen, Screen.phase_after_all hall]
  have hscreen := Screen.close_after sink hall
  have hevents := Screen.alarms_close sink hall
  rw [if_neg hquiet] at hscreen hevents
  rw [← h.screen] at hscreen
  rw [← h.events, ← h.screen] at hevents
  have hstep : Floor.Step sink b.floor .screen _ := .finish hphase
  rw [hscreen, hevents] at hstep
  refine ⟨_, Settles.of_step (act_eq_some_iff.2 ⟨_, hstep, rfl⟩)
    (settles_of_none (step?_of_ended fun hworking => by cases hworking)), ?_⟩
  exact
    { given := rfl
      lines := by simp [Function.comp_def, Message.text, Message.doneText]
      left := h.queue
      report := rfl
      events := rfl
      alarm := Sink.isSome_firstRefusal? _ _
      joined := Launch.join?_of_finished rfl }

end Bench

end Newsroom
