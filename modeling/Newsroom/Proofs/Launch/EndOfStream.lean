import Newsroom.Proofs.Floor.Sends
import Newsroom.Proofs.Launch.Delivery

/-!
# The end of the stream

End marks are taken for the end only where nothing follows, and the last line is shown
when nothing is left that could still be shown.

## Main Definitions

* `Launch.send?` — what a move puts into a queue
* `Launch.sends` — all that was sent along a run

## Main Statements

* `recorded_of_run?`, `delivered_of_run?` — what was sent fits the end marks that the
  stages count and the messages that the queues hold
* `Regular.empty_of_done`, `Regular.all_done_of_marked`, `Regular.drained_of_lastLine` —
  what an end mark tells of the stages before it
* `end_of_stream` — sources, categories, co-editors and the last line end as they
  should

## Design Notes

The journal of `send?` along a run holds all that has entered a queue: by `Step.moves`
no stage inserts in any other way, and the launcher inserts nothing when all stages
could be started.
-/

namespace Newsroom.Launch

variable {ρ : Type} {c : Config} {o : Overrides} {randomSeed : UInt64} {p : Pipeline Article}
  {setup : Setup} {l l' : Launch ρ Article} {ms : List Move}

/-- What a move puts into a queue. -/
def send? (l : Launch ρ Article) : Move → Option (Channel × Message Article)
  | .launcher => none
  | .stage a => l.floor.send? a

variable (ρ) [SeededSource ρ]

/-- All that was sent along a run of a launch. -/
def sends (setup : Setup) (p : Pipeline Article) (ms : List Move) :
    List (Channel × Message Article) :=
  Schedule.journal (step? setup) send? (ofPipeline p : Launch ρ Article) ms

variable {ρ}

/-- What each step of a stage keeps, with what it sends, holds of all that was sent. -/
theorem sends_invariant {P : Floor ρ Article → List (Channel × Message Article) → Prop}
    (hstage : ∀ f J a f', f.Orderly → P f J → Floor.Step setup.sink f a f' →
      P f' (J ++ (f.send? a).toList))
    (hlog : ∀ f J es, P f J → P (f.log es) J) (hbuild : Pipeline.build c o randomSeed = .ok p)
    (hable : setup.failAt = none) (hsink : setup.sink.NeverPanics)
    (hrun : Schedule.run? (step? setup) (ofPipeline p) ms = some l)
    (hstart : P (ofPipeline p : Launch ρ Article).floor []) : P l.floor (sends ρ setup p ms) := by
  have hkeep : ∀ (l : Launch ρ Article) (J : List (Channel × Message Article)) (m : Move)
      (l' : Launch ρ Article), l.Regular ∧ P l.floor J → step? setup l m = some l' →
        l'.Regular ∧ P l'.floor (J ++ (send? l m).toList) := by
    rintro l J m l' ⟨hregular, hP⟩ hstep
    have hstep := step?_eq_some_iff.1 hstep
    refine ⟨hregular.step hable hsink hstep, ?_⟩
    cases hstep with
    | stage hstarted hfloor => exact hstage _ _ _ _ hregular.orderly hP hfloor
    | start => simpa [send?] using hP
    | fail => simpa [send?] using hlog _ _ _ hP
    | allStarted => simpa [send?] using hP
    -- the launcher sends marks only after a failed start
    | mark hphase => simpa [Fits, hphase] using hregular.fits
    | clear => simpa [send?] using hlog _ _ _ hP
    | giveUp => simpa [send?] using hP
    | join => simpa [send?] using hlog _ _ _ hP
    | joinPanicked => simpa [send?] using hlog _ _ _ hP
    | report => simpa [send?] using hlog _ _ _ hP
  exact (Schedule.journal_invariant hkeep ⟨regular_ofPipeline hbuild, hstart⟩ hrun).2

/-- What was sent fits the end marks that the stages have counted. -/
theorem recorded_of_run? (hbuild : Pipeline.build c o randomSeed = .ok p)
    (hable : setup.failAt = none) (hsink : setup.sink.NeverPanics)
    (hrun : Schedule.run? (step? setup) (ofPipeline p) ms = some l) :
    l.floor.Recorded (sends ρ setup p ms) :=
  sends_invariant (fun _ _ _ _ horder h hstep => h.step horder hstep) (fun _ _ _ h => h) hbuild
    hable hsink hrun (Pipeline.build_fresh (ρ := ρ) hbuild).recorded

/-- What was sent along a run is what has entered the queues: each of them holds the
last of it. -/
theorem delivered_of_run? (hbuild : Pipeline.build c o randomSeed = .ok p)
    (hable : setup.failAt = none) (hsink : setup.sink.NeverPanics)
    (hrun : Schedule.run? (step? setup) (ofPipeline p) ms = some l) :
    l.floor.Delivered (sends ρ setup p ms) :=
  sends_invariant (fun _ _ _ _ _ h hstep => h.step hstep) (fun _ _ _ h => h) hbuild hable hsink hrun
    (Pipeline.build_fresh (ρ := ρ) hbuild).delivered

omit [SeededSource ρ] in
/-- The producer of a source that is done has sent its end mark. -/
theorem Regular.marked_of_done {sends : List (Channel × Message Article)} (h : l.Regular)
    (hrecorded : l.floor.Recorded sends) {i : Nat}
    (hs : l.floor.dispatcher.sources[i]? = some .done) : .done ∈ sentOn (.producer i) sends := by
  obtain ⟨q, r, hq, hr⟩ := h.orderly.exists_source hs
  have hfinished := (h.orderly.source_of_done hq hr hs).1
  apply (hrecorded (.producer i)).done_mem_iff.2
  simp [Floor.marksOn, hq, Producer.sent, hfinished]

/-- A source that is done is empty for good. -/
theorem Regular.empty_of_done (h : l.Regular) (hable : setup.failAt = none)
    (hsink : setup.sink.NeverPanics) {i : Nat} (hs : l.floor.dispatcher.sources[i]? = some .done)
    (hreach : Schedule.Reachable (step? setup) l l') :
    ∃ q, l'.floor.queue? (.source i) = some q ∧ q.items = [] := by
  have hregular := regular_of_reachable hable hsink h hreach
  have hs' := regular_floor_invariant (P := fun f => f.dispatcher.sources[i]? = some .done) hable
    hsink (fun _ _ _ h hs hstep => h.done_stays hstep hs) (fun _ _ hs => hs) h hreach hs
  obtain ⟨q, r, hq, hr⟩ := hregular.orderly.exists_source hs'
  exact ⟨r, hr, (hregular.orderly.source_of_done hq hr hs').2⟩

omit [SeededSource ρ] in
/-- A category gets its end mark only when all sources are done. -/
theorem Regular.all_done_of_marked {sends : List (Channel × Message Article)} (h : l.Regular)
    (hrecorded : l.floor.Recorded sends) {d : Category}
    (hmark : .done ∈ sentOn (.category d) sends ∨
      l.floor.send? .dispatcher = some (.category d, .done)) :
    ∀ s ∈ l.floor.dispatcher.sources, s = .done := by
  rcases hmark with hsent | hnext
  · have hlink := hrecorded (.category d)
    have hpos := hlink.done_mem_iff.1 hsent
    exact h.orderly.steady.all_done (Nat.le_antisymm hlink.sent_le hpos)
  · cases hphase : l.floor.dispatcher.phase with
    | closing e es =>
        have hsteady := h.orderly.steady
        simp only [Dispatcher.Steady, hphase] at hsteady
        exact hsteady.1
    | _ => simp [Floor.send?, hphase] at hnext

omit [SeededSource ρ] in
/-- When the last line is due or was shown, nothing is left on the floor. -/
theorem Regular.drained_of_lastLine (h : l.Regular) (hcounted : l.floor.Counted setup.sink)
    (hlast : l.floor.screen.phase = .closing ∨ .done ∈ l.given) : l.floor.Drained := by
  have hcounting := h.orderly.counting
  rcases hlast with hclosing | hgiven
  · simp only [Screen.Counting, hclosing] at hcounting
    exact h.orderly.drained hcounting
  · have hone := hcounted.screen.finished h.awake
    have hpos := (hcounted.screen.lastLine.done_mem_iff).1 hgiven
    have hfinished : l.floor.screen.phase = .finished := by
      by_contra hne
      rw [if_neg hne] at hone
      omega
    simp only [Screen.Counting, hfinished] at hcounting
    exact h.orderly.drained hcounting

/-- The end marks of a launch, along each of its runs.  What was sent is what has
entered the queues, in this order.  A source counts as done only when its producer has
sent its end mark and its queue is empty for good.  A category gets one end mark at
most, when all sources are done, and nothing after it; so does the screen queue from
each co-editor.  When the last line is shown nothing is left on the floor and all
articles were given to the display, so that it is shown once and last. -/
theorem end_of_stream (hbuild : Pipeline.build c o randomSeed = .ok p)
    (hable : setup.failAt = none) (hsink : setup.sink.NeverPanics)
    (hrun : Schedule.run? (step? setup) (ofPipeline p) ms = some l) :
    l.floor.Delivered (sends ρ setup p ms) ∧
    (∀ i : Nat, l.floor.dispatcher.sources[i]? = some .done →
      .done ∈ sentOn (.producer i) (sends ρ setup p ms) ∧
      ∀ l', Schedule.Reachable (step? setup) l l' →
        ∃ q, l'.floor.queue? (.source i) = some q ∧ q.items = []) ∧
    (∀ d, (∀ before after, sentOn (.category d) (sends ρ setup p ms) = before ++ .done :: after →
        after = []) ∧
      (.done ∈ sentOn (.category d) (sends ρ setup p ms) ∨
        l.floor.send? .dispatcher = some (.category d, .done) →
          ∀ s ∈ l.floor.dispatcher.sources, s = .done)) ∧
    (∀ d before after, sentOn (.coEditor d) (sends ρ setup p ms) = before ++ .done :: after →
      after = []) ∧
    (l.floor.screen.phase = .closing ∨ .done ∈ l.given →
      l.floor.Drained ∧ (∀ a, l.floor.send? a = none) ∧
      ∀ (i : Nat) (spec : ProducerSpec), c.producers[i]? = some spec → ∀ d,
        articlesBy i d l.given =
          firstArticles i spec.id d ((Pipeline.drawn ρ p.seed i spec).get d)) ∧
    (∀ before after, l.given = before ++ .done :: after → after = []) ∧
    (l.result?.isSome = true → .done ∈ l.given) := by
  have hreach := Schedule.reachable_run? .start hrun
  have hregular := regular_of_reachable hable hsink (regular_ofPipeline hbuild) hreach
  have hcounted := counted_of_reachable hbuild hable hsink hreach
  have hrecorded := recorded_of_run? hbuild hable hsink hrun
  refine ⟨delivered_of_run? hbuild hable hsink hrun, ?_, ?_, ?_, ?_, ?_, ?_⟩
  · intro i hs
    exact ⟨hregular.marked_of_done hrecorded hs,
      fun l' hreach' => hregular.empty_of_done hable hsink hs hreach'⟩
  · intro d
    exact ⟨fun before after hsent => (hrecorded (.category d)).eq_nil_of_append hsent,
      hregular.all_done_of_marked hrecorded⟩
  · intro d before after hsent
    exact (hrecorded (.coEditor d)).eq_nil_of_append hsent
  · intro hlast
    have hdrained := hregular.drained_of_lastLine hcounted hlast
    exact ⟨hdrained, hdrained.send?_eq_none,
      fun i spec hspec d => given_of_drained hbuild hreach hdrained hspec d⟩
  · intro before after hgiven
    exact hcounted.screen.lastLine.eq_nil_of_append hgiven
  · intro hreturned
    have hone := countP_isDone_of_returned hbuild hable hsink hreach hreturned
    exact hcounted.screen.lastLine.done_mem_iff.2 (Nat.lt_of_lt_of_eq Nat.one_pos hone.symm)

/-- In the smallest newsroom the last line is shown when nothing is left. -/
theorem end_of_stream_lone :
    ∃ l : Launch Generator Article, Schedule.run? (step? { sink := fun _ => .refuse .tryAgain })
      (ofPipeline Pipeline.lone) loneRun = some l ∧ .done ∈ l.given ∧ l.floor.Drained := by
  obtain ⟨l, hrun, hreturned⟩ := exists_loneRun
  obtain ⟨-, -, -, -, hlast, -, hshown⟩ :=
    end_of_stream Pipeline.build_lone rfl (fun _ h => by cases h) hrun
  exact ⟨l, hrun, hshown hreturned, (hlast (.inr (hshown hreturned))).1⟩

end Newsroom.Launch
