import Newsroom.Proofs.Launch.Panic

/-!
# What a launcher that has returned leaves at work

A launcher that waits for all stages joins the screen manager first, and returns as soon as a
stage has panicked.  A display that panics on an article can therefore leave stages at work
behind it, which may never end.

## Main Definitions

* `panicsAt` — a display that panics on one of its calls
* `abandonedRun` — a run of the smallest newsroom after which some stages wait for ever

## Main Statements

* `stages_when_returned` — all stages have ended when the launcher returns, unless the display
  has panicked on an article
* `leaves_stages_at_work` — it can return while others are at work, and then they stay so
-/

namespace Newsroom.Launch

variable {ρ : Type} [SeededSource ρ] {c : Config} {o : Overrides} {randomSeed : UInt64}
  {p : Pipeline Article} {setup : Setup} {l : Launch ρ Article}

/-- After a panic no stage is at work, unless it was on one of the articles that the producers
write. -/
theorem ended_or_exists_panic (hbuild : Pipeline.build c o randomSeed = .ok p)
    (hreach : Schedule.Reachable (step? setup) (ofPipeline p) l) (horder : l.floor.Orderly)
    (hpanicked : l.floor.screen.phase = .panicked) :
    (∀ a, l.floor.standing a ≠ .working) ∨
      (.done ∉ l.given ∧
        ∃ k, k < exactSum (c.producers.map fun spec => spec.messages.toNat) ∧
          setup.sink k = .panic) := by
  by_cases hcalm : l.floor.screen.Calm
  · exact .inl (horder.ended_of_panicked hcalm hpanicked)
  · obtain ⟨hlast, k, hk, hverdict⟩ := exists_panic_of_not_calm hbuild hreach hcalm
    exact .inr ⟨hlast, k, Nat.lt_of_lt_of_le hk (exactSum_map_take_le _ _ _), hverdict⟩

/-- When every stage can be started the launcher can always return, whatever the display does.
If it returns a report, all stages are finished.  Otherwise it tells that the screen manager
has panicked; all stages have ended then, unless the display panicked on one of the articles
and was not given its last line. -/
theorem stages_when_returned (hbuild : Pipeline.build c o randomSeed = .ok p)
    (hable : setup.failAt = none) (hreach : Schedule.Reachable (step? setup) (ofPipeline p) l) :
    l.floor.actors.length = c.producers.length + 5 ∧
    (∃ l', Schedule.Reachable (step? setup) l l' ∧ l'.result?.isSome = true) ∧
    ∀ r, l.result? = some r →
      (r = .ok l.floor.report ∧ ∀ a ∈ l.floor.actors, l.floor.standing a = .finished) ∨
      (r = .error (.stagePanicked "screen-manager") ∧ l.floor.standing .screen = .panicked ∧
        ((∀ a ∈ l.floor.actors, l.floor.standing a ≠ .working) ∨
          (.done ∉ l.given ∧
            ∃ k, k < exactSum (c.producers.map fun spec => spec.messages.toNat) ∧
              setup.sink k = .panic))) := by
  have hstaffed := staffed_of_reachable hable (regular_ofPipeline hbuild).staffed hreach
  refine ⟨?_, hstaffed.exists_returned hable, ?_⟩
  · rw [Floor.length_actors, length_producers hbuild hreach]
  · intro r hr
    rcases hstaffed.of_returned hr with hreport | ⟨hfault, hpanicked⟩
    · exact .inl hreport
    · refine .inr ⟨hfault, standing_screen_of_panicked hpanicked, ?_⟩
      exact (ended_or_exists_panic hbuild hreach hstaffed.orderly hpanicked).imp_left
        fun hended a _ => hended a

/-- A display that panics on one of its calls. -/
def panicsAt (k : Nat) : Setup where
  sink j := if j = k then .panic else .accept

/-- A display that panics on the last line of the smallest newsroom leaves no stage at work. -/
theorem stages_when_returned_lastLine :
    ∃ l : Launch Generator Article, Schedule.run? (step? (panicsAt 1)) (ofPipeline Pipeline.lone)
        (loneRun.take 31 ++ [.launcher]) = some l ∧
      l.result? = some (.error (.stagePanicked "screen-manager")) ∧
      ∀ a ∈ l.floor.actors, l.floor.standing a ≠ .working := by
  have hpossible : ((Schedule.run? (step? (panicsAt 1))
      (ofPipeline Pipeline.lone : Launch Generator Article)
      (loneRun.take 31 ++ [.launcher])).any fun l =>
        l.phase = .returned (some (.stagePanicked "screen-manager")) ∧ .done ∈ l.given) = true := by
    decide +kernel
  obtain ⟨l, hrun, hreturned⟩ := (Option.any_eq_true _ _).1 hpossible
  obtain ⟨hphase, hlast⟩ := of_decide_eq_true hreturned
  have hreach := Schedule.reachable_run? .start hrun
  have hr : l.result? = some (.error (.stagePanicked "screen-manager")) := by
    simp only [result?, hphase]
  obtain ⟨-, -, hends⟩ := stages_when_returned Pipeline.build_lone rfl hreach
  rcases hends _ hr with ⟨hreport, -⟩ | ⟨-, -, hended | ⟨hnone, -⟩⟩
  · cases hreport
  · exact ⟨l, hrun, hr, hended⟩
  · exact absurd hlast hnone

/-- A run of the smallest newsroom in which the launcher returns when the display has panicked
on the only article, and the other stages go on as far as they can. -/
def abandonedRun : List Move :=
  loneRun.take 14 ++ .launcher :: [.stage (.producer 0), .stage (.producer 0)] ++
    List.replicate 5 (.stage .dispatcher) ++ Category.all.map (fun c => .stage (.coEditor c)) ++
    [.stage (.coEditor .sports)]

/-- After an article has made the display panic, the launcher can return while two co-editors
are at work; nothing can happen any more then, so that they never end. -/
theorem leaves_stages_at_work :
    Pipeline.build Config.lone {} 7 = .ok Pipeline.lone ∧ (panicsAt 0).failAt = none ∧
    ∃ l : Launch Generator Article,
      Schedule.Reachable (step? (panicsAt 0)) (ofPipeline Pipeline.lone) l ∧
      l.result? = some (.error (.stagePanicked "screen-manager")) ∧
      (∃ a ∈ l.floor.actors, l.floor.standing a = .working) ∧
      ∀ m, step? (panicsAt 0) l m = none := by
  have hpossible : ((Schedule.run? (step? (panicsAt 0))
      (ofPipeline Pipeline.lone : Launch Generator Article)
      abandonedRun).any fun l =>
        l.phase = .returned (some (.stagePanicked "screen-manager")) ∧
          l.floor.standing (.coEditor .news) = .working ∧
            isStuck (panicsAt 0) l = true) = true := by
    decide +kernel
  obtain ⟨l, hrun, hleft⟩ := (Option.any_eq_true _ _).1 hpossible
  obtain ⟨hphase, hworking, hstuck⟩ := of_decide_eq_true hleft
  refine ⟨Pipeline.build_lone, rfl, l, Schedule.reachable_run? .start hrun, ?_, ?_,
    isStuck_iff.1 hstuck⟩
  · simp only [result?, hphase]
  · exact ⟨.coEditor .news, by simp [Floor.actors, Category.mem_all], hworking⟩

end Newsroom.Launch
