import Newsroom.Proofs.Launch.Waiting

/-!
# Failed starts with a display that panics

A launcher whose start has failed waits for every stage that it has started.  This takes it to
its end with every display that does not panic on an article of these producers; in particular
always when no producer was started.  Otherwise the stages behind the screen manager may wait
for ever, and the launcher with them.

## Main Definitions

* `hopeless` — a display that always panics, and a producer that cannot be started
* `Config.pair`, `Pipeline.pair` — a newsroom of two producers, one of which writes nothing
* `secondFails` — its second producer cannot be started, and the display panics on its first
  call

## Main Statements

* `Unwinding.blocked_or_progress` — what keeps a launcher from going on
* `unwinds_unless_panicked` — how a failed start ends, whatever the display does
* `unwinding_blocks` — a failed start that does not end
-/

namespace Newsroom.Launch

variable {ρ : Type} [SeededSource ρ] {c : Config} {o : Overrides} {randomSeed : UInt64}
  {p : Pipeline Article} {setup : Setup} {k w : Nat} {fault : PipelineFault}
  {l : Launch ρ Article}

omit [SeededSource ρ] in
/-- No more stages are started than come before the one that fails. -/
theorem Unwinding.started_le (h : Unwinding k fault l w) : l.started ≤ k := by
  rcases h.phase_cases with ⟨-, hle, -⟩ | ⟨marks, stages, -, hk, -⟩ | ⟨-, hk, -⟩
  · exact hle
  · exact Nat.le_of_eq hk
  · exact Nat.le_of_eq hk

omit [SeededSource ρ] in
/-- The producers that were started write no more articles than all that come before the
stage that fails. -/
theorem Unwinding.articles_le (h : Unwinding k fault l w) (specs : List ProducerSpec) :
    exactSum ((specs.take (l.started - 5)).map fun spec => spec.messages.toNat) ≤
      exactSum ((specs.take (k - 5)).map fun spec => spec.messages.toNat) := by
  have hmin : min (l.started - 5) (k - 5) = l.started - 5 :=
    Nat.min_eq_left (Nat.sub_le_sub_right h.started_le 5)
  rw [← hmin, ← List.take_take]
  exact exactSum_map_take_le _ _ _

/-- Until the launcher has returned something can happen that is not a vain look, unless the
display has panicked on an article. -/
theorem Unwinding.blocked_or_progress (h : Unwinding k fault l w)
    (hfails : Unstartable setup k fault l) (hbuild : Pipeline.build c o randomSeed = .ok p)
    (hreach : Schedule.Reachable (step? setup) (ofPipeline p) l) (hgoing : l.result? = none) :
    (∃ m l', step? setup l m = some l' ∧ l.isVain m = false) ∨
      (l.floor.standing .screen = .panicked ∧ .done ∉ l.given ∧
        ∃ j, j < exactSum ((c.producers.take (k - 5)).map fun spec => spec.messages.toNat) ∧
          setup.sink j = .panic) := by
  by_cases hcalm : l.floor.screen.Calm
  · exact .inl (h.progress_of_calm hfails hcalm hgoing)
  · have hpanicked := standing_screen_of_panicked (Screen.phase_of_not_calm hcalm)
    obtain ⟨hlast, j, hj, hverdict⟩ := exists_panic_of_not_calm hbuild hreach hcalm
    exact .inr ⟨hpanicked, hlast, j,
      Nat.lt_of_lt_of_le hj (h.articles_le c.producers), hverdict⟩

/-- A launch in which a stage cannot be started has a bounded number of steps besides vain
looks, whatever the display does.  When the launcher returns, it names the stage that could
not be started, and all stages before it have ended.  Something can happen until then, unless
the display has panicked on an article before it was given its last line.  If it panics on none
of as many calls as the started producers have articles, the launcher can always return. -/
theorem unwinds_unless_panicked (hbuild : Pipeline.build c o randomSeed = .ok p)
    (hfail : setup.failAt = some k) (hk : k < c.producers.length + 5) :
    ∃ name, (stageNames c)[k]? = some name ∧
      (∀ l : Launch ρ Article, Schedule.Reachable (step? setup) (ofPipeline p) l →
        (l.result? = none → (∃ m l', step? setup l m = some l' ∧ l.isVain m = false) ∨
          (l.floor.standing .screen = .panicked ∧ .done ∉ l.given ∧
            ∃ j, j < exactSum ((c.producers.take (k - 5)).map fun spec => spec.messages.toNat) ∧
              setup.sink j = .panic)) ∧
        ((∀ j, j < exactSum ((c.producers.take (k - 5)).map fun spec => spec.messages.toNat) →
            setup.sink j ≠ .panic) →
          ∃ l', Schedule.Reachable (step? setup) l l' ∧ l'.result?.isSome = true)) ∧
      ∀ ms (l : Launch ρ Article), Schedule.run? (step? setup) (ofPipeline p) ms = some l →
        (Schedule.journal (step? setup) notVain? (ofPipeline p : Launch ρ Article) ms).length ≤
          stepBound c ∧
        ∀ r, l.result? = some r →
          r = .error (.spawn name setup.cause) ∧ l.started = k ∧
            ∀ a, l.isStarted a = true → l.floor.standing a ≠ .working := by
  have hname : ∃ name, (stageNames c)[k]? = some name :=
    ⟨_, List.getElem?_eq_getElem (by rwa [length_stageNames])⟩
  obtain ⟨name, hname⟩ := hname
  have hfails : ∀ l : Launch ρ Article, Schedule.Reachable (step? setup) (ofPipeline p) l →
      Unstartable setup k (.spawn name setup.cause) l :=
    fun l hreach => unstartable_of_reachable hbuild hfail hname hreach
  refine ⟨name, hname, ?_, ?_⟩
  · intro l hreach
    obtain ⟨w, hunwinding⟩ := unwinding_of_unstartable hbuild hfails hreach
    refine ⟨hunwinding.blocked_or_progress (hfails l hreach) hbuild hreach, ?_⟩
    intro hquiet
    refine hunwinding.exists_returned_of_calm fun l' hreach' => ?_
    have hfrom := hreach.trans hreach'
    obtain ⟨w', hunwinding'⟩ := unwinding_of_unstartable hbuild hfails hfrom
    exact ⟨hfails l' hfrom,
      calm_of_quiet hbuild hfrom (hunwinding'.articles_le c.producers) hquiet⟩
  · intro ms l hrun
    refine ⟨notVain_le_of_unstartable hbuild hfails hrun, ?_⟩
    intro r hr
    obtain ⟨w, hunwinding⟩ :=
      unwinding_of_unstartable hbuild hfails (Schedule.reachable_run? .start hrun)
    obtain ⟨hresult, hstarted, hclearing⟩ := hunwinding.of_returned (by simp [hr])
    rw [hr, Option.some.injEq] at hresult
    exact ⟨hresult, hstarted, fun a ha => hclearing.ended (hstarted ▸ isStarted_iff.1 ha)⟩

/-- A display that panics on every line, and a producer that cannot be started. -/
def hopeless : Setup where
  sink := fun _ => .panic
  failAt := some 5

/-- A run of the smallest newsroom without its producer. -/
def unstaffedRun : List Move :=
  List.replicate 7 .launcher ++ List.replicate 5 (.stage .dispatcher) ++ lastWay ++
    List.replicate 6 .launcher

/-- Without its producer the smallest newsroom comes to its end even so. -/
theorem unwinds_unless_panicked_unstaffed :
    ∃ l : Launch Generator Article, Schedule.run? (step? hopeless) (ofPipeline Pipeline.lone)
        unstaffedRun = some l ∧
      l.result? = some (.error (.spawn "producer-1" .tryAgain)) ∧
      l.floor.standing .screen ≠ .working := by
  have hpossible : ((Schedule.run? (step? hopeless)
      (ofPipeline Pipeline.lone : Launch Generator Article) unstaffedRun).any
        fun l => l.result?.isSome) = true := by
    decide +kernel
  obtain ⟨l, hrun, hreturned⟩ := (Option.any_eq_true _ _).1 hpossible
  obtain ⟨r, hr⟩ := Option.isSome_iff_exists.1 hreturned
  have hfail : hopeless.failAt = some 5 := rfl
  obtain ⟨name, hname, -, hends⟩ :=
    unwinds_unless_panicked (ρ := Generator) Pipeline.build_lone hfail (by decide)
  cases hname
  obtain ⟨rfl, hstarted, hended⟩ := (hends unstaffedRun l hrun).2 r hr
  refine ⟨l, hrun, hr, hended .screen (isStarted_iff.2 ?_)⟩
  rw [hstarted]
  decide

end Newsroom.Launch

namespace Newsroom

/-! ### A start that does not end -/

/-- Two producers, the second of which writes nothing, and queues that have room for one
message. -/
def Config.pair : Config :=
  Config.ofProducers [⟨1, 1, 1⟩, ⟨2, 0, 1⟩] 1

/-- The pipeline of two producers, one of which writes nothing. -/
def Pipeline.pair : Pipeline Article := .narrow Config.pair 7

theorem Pipeline.build_pair : Pipeline.build Config.pair {} 7 = .ok Pipeline.pair := rfl

namespace Launch

/-- The second producer cannot be started, and the display panics on its first call. -/
def secondFails : Setup :=
  { panicsAt 0 with failAt := some 6 }

/-- A run in which the article of the first producer makes the display panic while the launcher
waits for the stages. -/
def blockedRun : List Move :=
  List.replicate 8 .launcher ++
    [.stage (.producer 0), .stage (.producer 0), .stage .dispatcher, .stage .dispatcher,
      .stage (.coEditor .sports), .stage (.coEditor .sports), .stage .screen,
      .stage (.producer 0), .stage (.producer 0)] ++
    List.replicate 7 (.stage .dispatcher) ++ Category.all.map (fun c => .stage (.coEditor c)) ++
    .stage (.coEditor .sports) :: List.replicate 3 .launcher

/-- After an article has made the display panic, the end marks of the co-editors do not find
room: two co-editors wait for ever, and so does the launcher. -/
theorem unwinding_blocks :
    Pipeline.build Config.pair {} 7 = .ok Pipeline.pair ∧
    secondFails.failAt = some 6 ∧ 6 < Config.pair.producers.length + 5 ∧
    ∃ l : Launch Generator Article,
      Schedule.Reachable (step? secondFails) (ofPipeline Pipeline.pair) l ∧
      l.result? = none ∧ (∃ a, l.isStarted a = true ∧ l.floor.standing a = .working) ∧
      ∀ m, step? secondFails l m = none := by
  have hpossible : ((Schedule.run? (step? secondFails)
      (ofPipeline Pipeline.pair : Launch Generator Article) blockedRun).any fun l =>
        l.result?.isNone = true ∧ l.isStarted (.coEditor .news) = true ∧
          l.floor.standing (.coEditor .news) = .working ∧ isStuck secondFails l = true) = true := by
    decide +kernel
  obtain ⟨l, hrun, hleft⟩ := (Option.any_eq_true _ _).1 hpossible
  obtain ⟨hgoing, hstarted, hworking, hstuck⟩ := of_decide_eq_true hleft
  exact ⟨Pipeline.build_pair, rfl, by decide, l, Schedule.reachable_run? .start hrun,
    Option.isNone_iff_eq_none.1 hgoing, ⟨_, hstarted, hworking⟩, isStuck_iff.1 hstuck⟩

end Launch

end Newsroom
