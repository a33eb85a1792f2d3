import Newsroom.Pipeline.Launch
import Newsroom.Proofs.Floor.Step
import Newsroom.Proofs.Schedule

/-!
# The steps of a launch

Every step of the launcher or of a stage that was started, with what it needs and
with all that it changes.

## Main Definitions

* `Launch.Step` — the steps as a relation, one constructor for each kind
* `Launch.isStuck` — whether nothing can happen any more

## Main Statements

* `step?_eq_some_iff` — the relation is the step function
* `floor_invariant`, `screen_invariant` — what the steps of stages, reports and additional
  end marks keep on a floor holds on the floor of every launch
-/

namespace Newsroom.Launch

variable {ρ α : Type} [CategorySource ρ] [Payload α]

/-- What can happen in a run. -/
inductive Step (setup : Setup) (l : Launch ρ α) : Move → Launch ρ α → Prop
  /-- A stage that was started takes a step. -/
  | stage {a : Actor} {floor : Floor ρ α} (hstarted : l.isStarted a = true)
      (hstep : Floor.Step setup.sink l.floor a floor) : Step setup l (.stage a) { l with floor }
  /-- The next stage is started. -/
  | start {a : Actor} (hphase : l.phase = .starting) (hnext : l.floor.actors[l.started]? = some a)
      (hable : setup.failAt ≠ some l.started) :
      Step setup l .launcher { l with started := l.started + 1 }
  /-- The next stage cannot be started. -/
  | fail {a : Actor} {fault : PipelineFault} (hphase : l.phase = .starting)
      (hnext : l.floor.actors[l.started]? = some a) (hunable : setup.failAt = some l.started)
      (hfault : fault = .spawn (l.floor.stageName a) setup.cause) :
      Step setup l .launcher
        { l with
          floor := l.floor.log [.startFailed fault]
          phase :=
            .unwinding (marksFor l.started l.floor.producers.length)
              ((unwindOrder l.floor.producers.length).filter l.isStarted) fault }
  /-- All stages were started. -/
  | allStarted (hphase : l.phase = .starting) (hnone : l.floor.actors[l.started]? = none) :
      Step setup l .launcher { l with phase := .waiting (waitOrder l.floor.producers.length) }
  /-- An end mark is sent for a stage that is missing. -/
  | mark {p : Place} {ps : List Place} {stages : List Actor} {fault : PipelineFault}
      {floor : Floor ρ α} (hphase : l.phase = .unwinding (p :: ps) stages fault)
      (hinsert : l.floor.insert? p .done = some floor) :
      Step setup l .launcher { l with floor, phase := .unwinding ps stages fault }
  /-- A stage that was started has ended, after a failed start. -/
  | clear {a : Actor} {as : List Actor} {fault : PipelineFault}
      {r : Logged (Except PipelineFault Unit)} (hphase : l.phase = .unwinding [] (a :: as) fault)
      (hjoin : join? l.floor a = some r) :
      Step setup l .launcher
        { l with floor := l.floor.log r.events, phase := .unwinding [] as fault }
  /-- All stages that were started have ended, after a failed start. -/
  | giveUp {fault : PipelineFault} (hphase : l.phase = .unwinding [] [] fault) :
      Step setup l .launcher { l with phase := .returned (some fault) }
  /-- A stage has finished. -/
  | join {a : Actor} {as : List Actor} (hphase : l.phase = .waiting (a :: as))
      (hstanding : l.floor.standing a = .finished) :
      Step setup l .launcher { l with floor := l.floor.log [], phase := .waiting as }
  /-- A stage has panicked. -/
  | joinPanicked {a : Actor} {as : List Actor} (hphase : l.phase = .waiting (a :: as))
      (hstanding : l.floor.standing a = .panicked) :
      Step setup l .launcher
        { l with
          floor := l.floor.log [.stagePanicked (l.floor.stageName a)]
          phase := .returned (some (.stagePanicked (l.floor.stageName a))) }
  /-- All stages have finished. -/
  | report (hphase : l.phase = .waiting []) :
      Step setup l .launcher
        { l with floor := l.floor.log [finishedEvent l.floor.report], phase := .returned none }

variable {setup : Setup} {l l' : Launch ρ α}

omit [CategorySource ρ] [Payload α] in
theorem join?_of_finished {f : Floor ρ α} {a : Actor} (h : f.standing a = .finished) :
    join? f a = some ⟨.ok (), []⟩ := by
  simp [join?, h, Stage.join]

omit [CategorySource ρ] [Payload α] in
theorem join?_of_panicked {f : Floor ρ α} {a : Actor} (h : f.standing a = .panicked) :
    join? f a =
      some ⟨.error (.stagePanicked (f.stageName a)), [.stagePanicked (f.stageName a)]⟩ := by
  simp [join?, h, Stage.join]

omit [CategorySource ρ] [Payload α] in
/-- A stage that is not at work can be joined. -/
theorem exists_join? {f : Floor ρ α} {a : Actor} (h : f.standing a ≠ .working) :
    ∃ r, join? f a = some r := by
  cases hstanding : f.standing a with
  | working => exact absurd hstanding h
  | finished => exact ⟨_, join?_of_finished hstanding⟩
  | panicked => exact ⟨_, join?_of_panicked hstanding⟩

private theorem step_of_launcherStep? (h : launcherStep? setup l = some l') :
    Step setup l .launcher l' := by
  unfold launcherStep? at h
  split at h
  · next hphase =>
    split at h
    · next a hnext =>
      cases h
      by_cases hfail : setup.failAt = some l.started
      · simpa [start, Stage.spawn, hfail] using Step.fail hphase hnext hfail rfl
      · simpa [start, Stage.spawn, hfail] using Step.start hphase hnext hfail
    · next hnone =>
      cases h
      exact .allStarted hphase hnone
  · next p ps stages fault hphase =>
    obtain ⟨floor, hinsert, rfl⟩ := Option.map_eq_some_iff.1 h
    exact .mark hphase hinsert
  · next a as fault hphase =>
    obtain ⟨r, hjoin, rfl⟩ := Option.map_eq_some_iff.1 h
    exact .clear hphase hjoin
  · next fault hphase =>
    cases h
    exact .giveUp hphase
  · next a as hphase =>
    obtain ⟨r, hjoin, rfl⟩ := Option.map_eq_some_iff.1 h
    cases hstanding : l.floor.standing a with
    | working => simp [join?, hstanding] at hjoin
    | finished =>
        cases (join?_of_finished hstanding).symm.trans hjoin
        exact .join hphase hstanding
    | panicked =>
        cases (join?_of_panicked hstanding).symm.trans hjoin
        exact .joinPanicked hphase hstanding
  · next hphase =>
    cases h
    exact .report hphase
  · cases h

/-- What the relation allows the step function does. -/
theorem Step.step?_eq {m : Move} (h : Step setup l m l') : step? setup l m = some l' := by
  cases h with
  | stage hstarted hstep => simp [step?, hstarted, hstep.step?_eq]
  | start hphase hnext hable =>
      simp [step?, launcherStep?, hphase, hnext, Launch.start, Stage.spawn, hable]
  | fail hphase hnext hunable hfault =>
      simp [step?, launcherStep?, hphase, hnext, Launch.start, Stage.spawn, hunable, hfault]
  | allStarted hphase hnone => simp [step?, launcherStep?, hphase, hnone]
  | mark hphase hinsert => simp [step?, launcherStep?, hphase, hinsert]
  | clear hphase hjoin => simp [step?, launcherStep?, hphase, hjoin]
  | giveUp hphase => simp [step?, launcherStep?, hphase]
  | join hphase hstanding => simp [step?, launcherStep?, hphase, join?_of_finished hstanding]
  | joinPanicked hphase hstanding =>
      simp [step?, launcherStep?, hphase, join?_of_panicked hstanding]
  | report hphase => simp [step?, launcherStep?, hphase]

/-- The step function takes exactly the steps of the relation. -/
theorem step?_eq_some_iff {m : Move} : step? setup l m = some l' ↔ Step setup l m l' := by
  refine ⟨fun h => ?_, Step.step?_eq⟩
  cases m with
  | launcher => exact step_of_launcherStep? h
  | stage a =>
      by_cases hstarted : l.isStarted a = true
      · simp only [step?, if_pos hstarted] at h
        obtain ⟨floor, hstep, rfl⟩ := Option.map_eq_some_iff.1 h
        exact .stage hstarted (Floor.step?_eq_some_iff.1 hstep)
      · simp [step?, if_neg hstarted] at h

/-- Whether nothing can happen any more. -/
def isStuck (setup : Setup) (l : Launch ρ α) : Bool :=
  (moves l.floor).all fun m => (step? setup l m).isNone

/-- Only the launcher and the stages that there are can move. -/
theorem mem_moves_of_step? {m : Move} (h : step? setup l m = some l') : m ∈ moves l.floor := by
  cases m with
  | launcher => exact List.mem_cons_self
  | stage a =>
      cases a with
      | screen => simp [moves, Floor.actors]
      | coEditor c => simp [moves, Floor.actors, Category.mem_all]
      | dispatcher => simp [moves, Floor.actors]
      | producer i =>
          by_cases hi : i < l.floor.producers.length
          · simp [moves, Floor.actors, hi]
          · have hnone : l.floor.producers[i]? = none :=
              List.getElem?_eq_none_iff.2 (Nat.le_of_not_lt hi)
            simp [step?, Floor.step?, Floor.stepProducer?, hnone] at h

/-- It is enough to look at the stages that there are. -/
theorem isStuck_iff : isStuck setup l = true ↔ ∀ m, step? setup l m = none := by
  simp only [isStuck, List.all_eq_true, Option.isNone_iff_eq_none]
  refine ⟨fun h m => Option.eq_none_iff_forall_ne_some.2 fun l' hstep => ?_, fun h m _ => h m⟩
  cases (h m (mem_moves_of_step? hstep)).symm.trans hstep

/-- The launcher changes no stage. -/
theorem Step.launcher_kept (h : Step setup l .launcher l') :
    l'.floor.producers = l.floor.producers ∧ l'.floor.dispatcher = l.floor.dispatcher ∧
      l'.floor.screen = l.floor.screen ∧ l.started ≤ l'.started := by
  cases h with
  | start => exact ⟨rfl, rfl, rfl, Nat.le_succ _⟩
  | mark hphase hinsert =>
      obtain ⟨hproducers, hdispatcher, -, hscreen⟩ := Floor.insert?_kept hinsert
      exact ⟨hproducers, hdispatcher, hscreen, Nat.le_refl _⟩
  | _ => exact ⟨rfl, rfl, rfl, Nat.le_refl _⟩

/-- The stages that there are stay the same. -/
theorem Step.actors_eq {m : Move} (h : Step setup l m l') : l'.floor.actors = l.floor.actors := by
  cases m with
  | launcher => rw [Floor.actors, Floor.actors, h.launcher_kept.1]
  | stage a =>
      cases h with
      | stage hstarted hfloor => exact hfloor.actors_eq

/-- What is kept by the steps of stages, by reports and by additional end marks holds
on the floor of every launch that began with it. -/
theorem floor_invariant {P : Floor ρ α → Prop} {l₀ : Launch ρ α}
    (hstage : ∀ f a f', P f → Floor.Step setup.sink f a f' → P f')
    (hlog : ∀ f es, P f → P (f.log es))
    (hmark : ∀ f p f', P f → f.insert? p .done = some f' → P f')
    (hreach : Schedule.Reachable (step? setup) l₀ l) (h₀ : P l₀.floor) : P l.floor := by
  apply hreach.invariant (P := fun l => P l.floor) h₀
  intro l m l' h hstep
  cases step?_eq_some_iff.1 hstep with
  | stage hstarted hfloor => exact hstage _ _ _ h hfloor
  | start => exact h
  | fail => exact hlog _ _ h
  | allStarted => exact h
  | mark hphase hinsert => exact hmark _ _ _ h hinsert
  | clear => exact hlog _ _ h
  | giveUp => exact h
  | join => exact hlog _ _ h
  | joinPanicked => exact hlog _ _ h
  | report => exact hlog _ _ h

/-- What the steps of stages keep of the screen manager holds of it in every launch, since
the launcher does not change it. -/
theorem screen_invariant {P : Screen α → Prop} {l₀ : Launch ρ α}
    (hstage : ∀ (f : Floor ρ α) a f', P f.screen → Floor.Step setup.sink f a f' → P f'.screen)
    (hreach : Schedule.Reachable (step? setup) l₀ l) (h₀ : P l₀.floor.screen) :
    P l.floor.screen := by
  apply floor_invariant (P := fun f => P f.screen) hstage (fun _ _ h => h) ?_ hreach h₀
  intro f p f' h hinsert
  rw [(Floor.insert?_kept hinsert).2.2.2]
  exact h

end Newsroom.Launch
