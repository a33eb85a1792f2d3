import Newsroom.Proofs.Launch.Staffed

/-!
# Launches with a display that does not panic

What holds between two steps of a launch when every stage can be started and the
display does not panic.

## Main Definitions

* `Launch.Regular` — the floor is in order, no stage has panicked, and the launcher waits
  only for stages that it has started
* `Launch.IsComplete` — the launcher has returned and all stages are finished

## Main Statements

* `regular_of_reachable` — all states of such a launch are regular
* `Regular.complete_of_returned`, `Regular.drained_of_returned` — when the launcher has
  returned all stages are finished, and nothing is left on the floor
* `Regular.progress` — in a regular launch that is not complete something can happen
  that is not a vain look
* `Regular.work_step` — every move but a vain look uses up work
* `Regular.exists_complete` — a regular launch can be completed
-/

namespace Newsroom.Launch

variable {ρ α : Type}

/-- The floor is in order, no stage has panicked, and the launcher goes on. -/
structure Regular (l : Launch ρ α) : Prop where
  orderly : l.floor.Orderly
  awake : l.floor.screen.phase ≠ .panicked
  fits : l.Fits

/-- The launcher has returned without a fault, and every stage is finished. -/
def IsComplete (l : Launch ρ α) : Prop :=
  l.phase = .returned none ∧ ∀ a ∈ l.floor.actors, l.floor.standing a = .finished

variable [CategorySource ρ] [Payload α] {setup : Setup} {l l' : Launch ρ α}

/-! ### Steps -/

/-- A display that never panics keeps the screen manager at work. -/
theorem awake_step {sink : Sink} {f f' : Floor ρ α} {a : Actor} (hsink : sink.NeverPanics)
    (hawake : f.screen.phase ≠ .panicked) (hstep : Floor.Step sink f a f') :
    f'.screen.phase ≠ .panicked := by
  cases hstep with
  | display hphase hm => exact Screen.phase_took hsink hphase _
  | finish hphase => simp [Screen.phase_close hsink hphase]
  | _ => exact hawake

omit [CategorySource ρ] [Payload α] in
theorem Regular.staffed (h : l.Regular) : l.Staffed :=
  ⟨h.orderly, .inl h.fits⟩

omit [CategorySource ρ] [Payload α] in
/-- A staffed launch is regular as long as the screen manager has not panicked. -/
theorem Staffed.regular (h : l.Staffed) (hawake : l.floor.screen.phase ≠ .panicked) :
    l.Regular :=
  ⟨h.orderly, hawake, h.stands.resolve_right fun hr => standing_ne_panicked hawake _ hr.2⟩

theorem Regular.step {m : Move} (h : l.Regular) (hable : setup.failAt = none)
    (hsink : setup.sink.NeverPanics) (hstep : Step setup l m l') : l'.Regular := by
  refine (h.staffed.step hable hstep).regular ?_
  cases m with
  | launcher =>
      rw [hstep.launcher_kept.2.2.1]
      exact h.awake
  | stage a =>
      cases hstep with
      | stage hstarted hfloor => exact awake_step hsink h.awake hfloor

/-- All states of a launch are regular if every stage can be started and the display
does not panic. -/
theorem regular_of_reachable {l₀ : Launch ρ α} (hable : setup.failAt = none)
    (hsink : setup.sink.NeverPanics) (h₀ : l₀.Regular)
    (hreach : Schedule.Reachable (step? setup) l₀ l) : l.Regular :=
  hreach.invariant h₀ fun _ _ _ h hstep => h.step hable hsink (step?_eq_some_iff.1 hstep)

/-- What the steps of stages on a floor in order keep, and reports, holds on the floor
of every such launch that began with it. -/
theorem regular_floor_invariant {P : Floor ρ α → Prop} {l₀ : Launch ρ α}
    (hable : setup.failAt = none) (hsink : setup.sink.NeverPanics)
    (hstage : ∀ f a f', f.Orderly → P f → Floor.Step setup.sink f a f' → P f')
    (hlog : ∀ f es, P f → P (f.log es)) (hregular : l₀.Regular)
    (hreach : Schedule.Reachable (step? setup) l₀ l) (h₀ : P l₀.floor) : P l.floor := by
  have hkept : l.Regular ∧ P l.floor := by
    refine hreach.invariant (P := fun l => l.Regular ∧ P l.floor) ⟨hregular, h₀⟩ ?_
    rintro l m l' ⟨h, hP⟩ hstep
    have hstep := step?_eq_some_iff.1 hstep
    refine ⟨h.step hable hsink hstep, ?_⟩
    cases hstep with
    | stage hstarted hfloor => exact hstage _ _ _ h.orderly hP hfloor
    | start => exact hP
    | fail => exact hlog _ _ hP
    | allStarted => exact hP
    | mark hphase => simpa [Fits, hphase] using h.fits
    | clear => exact hlog _ _ hP
    | giveUp => exact hP
    | join => exact hlog _ _ hP
    | joinPanicked => exact hlog _ _ hP
    | report => exact hlog _ _ hP
  exact hkept.2

omit [CategorySource ρ] [Payload α] in
/-- A launch of a floor on which nothing has happened. -/
theorem regular_of_fresh {f : Floor ρ α} (h : f.Fresh) (es : List Event) :
    Regular { floor := f.log es } where
  orderly := h.orderly.log es
  awake := by simp [Floor.log, h.screen]
  fits := trivial

omit [CategorySource ρ] [Payload α] in
/-- A pipeline that was built is launched in a regular state. -/
theorem regular_ofPipeline [SeededSource ρ] {c : Config} {o : Overrides} {randomSeed : UInt64}
    {p : Pipeline α} (hbuild : Pipeline.build c o randomSeed = .ok p) :
    (ofPipeline p : Launch ρ α).Regular :=
  regular_of_fresh (Pipeline.build_fresh hbuild) _

/-! ### The end -/

omit [CategorySource ρ] [Payload α] in
/-- A launch is complete when the launcher has returned. -/
theorem Regular.complete_of_returned (h : l.Regular) (hreturned : l.result?.isSome = true) :
    l.IsComplete := by
  have hfits := h.fits
  cases hphase : l.phase with
  | starting => simp [result?, hphase] at hreturned
  | unwinding marks stages fault => simp [result?, hphase] at hreturned
  | waiting stages => simp [result?, hphase] at hreturned
  | returned fault? =>
      cases fault? with
      | some fault => simp [Fits, hphase] at hfits
      | none =>
          simp only [Fits, hphase] at hfits
          exact ⟨hphase, hfits⟩

omit [CategorySource ρ] [Payload α] in
/-- When the launcher has returned, it has a report, nothing is left on the floor, and
the last line was shown. -/
theorem Regular.drained_of_returned (h : l.Regular) (hreturned : l.result?.isSome = true) :
    l.phase = .returned none ∧ l.floor.Drained ∧ l.floor.screen.phase = .finished := by
  obtain ⟨hphase, hfinished⟩ := h.complete_of_returned hreturned
  have hscreen := Floor.phase_of_standing_screen (hfinished .screen (by simp [Floor.actors]))
  have hcounting := h.orderly.counting
  simp only [Screen.Counting, hscreen] at hcounting
  exact ⟨hphase, h.orderly.drained hcounting, hscreen⟩

/-! ### Progress -/

/-- Until a launch is complete something can happen that is not a vain look. -/
theorem Regular.progress (h : l.Regular) (hable : setup.failAt = none) (hnot : ¬ l.IsComplete) :
    ∃ m l', step? setup l m = some l' ∧ l.isVain m = false := by
  refine h.staffed.progress hable ?_
  exact Option.not_isSome_iff_eq_none.1 fun hreturned => hnot (h.complete_of_returned hreturned)

/-- Every move uses up work, unless it is a vain look. -/
theorem Regular.work_step {m : Move} (h : l.Regular) (hable : setup.failAt = none)
    (hstep : Step setup l m l') : l'.work + (if l.isVain m then 0 else 1) ≤ l.work :=
  h.staffed.work_step hable hstep

/-- A regular launch can be completed. -/
theorem Regular.exists_complete (h : l.Regular) (hable : setup.failAt = none)
    (hsink : setup.sink.NeverPanics) :
    ∃ l', Schedule.Reachable (step? setup) l l' ∧ l'.IsComplete := by
  obtain ⟨l', hreach, hreturned⟩ := h.staffed.exists_returned hable
  have hregular := regular_of_reachable hable hsink h hreach
  exact ⟨l', hreach, hregular.complete_of_returned hreturned⟩

end Newsroom.Launch
