import Newsroom.Proofs.Build
import Newsroom.Proofs.Floor.Progress
import Newsroom.Proofs.Launch.Step

/-!
# Launches in which every stage starts

What holds between two steps of a launch when every stage can be started, whatever its
display does.

## Main Definitions

* `Launch.Fits` — the launcher waits only for stages that it has started
* `Launch.Staffed` — the floor is in order, and the launcher goes on or has seen the
  screen manager panic
* `Launch.isVain` — whether a move is a vain look

## Main Statements

* `staffed_of_reachable` — all states of such a launch are staffed
* `Staffed.progress` — until the launcher has returned something can happen that is not a
  vain look
* `Staffed.work_step` — every move but a vain look uses up work
* `Staffed.exists_returned` — the launcher can always return
* `Staffed.of_returned` — how the stages stand when it has

## Design Notes

A screen manager that has panicked takes no more messages, so that the stages before it
may wait for ever.  The launcher joins the screen manager first, and does not wait for
the others then.
-/

namespace Newsroom.Launch

variable {ρ α : Type}

/-- Where the launcher stands, when every stage can be started. -/
def Fits (l : Launch ρ α) : Prop :=
  match l.phase with
  | .starting => True
  | .waiting stages =>
      l.floor.actors.length ≤ l.started ∧
        ∃ joined, l.floor.actors = joined ++ stages ∧ ∀ a ∈ joined, l.floor.standing a = .finished
  | .returned none => ∀ a ∈ l.floor.actors, l.floor.standing a = .finished
  | _ => False

/-- The floor is in order, and the launcher goes on or has seen the screen manager
panic. -/
structure Staffed (l : Launch ρ α) : Prop where
  orderly : l.floor.Orderly
  stands : l.Fits ∨
    l.phase = .returned (some (.stagePanicked Screen.name)) ∧
      l.floor.standing .screen = .panicked

/-- A move is a look of the dispatcher at a source that takes no message and leaves
the state of the source as it is. -/
def isVain (l : Launch ρ α) : Move → Bool
  | .stage .dispatcher => l.floor.looksInVain
  | _ => false

theorem isVain_stage_iff {l : Launch ρ α} {a : Actor} :
    l.isVain (.stage a) = true ↔ a = .dispatcher ∧ l.floor.looksInVain = true := by
  cases a <;> simp [isVain]

/-! ### Panics -/

/-- Only the screen manager panics. -/
theorem screen_of_panicked {f : Floor ρ α} {a : Actor} (h : f.standing a = .panicked) :
    a = .screen ∧ f.screen.phase = .panicked := by
  cases a with
  | screen => cases hphase : f.screen.phase <;> simp_all [Floor.standing]
  | coEditor c => cases hphase : (f.coEditors.get c).phase <;> simp [Floor.standing, hphase] at h
  | dispatcher => cases hphase : f.dispatcher.phase <;> simp [Floor.standing, hphase] at h
  | producer i =>
      cases hp : f.producers[i]? with
      | none => simp [Floor.standing, hp] at h
      | some p => cases hfinished : p.isFinished <;> simp [Floor.standing, hp, hfinished] at h

/-- A panic is seen only at the screen manager. -/
theorem standing_ne_panicked {f : Floor ρ α} (hawake : f.screen.phase ≠ .panicked) (a : Actor) :
    f.standing a ≠ .panicked :=
  fun h => hawake (screen_of_panicked h).2

theorem standing_screen_of_panicked {f : Floor ρ α} (h : f.screen.phase = .panicked) :
    f.standing .screen = .panicked := by
  simp [Floor.standing, h]

variable [CategorySource ρ] [Payload α] {setup : Setup} {l l' : Launch ρ α}

/-! ### Steps -/

omit [CategorySource ρ] [Payload α] in
/-- Until the launcher has returned it waits only for stages that it has started. -/
theorem Staffed.fits (h : l.Staffed) (hgoing : l.result? = none) : l.Fits := by
  rcases h.stands with hfits | ⟨hphase, -⟩
  · exact hfits
  · simp [result?, hphase] at hgoing

/-- The launcher stays where it is when a stage takes a step, and the stages that it has
joined stay finished. -/
theorem Fits.step_stage {sink : Sink} {a : Actor} {floor : Floor ρ α} (h : l.Fits)
    (hfloor : Floor.Step sink l.floor a floor) : Fits { l with floor } := by
  unfold Fits at h ⊢
  cases hphase : l.phase with
  | starting => trivial
  | unwinding marks stages fault => simp [hphase] at h
  | waiting stages =>
      simp only [hphase] at h
      obtain ⟨hall, joined, hactors, hjoined⟩ := h
      simp only [hfloor.actors_eq]
      exact ⟨hall, joined, hactors, fun b hb => hfloor.standing_finished (hjoined b hb)⟩
  | returned fault? =>
      cases fault? with
      | some fault => simp [hphase] at h
      | none =>
          simp only [hphase] at h
          simp only [hfloor.actors_eq]
          exact fun b hb => hfloor.standing_finished (h b hb)

theorem Staffed.step {m : Move} (h : l.Staffed) (hable : setup.failAt = none)
    (hstep : Step setup l m l') : l'.Staffed := by
  cases hstep with
  | stage hstarted hfloor =>
      refine ⟨h.orderly.step hfloor, h.stands.imp (fun hfits => hfits.step_stage hfloor) ?_⟩
      rintro ⟨hphase, hpanicked⟩
      refine ⟨hphase, ?_⟩
      rw [hfloor.standing_of_ended (by simp [hpanicked]), hpanicked]
  | start hphase => exact ⟨h.orderly, .inl (by simp [Fits, hphase])⟩
  | fail hphase hnext hunable =>
      rw [hable] at hunable
      cases hunable
  | allStarted hphase hnone =>
      exact ⟨h.orderly, .inl ⟨List.getElem?_eq_none_iff.1 hnone, [], rfl, by simp⟩⟩
  | mark hphase => simpa [Fits, hphase] using h.fits (by simp [result?, hphase])
  | clear hphase => simpa [Fits, hphase] using h.fits (by simp [result?, hphase])
  | giveUp hphase => simpa [Fits, hphase] using h.fits (by simp [result?, hphase])
  | @join a as hphase hstanding =>
      have hfits := h.fits (by simp [result?, hphase])
      simp only [Fits, hphase] at hfits
      obtain ⟨hall, joined, hactors, hjoined⟩ := hfits
      refine ⟨h.orderly.log _, .inl ⟨hall, joined ++ [a], ?_, ?_⟩⟩
      · rw [List.append_assoc]
        exact hactors
      · rw [List.forall_mem_append, List.forall_mem_singleton]
        exact ⟨hjoined, hstanding⟩
  | joinPanicked hphase hstanding =>
      obtain ⟨rfl, -⟩ := screen_of_panicked hstanding
      exact ⟨h.orderly.log _, .inr ⟨rfl, hstanding⟩⟩
  | report hphase =>
      have hfits := h.fits (by simp [result?, hphase])
      simp only [Fits, hphase, List.append_nil] at hfits
      obtain ⟨-, joined, hactors, hjoined⟩ := hfits
      refine ⟨h.orderly.log _, .inl fun a ha => hjoined a ?_⟩
      rw [← hactors]
      exact ha

/-- All states of a launch are staffed if every stage can be started. -/
theorem staffed_of_reachable {l₀ : Launch ρ α} (hable : setup.failAt = none) (h₀ : l₀.Staffed)
    (hreach : Schedule.Reachable (step? setup) l₀ l) : l.Staffed :=
  hreach.invariant h₀ fun _ _ _ h hstep => h.step hable (step?_eq_some_iff.1 hstep)

/-! ### Progress -/

/-- A stage that can take a step is one of those that are started. -/
theorem isStarted_of_step {sink : Sink} {a : Actor} {floor : Floor ρ α}
    (hall : l.floor.actors.length ≤ l.started) (hstep : Floor.Step sink l.floor a floor) :
    l.isStarted a = true := by
  rw [Floor.length_actors] at hall
  have hproducer : ∀ (i : Nat) (p : Producer ρ), l.floor.producers[i]? = some p →
      i < l.floor.producers.length := fun i p hp => (List.getElem?_eq_some_iff.1 hp).1
  -- the rank of a stage is its place among all stages
  simp only [isStarted, decide_eq_true_iff]
  cases hstep with
  | write hp hphase =>
      have := hproducer _ _ hp
      simp only [rank]
      omega
  | handOver hp hheld hq hroom =>
      have := hproducer _ _ hp
      simp only [rank]
      omega
  | @take c m r hphase hm =>
      have := c.index_lt
      simp only [rank, Category.count] at this ⊢
      omega
  | @forward c m r hphase hroom =>
      have := c.index_lt
      simp only [rank, Category.count] at this ⊢
      omega
  | _ =>
      simp only [rank]
      omega

omit [CategorySource ρ] [Payload α] in
/-- The screen manager is waited for first, so that none was joined before it panicked. -/
theorem Fits.eq_of_panicked {stages : List Actor} (h : l.Fits) (hphase : l.phase = .waiting stages)
    (hpanicked : l.floor.standing .screen = .panicked) : stages = l.floor.actors := by
  simp only [Fits, hphase] at h
  obtain ⟨-, joined, hactors, hjoined⟩ := h
  cases joined with
  | nil => exact hactors.symm
  | cons b joined =>
      rw [Floor.actors, List.cons_append, List.cons_append, List.cons.injEq] at hactors
      have hfinished := hjoined b List.mem_cons_self
      rw [← hactors.1, hpanicked] at hfinished
      cases hfinished

/-- Until the launcher has returned something can happen that is not a vain look. -/
theorem Staffed.progress (h : l.Staffed) (hable : setup.failAt = none)
    (hgoing : l.result? = none) : ∃ m l', step? setup l m = some l' ∧ l.isVain m = false := by
  have hfits := h.fits hgoing
  cases hphase : l.phase with
  | starting =>
      cases hnext : l.floor.actors[l.started]? with
      | some a => exact ⟨.launcher, _, (Step.start hphase hnext (by simp [hable])).step?_eq, rfl⟩
      | none => exact ⟨.launcher, _, (Step.allStarted hphase hnext).step?_eq, rfl⟩
  | unwinding marks stages fault => simp [Fits, hphase] at hfits
  | waiting stages =>
      by_cases hpanicked : l.floor.screen.phase = .panicked
      · -- the launcher waits for the screen manager and need not wait for the others
        have hstanding := standing_screen_of_panicked hpanicked
        have hstages := hfits.eq_of_panicked hphase hstanding
        rw [hstages] at hphase
        exact ⟨.launcher, _, (Step.joinPanicked hphase hstanding).step?_eq, rfl⟩
      simp only [Fits, hphase] at hfits
      by_cases honly : Floor.OnlyVain setup.sink l.floor
      · -- the launcher need not wait, as no stage is still at work
        have hfinished := h.orderly.finished_of_onlyVain honly hpanicked
        cases stages with
        | nil => exact ⟨.launcher, _, (Step.report hphase).step?_eq, rfl⟩
        | cons a as => exact ⟨.launcher, _, (Step.join hphase (hfinished a)).step?_eq, rfl⟩
      · simp only [Floor.OnlyVain, Classical.not_forall] at honly
        obtain ⟨a, floor, hstep, hbusy⟩ := honly
        refine ⟨.stage a, _, (Step.stage (isStarted_of_step hfits.1 hstep) hstep).step?_eq, ?_⟩
        exact Bool.eq_false_iff.2 fun hvain => hbusy (isVain_stage_iff.1 hvain)
  | returned fault? => cases fault? <;> simp [result?, hphase] at hgoing

/-- Every move uses up work, unless it is a vain look. -/
theorem Staffed.work_step {m : Move} (h : l.Staffed) (hable : setup.failAt = none)
    (hstep : Step setup l m l') : l'.work + (if l.isVain m then 0 else 1) ≤ l.work := by
  have hone : (if l.isVain m then 0 else 1) ≤ 1 := by split <;> decide
  have hlog : ∀ es, (l.floor.log es).work = l.floor.work := fun _ => rfl
  cases hstep with
  | @stage a floor hstarted hfloor =>
      have hless := h.orderly.work_step hfloor
      simp only [isVain_stage_iff, work, hfloor.actors_eq]
      omega
  | start hphase hnext hable =>
      obtain ⟨hlt, -⟩ := List.getElem?_eq_some_iff.1 hnext
      simp only [work, hphase]
      omega
  | fail hphase hnext hunable hfault => simp [hable] at hunable
  | allStarted hphase hnone =>
      have hlength : (waitOrder l.floor.producers.length).length = l.floor.actors.length := rfl
      simp only [work, hphase, hlength]
      omega
  | mark hphase => simpa [Fits, hphase] using h.fits (by simp [result?, hphase])
  | clear hphase => simpa [Fits, hphase] using h.fits (by simp [result?, hphase])
  | giveUp hphase => simpa [Fits, hphase] using h.fits (by simp [result?, hphase])
  | join hphase hstanding =>
      simp only [work, hphase, hlog, List.length_cons]
      omega
  | joinPanicked hphase hstanding =>
      simp only [work, hphase, hlog, List.length_cons]
      omega
  | report hphase =>
      simp only [work, hphase, hlog, List.length_nil]
      omega

/-- The launcher can always return, whatever the display does. -/
theorem Staffed.exists_returned (h : l.Staffed) (hable : setup.failAt = none) :
    ∃ l', Schedule.Reachable (step? setup) l l' ∧ l'.result?.isSome = true := by
  have hprogress : ∀ l : Launch ρ α, l.Staffed → ¬ l.result?.isSome = true →
      ∃ m l', step? setup l m = some l' ∧ l'.work < l.work := by
    intro l h hnot
    obtain ⟨m, l', hstep, hvain⟩ := h.progress hable (by simpa using hnot)
    have hless := h.work_step hable (step?_eq_some_iff.1 hstep)
    rw [if_neg (by simp [hvain])] at hless
    exact ⟨m, l', hstep, hless⟩
  obtain ⟨l', hreach, -, hreturned⟩ := Schedule.exists_reachable_of_progress
    (fun l m l' h hstep => Staffed.step h hable (step?_eq_some_iff.1 hstep)) hprogress h
  exact ⟨l', hreach, hreturned⟩

/-! ### The end -/

omit [CategorySource ρ] [Payload α] in
/-- When the launcher has returned, it has a report and every stage is finished, or it
tells that the screen manager has panicked. -/
theorem Staffed.of_returned {r : Except PipelineFault Report} (h : l.Staffed)
    (hresult : l.result? = some r) :
    (r = .ok l.floor.report ∧ ∀ a ∈ l.floor.actors, l.floor.standing a = .finished) ∨
      (r = .error (.stagePanicked Screen.name) ∧ l.floor.screen.phase = .panicked) := by
  rcases h.stands with hfits | ⟨hphase, hpanicked⟩
  · cases hphase : l.phase with
    | starting => simp [result?, hphase] at hresult
    | unwinding marks stages fault => simp [result?, hphase] at hresult
    | waiting stages => simp [result?, hphase] at hresult
    | returned fault? =>
        cases fault? with
        | some fault => simp [Fits, hphase] at hfits
        | none =>
            simp only [Fits, hphase] at hfits
            simp only [result?, hphase, Option.some.injEq] at hresult
            exact .inl ⟨hresult.symm, hfits⟩
  · simp only [result?, hphase, Option.some.injEq] at hresult
    exact .inr ⟨hresult.symm, (screen_of_panicked hpanicked).2⟩

end Newsroom.Launch
