import Newsroom.Proofs.Launch.FailedStart
import Newsroom.Proofs.Launch.Regular

/-!
# Launches in which a stage does not start

The launcher ends the stages that it has started, whatever they do in the meantime.

## Main Definitions

* `Unstartable`, `FailsAt` — a stage of the floor is the one that cannot be started
* `Clearing` — some end marks and some stages are left to the launcher, with a bound for
  what is still to happen
* `Unwinding` — how far a launch has come in which a stage cannot be started

## Main Statements

* `Clearing.step`, `Clearing.mark`, `Clearing.clear` — what the stages and the launcher do
  lowers the bound
* `Unwinding.step` — every move but a vain look lowers the bound
* `Unwinding.progress_of_calm` — until the launcher has returned something can happen that is
  not a vain look, unless an article has made the display panic
* `Unwinding.exists_returned_of_calm` — the launcher can return
* `Unwinding.of_returned`, `Clearing.drained` — how things stand when it has

## Design Notes

The bound counts the work on the floor with stand-ins (`Covers`).  What was meant for the
missing stages, on the floor without, is never done.
-/

namespace Newsroom.Launch

variable {ρ α : Type}

/-- The stage of a rank is on the floor, and `fault` tells that it cannot be started. -/
structure Unstartable (setup : Setup) (k : Nat) (fault : PipelineFault) (l : Launch ρ α) :
    Prop where
  failAt : setup.failAt = some k
  rank_lt : k < l.floor.actors.length
  fault_eq : ∀ a, l.floor.actors[k]? = some a → fault = .spawn (l.floor.stageName a) setup.cause

/-- The same, and the screen manager has not panicked. -/
structure FailsAt (setup : Setup) (k : Nat) (fault : PipelineFault) (l : Launch ρ α) : Prop
    extends Unstartable setup k fault l where
  awake : l.floor.screen.phase ≠ .panicked

/-- The launcher has some end marks to send and waits for some of the stages that were
started, while at most `w` steps are left to both. -/
structure Clearing (k : Nat) (marks : List Place) (stages : List Actor) (f : Floor ρ α)
    (w : Nat) : Prop where
  left : ∀ a, rank a < k → f.standing a ≠ .working ∨ a ∈ stages
  started : ∀ a ∈ stages, rank a < k
  covered : ∃ v : Floor ρ α, v.Orderly ∧ Covers k marks f v ∧
    v.work + marks.length + stages.length ≤ w

/-- How far a launch has come whose stage of rank `k` cannot be started.  At most `w` moves
are still to come, vain looks apart. -/
def Unwinding (k : Nat) (fault : PipelineFault) (l : Launch ρ α) (w : Nat) : Prop :=
  match l.phase with
  | .starting => l.started ≤ k ∧ l.floor.Orderly ∧ Untouched l.started l.floor ∧ l.work ≤ w
  | .unwinding marks stages fault' =>
      fault' = fault ∧ l.started = k ∧ 0 < w ∧ Clearing k marks stages l.floor (w - 1)
  | .returned (some fault') => fault' = fault ∧ l.started = k ∧ Clearing k [] [] l.floor w
  | _ => False

variable [CategorySource ρ] [Payload α] {setup : Setup} {sink : Sink} {k w : Nat}
  {fault : PipelineFault} {f f' : Floor ρ α} {l l' : Launch ρ α} {p : Place} {marks : List Place}
  {a : Actor} {stages : List Actor}

/-! ### Clearing -/

/-- A stage that was started takes a step. -/
theorem Clearing.step (h : Clearing k marks stages f w) (ha : rank a < k)
    (hstep : Floor.Step sink f a f') :
    ∃ w', Clearing k marks stages f' w' ∧
      w' + (if a = .dispatcher ∧ f.looksInVain = true then 0 else 1) ≤ w := by
  obtain ⟨v, horder, hcovers, hwork⟩ := h.covered
  obtain ⟨v', hstep', hcovers'⟩ := hcovers.step ha hstep
  have hless := horder.work_step hstep'
  have hvain : a = .dispatcher ∧ v.looksInVain = true ↔
      a = .dispatcher ∧ f.looksInVain = true := by
    refine and_congr_right fun hdispatcher => ?_
    rw [hcovers.looksInVain_eq (hdispatcher ▸ ha)]
  rw [if_congr hvain rfl rfl] at hless
  refine ⟨v'.work + marks.length + stages.length, ⟨fun b hb => ?_, h.started, ?_⟩, by omega⟩
  · refine (h.left b hb).imp_left fun hended => ?_
    rwa [hstep.standing_of_ended hended]
  · exact ⟨v', horder.step hstep', hcovers', Nat.le_refl _⟩

/-- The launcher sends an end mark. -/
theorem Clearing.mark (sink : Sink) (h : Clearing k (p :: marks) stages f w)
    (hinsert : f.insert? p .done = some f') : ∃ w', Clearing k marks stages f' w' ∧ w' + 1 ≤ w := by
  obtain ⟨v, horder, hcovers, hwork⟩ := h.covered
  obtain ⟨v', hsent, hcovers'⟩ :
      ∃ v', (v' = v ∨ ∃ a, Floor.Step sink v a v') ∧ Covers k marks f' v' :=
    hcovers.mark horder hinsert
  have hkept : v'.Orderly ∧ v'.work ≤ v.work := by
    rcases hsent with rfl | ⟨a, hstep⟩
    · exact ⟨horder, Nat.le_refl _⟩
    · exact ⟨horder.step hstep, Nat.le_of_add_right_le (horder.work_step hstep)⟩
  have hstanding : ∀ a, f'.standing a = f.standing a := by
    obtain ⟨hproducers, hdispatcher, hcoEditors, hscreen⟩ := Floor.insert?_kept hinsert
    intro a
    cases a <;> simp only [Floor.standing, hproducers, hdispatcher, hcoEditors, hscreen]
  have hless := hkept.2
  rw [List.length_cons] at hwork
  refine ⟨v'.work + marks.length + stages.length, ⟨fun b hb => ?_, h.started, ?_⟩, by omega⟩
  · rw [hstanding]
    exact h.left b hb
  · exact ⟨v', hkept.1, hcovers', Nat.le_refl _⟩

omit [CategorySource ρ] [Payload α] in
/-- The launcher joins a stage. -/
theorem Clearing.clear (h : Clearing k [] (a :: stages) f w) (hended : f.standing a ≠ .working)
    (es : List Event) : ∃ w', Clearing k [] stages (f.log es) w' ∧ w' + 1 ≤ w := by
  obtain ⟨v, horder, hcovers, hwork⟩ := h.covered
  have hstanding : ∀ b, (f.log es).standing b = f.standing b := by
    intro b
    cases b <;> rfl
  rw [List.length_cons] at hwork
  refine ⟨v.work + 0 + stages.length, ⟨fun b hb => ?_, fun b hb => ?_, ?_⟩, by omega⟩
  · rw [hstanding]
    rcases h.left b hb with hleft | hmem
    · exact .inl hleft
    · rcases List.mem_cons.1 hmem with rfl | hrest
      · exact .inl hended
      · exact .inr hrest
  · exact h.started b (List.mem_cons_of_mem _ hb)
  · exact ⟨v.log es, horder.log es, hcovers.log es, Nat.le_refl _⟩

omit [CategorySource ρ] [Payload α] in
/-- All stages before one on the floor are waited for when it cannot be started. -/
theorem mem_unwindOrder {n : Nat} (ha : rank a < n + 5) : a ∈ unwindOrder n := by
  cases a with
  | screen => simp [unwindOrder]
  | coEditor c => simp [unwindOrder, Category.mem_all]
  | dispatcher => simp [unwindOrder]
  | producer i =>
      have hi : i < n := by
        simp only [rank] at ha
        omega
      simp [unwindOrder, hi]

omit [CategorySource ρ] [Payload α] in
theorem isStarted_iff : l.isStarted a = true ↔ rank a < l.started := by
  simp [isStarted]

omit [CategorySource ρ] [Payload α] in
/-- When a start has failed, there is less to clear than there was to do. -/
theorem clearing_of_fail (horder : l.floor.Orderly) (huntouched : Untouched l.started l.floor)
    (hlt : l.started < l.floor.actors.length) (es : List Event) :
    Clearing l.started (marksFor l.started l.floor.producers.length)
      ((unwindOrder l.floor.producers.length).filter l.isStarted) (l.floor.log es)
      (l.floor.work + 2 * l.floor.actors.length + 2) := by
  obtain ⟨v, hv, hcovers, hless⟩ := exists_covers horder huntouched
  have hactors := l.floor.length_actors
  refine ⟨fun a ha => .inr ?_, fun a ha => ?_, v.log es, hv.log es, hcovers.log es, ?_⟩
  · exact List.mem_filter.2 ⟨mem_unwindOrder (by omega), isStarted_iff.2 ha⟩
  · exact isStarted_iff.1 (List.mem_filter.1 ha).2
  · have hmarks := length_marksFor_le l.started l.floor.producers.length
    have hstages := List.length_filter_le l.isStarted (unwindOrder l.floor.producers.length)
    have hlength : (unwindOrder l.floor.producers.length).length =
        l.floor.producers.length + 5 := by
      simp [unwindOrder, Category.all]
    have hlog : (v.log es).work = v.work := rfl
    omega

/-! ### Steps -/

omit [CategorySource ρ] [Payload α] in
/-- The launcher starts stages, clears, or has returned. -/
theorem Unwinding.phase_cases (h : Unwinding k fault l w) :
    (l.phase = .starting ∧ l.started ≤ k ∧ l.floor.Orderly ∧ Untouched l.started l.floor ∧
        l.work ≤ w) ∨
      (∃ marks stages, l.phase = .unwinding marks stages fault ∧ l.started = k ∧ 0 < w ∧
        Clearing k marks stages l.floor (w - 1)) ∨
      (l.phase = .returned (some fault) ∧ l.started = k ∧ Clearing k [] [] l.floor w) := by
  unfold Unwinding at h
  cases hphase : l.phase with
  | starting =>
      simp only [hphase] at h
      exact .inl ⟨rfl, h⟩
  | unwinding marks stages fault' =>
      simp only [hphase] at h
      obtain ⟨rfl, h⟩ := h
      exact .inr (.inl ⟨marks, stages, rfl, h⟩)
  | waiting stages => simp [hphase] at h
  | returned fault? =>
      cases fault? with
      | none => simp [hphase] at h
      | some fault' =>
          simp only [hphase] at h
          obtain ⟨rfl, h⟩ := h
          exact .inr (.inr ⟨rfl, h⟩)

/-- What the stages do while others are being started or ended. -/
private theorem Unwinding.step_stage {floor : Floor ρ α} (h : Unwinding k fault l w)
    (hstarted : l.isStarted a = true) (hfloor : Floor.Step setup.sink l.floor a floor) :
    ∃ w', Unwinding k fault { l with floor } w' ∧
      w' + (if l.isVain (.stage a) then 0 else 1) ≤ w := by
  have hrank := isStarted_iff.1 hstarted
  simp only [isVain_stage_iff]
  rcases h.phase_cases with ⟨hphase, hle, horder, huntouched, hwork⟩ |
      ⟨marks, stages, hphase, hk, hpos, hclearing⟩ | ⟨hphase, hk, hclearing⟩
  · have hless := horder.work_step hfloor
    simp only [Unwinding, hphase]
    refine ⟨_, ⟨hle, horder.step hfloor, huntouched.step hrank hfloor, Nat.le_refl _⟩, ?_⟩
    simp only [work, hphase, hfloor.actors_eq] at hwork ⊢
    omega
  · obtain ⟨w', hclearing', hless⟩ := hclearing.step (hk ▸ hrank) hfloor
    simp only [Unwinding, hphase]
    exact ⟨w' + 1, ⟨trivial, hk, Nat.succ_pos _, hclearing'⟩, by omega⟩
  · obtain ⟨w', hclearing', hless⟩ := hclearing.step (hk ▸ hrank) hfloor
    simp only [Unwinding, hphase]
    exact ⟨w', ⟨trivial, hk, hclearing'⟩, hless⟩

/-- Every move but a vain look lowers the bound. -/
theorem Unwinding.step {m : Move} (h : Unwinding k fault l w)
    (hfails : Unstartable setup k fault l) (hstep : Step setup l m l') :
    ∃ w', Unwinding k fault l' w' ∧ w' + (if l.isVain m then 0 else 1) ≤ w := by
  have hlauncher : (if l.isVain .launcher then 0 else 1) = 1 := rfl
  cases hstep with
  | stage hstarted hfloor => exact h.step_stage hstarted hfloor
  | @start a hphase hnext hable =>
      simp only [Unwinding, hphase] at h ⊢
      obtain ⟨hle, horder, huntouched, hwork⟩ := h
      have hne : l.started ≠ k := fun heq => hable (heq ▸ hfails.failAt)
      have hlt := hfails.rank_lt
      refine ⟨_, ⟨Nat.lt_of_le_of_ne hle hne, horder, huntouched.succ, Nat.le_refl _⟩, ?_⟩
      simp only [work, hphase] at hwork ⊢
      omega
  | @fail a fault' hphase hnext hunable hfault =>
      simp only [Unwinding, hphase] at h ⊢
      obtain ⟨hle, horder, huntouched, hwork⟩ := h
      have hk : l.started = k := Option.some.inj (hunable.symm.trans hfails.failAt)
      subst hk
      have hsame : fault' = fault := hfault.trans (hfails.fault_eq a hnext).symm
      refine ⟨l.floor.work + 2 * l.floor.actors.length + 2 + 1, ⟨hsame, rfl, Nat.succ_pos _,
        clearing_of_fail horder huntouched hfails.rank_lt [.startFailed fault']⟩, ?_⟩
      simp only [work, hphase] at hwork
      omega
  | allStarted hphase hnone =>
      simp only [Unwinding, hphase] at h
      have hge := List.getElem?_eq_none_iff.1 hnone
      exact absurd (Nat.lt_of_le_of_lt h.1 hfails.rank_lt) (Nat.not_lt.2 hge)
  | mark hphase hinsert =>
      simp only [Unwinding, hphase] at h ⊢
      obtain ⟨hfault, hk, hpos, hclearing⟩ := h
      obtain ⟨w', hclearing', hless⟩ := Clearing.mark setup.sink hclearing hinsert
      exact ⟨w' + 1, ⟨hfault, hk, Nat.succ_pos _, hclearing'⟩, by omega⟩
  | @clear a as fault' r hphase hjoin =>
      simp only [Unwinding, hphase] at h ⊢
      obtain ⟨hfault, hk, hpos, hclearing⟩ := h
      have hended : l.floor.standing a ≠ .working := by
        intro hstanding
        simp [join?, hstanding] at hjoin
      obtain ⟨w', hclearing', hless⟩ := hclearing.clear hended r.events
      exact ⟨w' + 1, ⟨hfault, hk, Nat.succ_pos _, hclearing'⟩, by omega⟩
  | giveUp hphase =>
      simp only [Unwinding, hphase] at h ⊢
      obtain ⟨hfault, hk, hpos, hclearing⟩ := h
      exact ⟨w - 1, ⟨hfault, hk, hclearing⟩, by omega⟩
  | join hphase hstanding => simp [Unwinding, hphase] at h
  | joinPanicked hphase hstanding => simp [Unwinding, hphase] at h
  | report hphase => simp [Unwinding, hphase] at h

/-! ### The dispatcher -/

omit [CategorySource ρ] [Payload α] in
theorem Clearing.dispatcher (h : Clearing k marks stages f w) (hrank : rank .dispatcher < k) :
    f.dispatcher.Steady ∧ f.dispatcher.Prompt := by
  obtain ⟨v, horder, hcovers, -⟩ := h.covered
  rw [← (hcovers.dispatcher_eq hrank).1]
  exact ⟨horder.steady, horder.prompt⟩

omit [CategorySource ρ] [Payload α] in
/-- A dispatcher that was started goes through its sources as in any other launch. -/
theorem Unwinding.dispatcher (h : Unwinding k fault l w)
    (hstarted : l.isStarted .dispatcher = true) :
    l.floor.dispatcher.Steady ∧ l.floor.dispatcher.Prompt := by
  have hrank := isStarted_iff.1 hstarted
  rcases h.phase_cases with ⟨-, -, horder, -⟩ | ⟨marks, stages, -, hk, -, hclearing⟩ |
      ⟨-, hk, hclearing⟩
  · exact ⟨horder.steady, horder.prompt⟩
  · exact hclearing.dispatcher (hk ▸ hrank)
  · exact hclearing.dispatcher (hk ▸ hrank)

/-! ### Progress -/

/-- Until the launcher has returned something can happen that is not a vain look, unless an
article has made the display panic. -/
theorem Unwinding.progress_of_calm (h : Unwinding k fault l w)
    (hfails : Unstartable setup k fault l) (hcalm : l.floor.screen.Calm)
    (hnot : l.result? = none) : ∃ m l', step? setup l m = some l' ∧ l.isVain m = false := by
  rcases h.phase_cases with ⟨hphase, hle, -⟩ | ⟨marks, stages, hphase, hk, -, hclearing⟩ |
      ⟨hphase, -⟩
  · have hnext := List.getElem?_eq_getElem (Nat.lt_of_le_of_lt hle hfails.rank_lt)
    by_cases hfail : setup.failAt = some l.started
    · exact ⟨.launcher, _, (Step.fail hphase hnext hfail rfl).step?_eq, rfl⟩
    · exact ⟨.launcher, _, (Step.start hphase hnext hfail).step?_eq, rfl⟩
  · obtain ⟨v, horder, hcovers, -⟩ := hclearing.covered
    cases marks with
    | cons p marks =>
        rcases hcovers.mark_or_step horder hcalm with ⟨floor, hinsert⟩ | ⟨hpos, f', hstep⟩
        · exact ⟨.launcher, _, (Step.mark hphase hinsert).step?_eq, rfl⟩
        · have hstarted : l.isStarted .screen = true := isStarted_iff.2 (hk ▸ hpos)
          exact ⟨.stage .screen, _, (Step.stage hstarted hstep).step?_eq, rfl⟩
    | nil =>
        rcases hcovers.ended_or_step horder hcalm with hended | ⟨a, f', ha, hstep, hbusy⟩
        · cases stages with
          | nil => exact ⟨.launcher, _, (Step.giveUp hphase).step?_eq, rfl⟩
          | cons a stages =>
              obtain ⟨r, hjoin⟩ := exists_join? (hended a (hclearing.started a List.mem_cons_self))
              exact ⟨.launcher, _, (Step.clear hphase hjoin).step?_eq, rfl⟩
        · have hstarted : l.isStarted a = true := isStarted_iff.2 (hk ▸ ha)
          refine ⟨.stage a, _, (Step.stage hstarted hstep).step?_eq, ?_⟩
          exact Bool.eq_false_iff.2 fun hvain => hbusy (isVain_stage_iff.1 hvain)
  · simp [result?, hphase] at hnot

/-- Until the launcher has returned something can happen that is not a vain look. -/
theorem Unwinding.progress (h : Unwinding k fault l w) (hfails : FailsAt setup k fault l)
    (hnot : l.result? = none) : ∃ m l', step? setup l m = some l' ∧ l.isVain m = false :=
  h.progress_of_calm hfails.toUnstartable (fun hpanicked => absurd hpanicked hfails.awake) hnot

/-- A launch is unwound in a bounded number of moves that are no vain looks, unless an
article makes the display panic. -/
theorem Unwinding.exists_returned_of_calm (h : Unwinding k fault l w)
    (hfails : ∀ l', Schedule.Reachable (step? setup) l l' →
      Unstartable setup k fault l' ∧ l'.floor.screen.Calm) :
    ∃ l', Schedule.Reachable (step? setup) l l' ∧ l'.result?.isSome = true := by
  have hprogress : ∀ l' n, (Schedule.Reachable (step? setup) l l' ∧ Unwinding k fault l' n) →
      ¬ l'.result?.isSome = true → ∃ m l'' n', step? setup l' m = some l'' ∧
        (Schedule.Reachable (step? setup) l l'' ∧ Unwinding k fault l'' n') ∧ n' < n := by
    rintro l' n ⟨hreach, h'⟩ hnot
    obtain ⟨hfails', hcalm⟩ := hfails l' hreach
    obtain ⟨m, l'', hstep, hvain⟩ := h'.progress_of_calm hfails' hcalm (by simpa using hnot)
    obtain ⟨n', h'', hless⟩ := h'.step hfails' (step?_eq_some_iff.1 hstep)
    rw [if_neg (by simp [hvain])] at hless
    exact ⟨m, l'', n', hstep, ⟨hreach.step hstep, h''⟩, hless⟩
  obtain ⟨l', n, hreach, -, hreturned⟩ := Schedule.exists_reachable_of_bound hprogress ⟨.start, h⟩
  exact ⟨l', hreach, hreturned⟩

/-- A launch is unwound in a bounded number of moves that are no vain looks. -/
theorem Unwinding.exists_returned (h : Unwinding k fault l w)
    (hfails : ∀ l', Schedule.Reachable (step? setup) l l' → FailsAt setup k fault l') :
    ∃ l', Schedule.Reachable (step? setup) l l' ∧ l'.result?.isSome = true :=
  h.exists_returned_of_calm fun l' hreach =>
    ⟨(hfails l' hreach).toUnstartable, fun hpanicked => absurd hpanicked (hfails l' hreach).awake⟩

omit [CategorySource ρ] [Payload α] in
/-- A launcher that has returned has told the fault, and has nothing left to clear. -/
theorem Unwinding.of_returned (h : Unwinding k fault l w) (hreturned : l.result?.isSome = true) :
    l.result? = some (.error fault) ∧ l.started = k ∧ Clearing k [] [] l.floor w := by
  rcases h.phase_cases with ⟨hphase, -⟩ | ⟨marks, stages, hphase, -⟩ | ⟨hphase, hk, hclearing⟩
  · simp [result?, hphase] at hreturned
  · simp [result?, hphase] at hreturned
  · exact ⟨by simp only [result?, hphase], hk, hclearing⟩

omit [CategorySource ρ] [Payload α] in
/-- When nothing is left to clear, all stages that were started have ended. -/
theorem Clearing.ended (h : Clearing k [] [] f w) (ha : rank a < k) : f.standing a ≠ .working :=
  (h.left a ha).resolve_right List.not_mem_nil

omit [CategorySource ρ] [Payload α] in
/-- If no stage has panicked, they are then finished. -/
theorem Clearing.finished (h : Clearing k [] [] f w) (hawake : f.screen.phase ≠ .panicked)
    (ha : rank a < k) : f.standing a = .finished := by
  cases hstanding : f.standing a with
  | working => exact absurd hstanding (h.ended ha)
  | finished => rfl
  | panicked => exact absurd hstanding (standing_ne_panicked hawake a)

omit [CategorySource ρ] [Payload α] in
/-- The screen manager has then counted all end marks, and nothing is left on the floor with
stand-ins. -/
theorem Clearing.drained (h : Clearing k [] [] f w) (hawake : f.screen.phase ≠ .panicked)
    (hpos : 0 < k) :
    f.screen.phase = .finished ∧
      f.screen.report.sentinelsReceived = Screen.sentinelsExpected ∧
      ∃ v : Floor ρ α, v.Orderly ∧ Covers k [] f v ∧ v.Drained := by
  obtain ⟨v, horder, hcovers, -⟩ := h.covered
  have hscreen := Floor.phase_of_standing_screen (h.finished hawake hpos)
  have hcounting := horder.counting
  simp only [Screen.Counting, hcovers.screen_eq hpos, hscreen] at hcounting
  refine ⟨hscreen, hcounting, v, horder, hcovers, horder.drained ?_⟩
  rw [hcovers.screen_eq hpos, hcounting]

end Newsroom.Launch
