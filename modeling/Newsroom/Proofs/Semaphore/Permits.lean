import Newsroom.Proofs.Semaphore.Step

/-!
# Permits and wake-ups

Neither a permit of a semaphore nor a wake-up is ever lost, whatever its threads do.

## Main Definitions

* `Threads.Attended` — no more permits are free than wake-ups are on their way, while anyone sleeps
* `Threads.Kept` — and the permits account for the operations
* `Move.isOwn` — the moves that a thread makes of its own accord

## Main Statements

* `LockStep.account`, `LockStep.wakes` — what a thread that holds the lock does to the permits
* `Attended.step`, `Kept.step` — every step keeps the accounts
* `Attended.permits_eq_zero` — no thread sleeps beside a permit once all threads have come to rest
* `Attended.finished_or_asleep` — where the threads then stand
* `keeps_permits_and_wakeups` — the accounts in every state that can be reached

## Design Notes

A permit that is given back is free before anyone has been woken for it, and another thread
may take it in between.  So a sleeper is not promised a permit.  It is promised that for each
free permit a wake-up is on its way: a thread that has still to wake someone, or one that was
woken and has still to look at the count.
-/

namespace Newsroom.Semaphore.Threads

variable {s s' : State} {sem sem' : Semaphore} {t t' : Thread} {m : Move}

/-- The wake-ups that a thread has still to pass on or to answer. -/
def Phase.wakes : Phase → Nat
  | .woken => 1
  | .notifying => 1
  | _ => 0

/-- Permits that account for the threads that sleep. -/
structure Attended (s : State) : Prop where
  word : s.semaphore.permits < Word.limit
  /-- While a thread sleeps, a wake-up is on its way for each permit that is free. -/
  attended : 0 < s.count .asleep → s.semaphore.permits ≤ s.count .notifying + s.count .woken
  fits : ∀ t ∈ s.threads, t.Fits

/-- Permits that account for the operations of all threads as well. -/
structure Kept (initial : Nat) (s : State) : Prop extends Attended s where
  account : s.semaphore.permits + s.total .acquired = initial + s.total .released

/-- Whether a thread makes a move of its own accord: it wakes for no reason, and a failure of
it is caught, when someone else decides. -/
def Move.isOwn : Move → Bool
  | .lock _ => true
  | .wake _ _ => true
  | .stir _ => false
  | .recover _ => false

/-! ### One thread -/

/-- The permits change by what is taken and by what is given back. -/
theorem LockStep.account (h : LockStep sem t sem' t') :
    sem'.permits + t'.effects.count .acquired + t.effects.count .released =
      sem.permits + t.effects.count .acquired + t'.effects.count .released := by
  cases h with
  | take hphase hprogram hpermits =>
      simp only [count_effects_done, reduceCtorEq, if_true, if_false, hpermits]
      omega
  | sleep hphase hprogram hnone => rfl
  | tryTake hphase hprogram hpermits =>
      simp only [count_effects_done, reduceCtorEq, if_true, if_false, hpermits]
      omega
  | refuse hphase hprogram hnone =>
      simp only [count_effects_done, reduceCtorEq, if_false]
      omega
  | release hphase hprogram hword =>
      simp only [count_effects_done, reduceCtorEq, if_true, if_false]
      omega
  | overflow hphase hprogram hfull =>
      simp only [count_effects_done, reduceCtorEq, if_false]
      omega

/-- A permit is taken only where there is one. -/
theorem LockStep.permits_of_acquired (h : LockStep sem t sem' t')
    (hacquired : t'.effects.count .acquired ≠ t.effects.count .acquired) :
    sem.permits = sem'.permits + 1 := by
  cases h with
  | take hphase hprogram hpermits => exact hpermits
  | tryTake hphase hprogram hpermits => exact hpermits
  | sleep hphase hprogram hnone => exact absurd rfl hacquired
  | refuse hphase hprogram hnone => simp [count_effects_done] at hacquired
  | release hphase hprogram hword => simp [count_effects_done] at hacquired
  | overflow hphase hprogram hfull => simp [count_effects_done] at hacquired

theorem LockStep.word (h : LockStep sem t sem' t') (hword : sem.permits < Word.limit) :
    sem'.permits < Word.limit := by
  cases h with
  | take hphase hprogram hpermits =>
      rw [hpermits] at hword
      exact Nat.lt_of_succ_lt hword
  | tryTake hphase hprogram hpermits =>
      rw [hpermits] at hword
      exact Nat.lt_of_succ_lt hword
  | release hphase hprogram hroom => exact hroom
  | _ => exact hword

/-- A thread goes to sleep only if no permit is left.  Otherwise a permit that becomes free
comes with a wake-up, and a wake-up that is answered takes a permit. -/
theorem LockStep.wakes (h : LockStep sem t sem' t') :
    sem'.permits = 0 ∨
      t.phase ≠ .asleep ∧ t'.phase ≠ .asleep ∧
        sem'.permits + t.phase.wakes ≤ sem.permits + t'.phase.wakes := by
  cases h with
  | take hphase hprogram hpermits =>
      rcases hphase with hphase | hphase <;>
        simp [Thread.done, Phase.wakes, hphase, hpermits]
  | sleep hphase hprogram hnone => exact .inl hnone
  | tryTake hphase hprogram hpermits => simp [Thread.done, Phase.wakes, hphase, hpermits]
  | refuse hphase hprogram hnone => exact .inl hnone
  | release hphase hprogram hword => simp [Thread.done, Phase.wakes, hphase]
  | overflow hphase hprogram hfull => simp [Thread.done, Phase.wakes, hphase]

/-! ### All threads -/

/-- The wake-ups on their way after one thread has changed. -/
theorem wakes_set {i : Nat} (ht : s.threads[i]? = some t) (sem' : Semaphore) (t' : Thread) :
    let s' : State := ⟨sem', s.threads.set i t'⟩
    s'.count .notifying + s'.count .woken + t.phase.wakes =
      s.count .notifying + s.count .woken + t'.phase.wakes := by
  intro s'
  have hnotifying := count_set ht sem' t' .notifying
  have hwoken := count_set ht sem' t' .woken
  cases hphase : t.phase <;> cases hphase' : t'.phase <;>
    simp only [hphase, hphase', reduceCtorEq, if_true, if_false] at hnotifying hwoken <;>
    simp only [s', Phase.wakes] <;> omega

/-- A thread that holds the lock leaves the sleepers attended. -/
theorem Attended.lock {i : Nat} (h : Attended s) (ht : s.threads[i]? = some t)
    (hstep : LockStep s.semaphore t sem' t') : Attended ⟨sem', s.threads.set i t'⟩ := by
  refine
    { word := hstep.word h.word
      attended := fun hasleep => ?_
      fits := fits_set h.fits hstep.fits }
  rcases hstep.wakes with hnone | ⟨hawake, hawake', hwakes⟩
  · dsimp only
    omega
  · -- nobody has gone to sleep, so there was a sleeper before
    have hset := count_set ht sem' t' .asleep
    rw [if_neg hawake, if_neg hawake', Nat.add_zero, Nat.add_zero] at hset
    have hattended := h.attended (hset ▸ hasleep)
    have hset := wakes_set ht sem' t'
    dsimp only at hset ⊢
    omega

/-- A step without the lock takes no permit and gives none back. -/
theorem Step.total_eq (h : Step s m s') (hm : ∀ i, m ≠ .lock i) (e : Effect) :
    s'.semaphore = s.semaphore ∧ s'.total e = s.total e := by
  cases h with
  | lock ht hstep => exact absurd rfl (hm _)
  | wake ht hphase hu hasleep =>
      have hfirst := total_enter ht s.semaphore .ready e
      have hsecond := total_enter (s := ⟨s.semaphore, _⟩) hu s.semaphore .woken e
      exact ⟨rfl, hsecond.trans hfirst⟩
  | wakeNobody ht hphase hnobody => exact ⟨rfl, total_enter ht _ _ e⟩
  | stir ht hphase => exact ⟨rfl, total_enter ht _ _ e⟩
  | recover ht hphase => exact ⟨rfl, total_enter ht _ _ e⟩

/-- A permit is taken only where there is one. -/
theorem Step.permits_of_acquired (h : Step s m s')
    (hacquired : s'.total .acquired ≠ s.total .acquired) :
    s.semaphore.permits = s'.semaphore.permits + 1 := by
  by_cases hlock : ∃ i, m = .lock i
  · obtain ⟨i, rfl⟩ := hlock
    cases h with
    | @lock i t t' sem ht hstep =>
        refine hstep.permits_of_acquired fun hsame => hacquired ?_
        have htotal := total_set ht sem t' .acquired
        omega
  · exact absurd (h.total_eq (not_exists.1 hlock) .acquired).2 hacquired

/-- A step without the lock puts nobody to sleep, and no wake-up is lost in it while anyone
sleeps. -/
theorem Step.wakes_le (h : Step s m s') (hm : ∀ i, m ≠ .lock i) (hasleep : 0 < s'.count .asleep) :
    0 < s.count .asleep ∧
      s.count .notifying + s.count .woken ≤ s'.count .notifying + s'.count .woken := by
  cases h with
  | lock ht hstep => exact absurd rfl (hm _)
  | @wake i j t u ht hphase hu hphase' =>
      -- the wake-up passes from the one thread to the other
      have hcount := count_set ht s.semaphore (t.enter .ready) .asleep
      have hcount' := count_set (s := ⟨s.semaphore, _⟩) hu s.semaphore (u.enter .woken) .asleep
      have hwakes := wakes_set ht s.semaphore (t.enter .ready)
      have hwakes' := wakes_set (s := ⟨s.semaphore, _⟩) hu s.semaphore (u.enter .woken)
      simp only [hphase, hphase', Thread.enter, Phase.wakes, reduceCtorEq, if_true, if_false]
        at hcount hcount' hwakes hwakes' ⊢
      omega
  | @wakeNobody i t ht hphase hnobody =>
      have hcount := count_set ht s.semaphore (t.enter .ready) .asleep
      simp only [hphase, Thread.enter, reduceCtorEq, if_false] at hcount hasleep
      omega
  | @stir i t ht hphase =>
      have hcount := count_set ht s.semaphore (t.enter .woken) .asleep
      have hwakes := wakes_set ht s.semaphore (t.enter .woken)
      simp only [hphase, Thread.enter, Phase.wakes, reduceCtorEq, if_true, if_false]
        at hcount hwakes ⊢
      omega
  | @recover i t ht hphase =>
      have hcount := count_set ht s.semaphore (t.enter .ready) .asleep
      have hwakes := wakes_set ht s.semaphore (t.enter .ready)
      simp only [hphase, Thread.enter, Phase.wakes, reduceCtorEq, if_false]
        at hcount hwakes hasleep ⊢
      omega

/-- Every step leaves the sleepers attended. -/
theorem Attended.step (h : Attended s) (hstep : Step s m s') : Attended s' := by
  by_cases hlock : ∃ i, m = .lock i
  · obtain ⟨i, rfl⟩ := hlock
    cases hstep with
    | lock ht hstep => exact h.lock ht hstep
  · have hm : ∀ i, m ≠ .lock i := not_exists.1 hlock
    obtain ⟨hsame, -⟩ := hstep.total_eq hm .acquired
    refine
      { word := hsame ▸ h.word
        attended := fun hasleep => ?_
        fits := hstep.fits h.fits }
    obtain ⟨hbefore, hwakes⟩ := hstep.wakes_le hm hasleep
    rw [hsame]
    exact Nat.le_trans (h.attended hbefore) hwakes

/-- Every step keeps the accounts. -/
theorem Kept.step {initial : Nat} (h : Kept initial s) (hstep : Step s m s') :
    Kept initial s' := by
  refine { toAttended := h.toAttended.step hstep, account := ?_ }
  have haccount := h.account
  by_cases hlock : ∃ i, m = .lock i
  · obtain ⟨i, rfl⟩ := hlock
    cases hstep with
    | @lock i t t' sem' ht hstep =>
        have hstepped := hstep.account
        have hacquired := total_set ht sem' t' .acquired
        have hreleased := total_set ht sem' t' .released
        dsimp only
        omega
  · have hm : ∀ i, m ≠ .lock i := not_exists.1 hlock
    obtain ⟨hsame, hacquired⟩ := hstep.total_eq hm .acquired
    obtain ⟨-, hreleased⟩ := hstep.total_eq hm .released
    rw [hsame, hacquired, hreleased]
    exact haccount

/-! ### Rest -/

/-- No thread sleeps beside a permit once no thread goes on of its own accord. -/
theorem Attended.permits_eq_zero (h : Attended s) (hrest : ∀ m, m.isOwn → step? s m = none)
    (ht : t ∈ s.threads) (hasleep : t.phase = .asleep) : s.semaphore.permits = 0 := by
  have hnotifying : s.count .notifying = 0 := by
    refine List.countP_eq_zero.2 fun u hu hphase => ?_
    obtain ⟨i, hi⟩ := List.mem_iff_getElem?.1 hu
    obtain ⟨s', hs'⟩ := exists_wake hi (of_decide_eq_true hphase)
    cases (hrest _ rfl).symm.trans hs'
  have hwoken : s.count .woken = 0 := by
    refine List.countP_eq_zero.2 fun u hu hphase => ?_
    obtain ⟨i, hi⟩ := List.mem_iff_getElem?.1 hu
    obtain ⟨s', hs'⟩ := exists_lock hi (h.fits u hu) (.inr (of_decide_eq_true hphase))
    cases (hrest _ rfl).symm.trans hs'
  have hattended := h.attended (hasleep ▸ count_pos ht)
  omega

/-- Where a thread can at most wake for no reason, each has ended or sleeps because there is no
permit. -/
theorem Attended.finished_or_asleep (h : Attended s)
    (hrest : ∀ m, (∀ i, m ≠ .stir i) → step? s m = none) (ht : t ∈ s.threads) :
    t.phase = .ready ∧ t.program = [] ∨ t.phase = .asleep ∧ s.semaphore.permits = 0 := by
  obtain ⟨i, hi⟩ := List.mem_iff_getElem?.1 ht
  have hlock : ¬ ∃ s', step? s (.lock i) = some s' := by
    rintro ⟨s', hs'⟩
    cases (hrest (.lock i) fun _ => Move.noConfusion).symm.trans hs'
  cases hphase : t.phase with
  | ready =>
      by_cases hended : t.program = []
      · exact .inl ⟨rfl, hended⟩
      · exact absurd (exists_lock hi (h.fits t ht) (.inl ⟨hphase, hended⟩)) hlock
  | asleep =>
      refine .inr ⟨rfl, h.permits_eq_zero (fun m hm => hrest m fun i hi => ?_) ht hphase⟩
      rw [hi] at hm
      cases hm
  | woken => exact absurd (exists_lock hi (h.fits t ht) (.inr hphase)) hlock
  | notifying =>
      obtain ⟨s', hs'⟩ := exists_wake hi hphase
      cases (hrest (.wake i s.sleeper?) fun _ => Move.noConfusion).symm.trans hs'
  | failed =>
      have hrecover := step?_eq_some_iff.2 (.recover hi hphase)
      cases (hrest (.recover i) fun _ => Move.noConfusion).symm.trans hrecover

theorem Attended.of_reachable (h : Attended s) (hreach : Schedule.Reachable step? s s') :
    Attended s' :=
  hreach.invariant h fun _ _ _ h hstep => h.step (step?_eq_some_iff.1 hstep)

/-- A thread that has ended does not sleep. -/
theorem Attended.ready_of_nil (h : Attended s) (hrest : ∀ m, (∀ i, m ≠ .stir i) → step? s m = none)
    (ht : t ∈ s.threads) (hended : t.program = []) : t.phase = .ready := by
  rcases h.finished_or_asleep hrest ht with hfinished | ⟨hasleep, -⟩
  · exact hfinished.1
  · obtain ⟨ops, hprogram⟩ := h.fits t ht (.inl hasleep)
    cases hended.symm.trans hprogram

/-- Threads that have not begun. -/
theorem kept_start {initial : Nat} (hword : initial < Word.limit)
    (programs : List (List Operation)) : Kept initial (State.start initial programs) := by
  have hbegun : ∀ t ∈ (State.start initial programs).threads,
      t.phase = .ready ∧ t.effects = [] := by
    intro t ht
    obtain ⟨program, -, rfl⟩ := List.mem_map.1 ht
    exact ⟨rfl, rfl⟩
  have htotal : ∀ e, (State.start initial programs).total e = 0 := by
    intro e
    refine exactSum_map_eq_zero fun t ht => ?_
    rw [(hbegun t ht).2, List.count_nil]
  refine
    { word := hword
      attended := fun hasleep => ?_
      fits := fun t ht => ?_
      account := ?_ }
  · obtain ⟨t, ht, hphase⟩ := List.countP_pos_iff.1 hasleep
    simp [(hbegun t ht).1] at hphase
  · simp [Thread.Fits, (hbegun t ht).1]
  · rw [htotal, htotal]
    rfl

theorem kept_of_reachable {initial : Nat} {programs : List (List Operation)}
    (hword : initial < Word.limit)
    (hreach : Schedule.Reachable step? (State.start initial programs) s) : Kept initial s :=
  hreach.invariant (kept_start hword programs) fun _ _ _ h hstep =>
    h.step (step?_eq_some_iff.1 hstep)

/-- A semaphore loses neither permits nor wake-ups, whatever any number of threads do with it
and in whatever order.  Its permits are those that it began with and those given back, less
those taken, and one is taken only where there is one.  While a thread sleeps, there are no
more permits than threads that have still to wake someone or were woken and have not looked at
the count again; so once no thread goes on of its own accord, no thread sleeps beside a permit.
A permit that would leave the range of words is refused to the thread that gives it back and
changes no count, and neither before nor after that is a thread kept from the lock. -/
theorem keeps_permits_and_wakeups {initial : UInt64} {programs : List (List Operation)}
    (hreach : Schedule.Reachable step? (State.start initial.toNat programs) s) :
    (s.semaphore.permits + s.total .acquired = initial.toNat + s.total .released ∧
      ∀ m s', step? s m = some s' → s'.total .acquired ≠ s.total .acquired →
        s.semaphore.permits = s'.semaphore.permits + 1) ∧
    (0 < s.count .asleep → s.semaphore.permits ≤ s.count .notifying + s.count .woken) ∧
    ((∀ m, m.isOwn → step? s m = none) →
      ∀ t ∈ s.threads, t.phase = .asleep → s.semaphore.permits = 0) ∧
    (∀ i t ops, s.threads[i]? = some t → t.phase = .ready → t.program = .release :: ops →
      step? s (.lock i) =
        if s.semaphore.permits = Word.limit - 1 then
          some ⟨s.semaphore, s.threads.set i (t.done .overflowed .failed)⟩
        else some ⟨⟨s.semaphore.permits + 1⟩, s.threads.set i (t.done .released .notifying)⟩) ∧
    ∀ i t, s.threads[i]? = some t → t.phase = .ready ∧ t.program ≠ [] ∨ t.phase = .woken →
      ∃ s', step? s (.lock i) = some s' := by
  have h := kept_of_reachable initial.toNat_lt hreach
  have hword := h.word
  refine ⟨⟨h.account, fun m s' hstep => ?_⟩, h.attended, fun hrest t ht => ?_, ?_, ?_⟩
  · exact (step?_eq_some_iff.1 hstep).permits_of_acquired
  · exact h.permits_eq_zero hrest ht
  · intro i t ops ht hphase hprogram
    split
    · exact step?_eq_some_iff.2 (.lock ht (.overflow hphase hprogram (by omega)))
    · exact step?_eq_some_iff.2 (.lock ht (.release hphase hprogram (by omega)))
  · intro i t ht hgo
    exact exists_lock ht (h.fits t (List.mem_of_getElem? ht)) hgo

/-- A permit is given back for a sleeper, and the sleeper has still to be woken for it; and a
permit too many is refused. -/
theorem keeps_permits_and_wakeups_pending :
    (∃ s, Schedule.run? step? (State.start 0 [[.acquire], [.release], [.tryAcquire]])
        [.lock 0, .lock 1] = some s ∧ s.semaphore.permits = 1 ∧ 0 < s.count .asleep ∧
      s.semaphore.permits ≤ s.count .notifying + s.count .woken) ∧
    ∃ s, step? (State.start (Word.limit - 1) [[.release], [.acquire]]) (.lock 0) = some s ∧
      s.semaphore.permits = Word.limit - 1 := by
  refine ⟨?_, ?_⟩
  · have hrun : ((Schedule.run? step? (State.start 0 [[.acquire], [.release], [.tryAcquire]])
        [.lock 0, .lock 1]).any fun s => s.semaphore.permits = 1 ∧ 0 < s.count .asleep) = true := by
      decide +kernel
    obtain ⟨s, hs, hfacts⟩ := (Option.any_eq_true _ _).1 hrun
    obtain ⟨hpermits, hasleep⟩ := of_decide_eq_true hfacts
    have hreach : Schedule.Reachable step?
        (State.start (0 : UInt64).toNat [[.acquire], [.release], [.tryAcquire]]) s :=
      Schedule.reachable_run? .start hs
    have hkept := keeps_permits_and_wakeups hreach
    exact ⟨s, hs, hpermits, hasleep, hkept.2.1 hasleep⟩
  · have hreach : Schedule.Reachable step?
        (State.start (0xffffffffffffffff : UInt64).toNat [[.release], [.acquire]])
        (State.start (0xffffffffffffffff : UInt64).toNat [[.release], [.acquire]]) := .start
    have hkept := keeps_permits_and_wakeups hreach
    have hrefused := hkept.2.2.2.1 0 { program := [.release] } [] rfl rfl rfl
    rw [if_pos (by decide)] at hrefused
    exact ⟨_, hrefused, by decide⟩

end Newsroom.Semaphore.Threads
