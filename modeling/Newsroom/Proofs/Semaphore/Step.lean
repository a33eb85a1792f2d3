import Newsroom.Proofs.Schedule
import Newsroom.Proofs.Sums
import Newsroom.Semaphore.Threads

/-!
# The steps at a semaphore

Every step that a thread takes at a semaphore, with what it needs and with all that it
changes.

## Main Definitions

* `Threads.LockStep` — what a thread does while it holds the lock, one constructor for each
  outcome
* `Threads.Step` — the steps of all threads, one constructor for each kind of move
* `State.start` — threads that have not begun, each with a program
* `State.count`, `State.total` — the threads in a phase, and the operations with an effect

## Main Statements

* `lock?_eq_some_iff`, `step?_eq_some_iff` — the relations are the step functions
* `Step.fits` — a thread that sleeps or was woken wants a permit
* `count_set`, `total_set` — the counts after one thread has changed
* `exists_lock`, `exists_wake` — a thread that has something to do is never refused the lock,
  and one that has someone to wake can always do so
* `Step.threads` — what a step does to each thread
* `reachable_drive`, `drive_rest` — the run of the program is one of the runs, and after it a thread
  can at most wake for no reason
-/

namespace Newsroom.Semaphore.Threads

/-- Threads that have not begun, each with a program. -/
def State.start (permits : Nat) (programs : List (List Operation)) : State :=
  ⟨⟨permits⟩, programs.map fun program => { program }⟩

/-- How many threads are in a phase. -/
def State.count (s : State) (p : Phase) : Nat :=
  s.threads.countP fun t => t.phase = p

/-- How many operations had an effect. -/
def State.total (s : State) (e : Effect) : Nat :=
  exactSum (s.threads.map fun t => t.effects.count e)

/-- A thread in another phase. -/
def Thread.enter (t : Thread) (phase : Phase) : Thread :=
  { t with phase }

/-- What a thread does while it holds the lock. -/
inductive LockStep (sem : Semaphore) (t : Thread) : Semaphore → Thread → Prop
  /-- A permit is taken, by a thread that has just come or by one that was woken. -/
  | take {ops : List Operation} {n : Nat} (hphase : t.phase = .ready ∨ t.phase = .woken)
      (hprogram : t.program = .acquire :: ops) (hpermits : sem.permits = n + 1) :
      LockStep sem t ⟨n⟩ (t.done .acquired)
  /-- No permit is left, and the thread goes to sleep. -/
  | sleep {ops : List Operation} (hphase : t.phase = .ready ∨ t.phase = .woken)
      (hprogram : t.program = .acquire :: ops) (hnone : sem.permits = 0) :
      LockStep sem t sem (t.enter .asleep)
  /-- A permit is taken by a thread that would not have waited for it. -/
  | tryTake {ops : List Operation} {n : Nat} (hphase : t.phase = .ready)
      (hprogram : t.program = .tryAcquire :: ops) (hpermits : sem.permits = n + 1) :
      LockStep sem t ⟨n⟩ (t.done .acquired)
  /-- No permit is left, and the thread does not wait for one. -/
  | refuse {ops : List Operation} (hphase : t.phase = .ready)
      (hprogram : t.program = .tryAcquire :: ops) (hnone : sem.permits = 0) :
      LockStep sem t sem (t.done .refused)
  /-- A permit is given back, and someone will have to be woken. -/
  | release {ops : List Operation} (hphase : t.phase = .ready)
      (hprogram : t.program = .release :: ops) (hword : sem.permits + 1 < Word.limit) :
      LockStep sem t ⟨sem.permits + 1⟩ (t.done .released .notifying)
  /-- There is no room for another permit, and the thread fails. -/
  | overflow {ops : List Operation} (hphase : t.phase = .ready)
      (hprogram : t.program = .release :: ops) (hfull : Word.limit ≤ sem.permits + 1) :
      LockStep sem t sem (t.done .overflowed .failed)

/-- What happens in one step of the machine. -/
inductive Step (s : State) : Move → State → Prop
  | lock {i : Nat} {t t' : Thread} {sem : Semaphore} (ht : s.threads[i]? = some t)
      (hstep : LockStep s.semaphore t sem t') :
      Step s (.lock i) ⟨sem, s.threads.set i t'⟩
  | wake {i j : Nat} {t u : Thread} (ht : s.threads[i]? = some t) (hphase : t.phase = .notifying)
      (hu : (s.threads.set i (t.enter .ready))[j]? = some u) (hasleep : u.phase = .asleep) :
      Step s (.wake i (some j))
        ⟨s.semaphore, (s.threads.set i (t.enter .ready)).set j (u.enter .woken)⟩
  | wakeNobody {i : Nat} {t : Thread} (ht : s.threads[i]? = some t)
      (hphase : t.phase = .notifying) (hnobody : s.count .asleep = 0) :
      Step s (.wake i none) ⟨s.semaphore, s.threads.set i (t.enter .ready)⟩
  | stir {i : Nat} {t : Thread} (ht : s.threads[i]? = some t) (hphase : t.phase = .asleep) :
      Step s (.stir i) ⟨s.semaphore, s.threads.set i (t.enter .woken)⟩
  | recover {i : Nat} {t : Thread} (ht : s.threads[i]? = some t) (hphase : t.phase = .failed) :
      Step s (.recover i) ⟨s.semaphore, s.threads.set i (t.enter .ready)⟩

/-! ### The relations and the functions -/

variable {sem sem' : Semaphore} {t t' : Thread}

theorem LockStep.lock?_eq (h : LockStep sem t sem' t') : lock? sem t = some (sem', t') := by
  cases h with
  | @take ops n hphase hprogram hpermits =>
      have hacquire : sem.acquire? = some ⟨n⟩ := acquire?_eq_some_iff.2 hpermits
      rcases hphase with hphase | hphase <;>
        simp [lock?, lockAcquire, hphase, hprogram, hacquire]
  | sleep hphase hprogram hnone =>
      have hacquire := acquire?_eq_none_iff.2 hnone
      rcases hphase with hphase | hphase <;>
        simp [lock?, lockAcquire, hphase, hprogram, hacquire, Thread.enter]
  | @tryTake ops n hphase hprogram hpermits =>
      have hacquire : sem.acquire? = some ⟨n⟩ := acquire?_eq_some_iff.2 hpermits
      simp [lock?, hphase, hprogram, hacquire]
  | refuse hphase hprogram hnone =>
      have hacquire := acquire?_eq_none_iff.2 hnone
      simp [lock?, hphase, hprogram, hacquire]
  | release hphase hprogram hword =>
      have hrelease := release_eq_ok_iff.2 ⟨hword, rfl⟩
      simp [lock?, hphase, hprogram, hrelease]
  | overflow hphase hprogram hfull =>
      have hrelease := (release_eq_error_iff (e := .addition)).2 hfull
      simp [lock?, hphase, hprogram, hrelease]

/-- A thread that wants a permit takes one, or goes to sleep. -/
private theorem lockStep_of_lockAcquire {ops : List Operation}
    (hphase : t.phase = .ready ∨ t.phase = .woken) (hprogram : t.program = .acquire :: ops)
    (h : lockAcquire sem t = (sem', t')) : LockStep sem t sem' t' := by
  unfold lockAcquire at h
  split at h
  · next hacquire =>
    cases h
    exact .take hphase hprogram (acquire?_eq_some_iff.1 hacquire)
  · next hacquire =>
    cases h
    exact .sleep hphase hprogram (acquire?_eq_none_iff.1 hacquire)

/-- A thread that holds the lock does exactly what the relation says. -/
theorem lock?_eq_some_iff : lock? sem t = some (sem', t') ↔ LockStep sem t sem' t' := by
  refine ⟨fun h => ?_, LockStep.lock?_eq⟩
  unfold lock? at h
  split at h
  · next hphase hprogram =>
    exact lockStep_of_lockAcquire (.inl hphase) hprogram (Option.some.inj h)
  · next hphase hprogram =>
    exact lockStep_of_lockAcquire (.inr hphase) hprogram (Option.some.inj h)
  · next hphase hprogram =>
    split at h
    · next hacquire =>
      cases h
      exact .tryTake hphase hprogram (acquire?_eq_some_iff.1 hacquire)
    · next hacquire =>
      cases h
      exact .refuse hphase hprogram (acquire?_eq_none_iff.1 hacquire)
  · next hphase hprogram =>
    split at h
    · next hrelease =>
      cases h
      obtain ⟨hword, rfl⟩ := release_eq_ok_iff.1 hrelease
      exact .release hphase hprogram hword
    · next hrelease =>
      cases h
      exact .overflow hphase hprogram (release_eq_error_iff.1 hrelease)
  · cases h

theorem moveFrom?_of_phase {ts : List Thread} {i : Nat} {before : Phase} (ht : ts[i]? = some t)
    (hphase : t.phase = before) (after : Phase) :
    moveFrom? ts i before after = some (ts.set i (t.enter after)) := by
  simp [moveFrom?, ht, hphase, Thread.enter]

theorem exists_of_moveFrom? {ts ts' : List Thread} {i : Nat} {before after : Phase}
    (h : moveFrom? ts i before after = some ts') :
    ∃ t, ts[i]? = some t ∧ t.phase = before ∧ ts' = ts.set i (t.enter after) := by
  unfold moveFrom? at h
  split at h
  · next t ht =>
    split at h
    · next hphase =>
      cases h
      exact ⟨t, ht, hphase, rfl⟩
    · cases h
  · cases h

variable {s s' : State} {m : Move}

theorem count_asleep_eq_zero_iff :
    s.count .asleep = 0 ↔ (s.threads.any fun t => t.phase = .asleep) = false := by
  simp [State.count, List.countP_eq_zero]

/-- The machine takes exactly the steps of the relation. -/
theorem step?_eq_some_iff : step? s m = some s' ↔ Step s m s' := by
  constructor
  · intro h
    cases m with
    | lock i =>
        obtain ⟨⟨sem, t'⟩, hbind, rfl⟩ := Option.map_eq_some_iff.1 h
        obtain ⟨t, ht, hlock⟩ := Option.bind_eq_some_iff.1 hbind
        exact .lock ht (lock?_eq_some_iff.1 hlock)
    | wake i sleeper =>
        cases sleeper with
        | some j =>
            obtain ⟨ts, hbind, rfl⟩ := Option.map_eq_some_iff.1 h
            obtain ⟨us, hfirst, hsecond⟩ := Option.bind_eq_some_iff.1 hbind
            obtain ⟨t, ht, hphase, rfl⟩ := exists_of_moveFrom? hfirst
            obtain ⟨u, hu, hasleep, rfl⟩ := exists_of_moveFrom? hsecond
            exact .wake ht hphase hu hasleep
        | none =>
            simp only [step?] at h
            split at h
            · cases h
            · next hnobody =>
              obtain ⟨ts, hmove, rfl⟩ := Option.map_eq_some_iff.1 h
              obtain ⟨t, ht, hphase, rfl⟩ := exists_of_moveFrom? hmove
              exact .wakeNobody ht hphase
                (count_asleep_eq_zero_iff.2 (Bool.not_eq_true _ ▸ hnobody))
    | stir i =>
        obtain ⟨ts, hmove, rfl⟩ := Option.map_eq_some_iff.1 h
        obtain ⟨t, ht, hphase, rfl⟩ := exists_of_moveFrom? hmove
        exact .stir ht hphase
    | recover i =>
        obtain ⟨ts, hmove, rfl⟩ := Option.map_eq_some_iff.1 h
        obtain ⟨t, ht, hphase, rfl⟩ := exists_of_moveFrom? hmove
        exact .recover ht hphase
  · intro h
    cases h with
    | lock ht hstep => simp [step?, ht, hstep.lock?_eq]
    | wake ht hphase hu hasleep =>
        simp [step?, moveFrom?_of_phase ht hphase, moveFrom?_of_phase hu hasleep]
    | wakeNobody ht hphase hnobody =>
        simp [step?, count_asleep_eq_zero_iff.1 hnobody, moveFrom?_of_phase ht hphase]
    | stir ht hphase => simp [step?, moveFrom?_of_phase ht hphase]
    | recover ht hphase => simp [step?, moveFrom?_of_phase ht hphase]

/-! ### Threads -/

/-- A thread that sleeps or was woken wants a permit. -/
def Thread.Fits (t : Thread) : Prop :=
  t.phase = .asleep ∨ t.phase = .woken → ∃ ops, t.program = .acquire :: ops

theorem LockStep.fits (h : LockStep sem t sem' t') : t'.Fits := by
  cases h with
  | sleep hphase hprogram hnone => exact fun _ => ⟨_, hprogram⟩
  | take hphase hprogram hpermits => simp [Thread.Fits, Thread.done]
  | tryTake hphase hprogram hpermits => simp [Thread.Fits, Thread.done]
  | refuse hphase hprogram hnone => simp [Thread.Fits, Thread.done]
  | release hphase hprogram hword => simp [Thread.Fits, Thread.done]
  | overflow hphase hprogram hfull => simp [Thread.Fits, Thread.done]

theorem Thread.Fits.woken (h : t.Fits) (hphase : t.phase = .asleep) : (t.enter .woken).Fits :=
  fun _ => h (.inl hphase)

theorem Thread.fits_enter_ready (t : Thread) : (t.enter .ready).Fits := by
  simp [Thread.Fits, Thread.enter]

theorem fits_set {ts : List Thread} {i : Nat} (hts : ∀ t ∈ ts, t.Fits) (ht' : t'.Fits) :
    ∀ t ∈ ts.set i t', t.Fits := by
  intro t ht
  rcases mem_of_mem_set ht with rfl | hmem
  · exact ht'
  · exact hts t hmem

/-- The threads of a machine go on to want what they slept for. -/
theorem Step.fits (h : Step s m s') (hfits : ∀ t ∈ s.threads, t.Fits) :
    ∀ t ∈ s'.threads, t.Fits := by
  cases h with
  | lock ht hstep => exact fits_set hfits hstep.fits
  | @wake i j t u ht hphase hu hasleep =>
      have hfirst := fits_set hfits t.fits_enter_ready (i := i)
      exact fits_set hfirst ((hfirst _ (List.mem_of_getElem? hu)).woken hasleep)
  | wakeNobody ht hphase hnobody => exact fits_set hfits (Thread.fits_enter_ready _)
  | stir ht hphase => exact fits_set hfits ((hfits _ (List.mem_of_getElem? ht)).woken hphase)
  | recover ht hphase => exact fits_set hfits (Thread.fits_enter_ready _)

/-! ### Counts -/

section

variable {i : Nat}

/-- The threads in a phase after one of them has changed. -/
theorem count_set (ht : s.threads[i]? = some t) (sem' : Semaphore) (t' : Thread) (p : Phase) :
    State.count ⟨sem', s.threads.set i t'⟩ p + (if t.phase = p then 1 else 0) =
      s.count p + if t'.phase = p then 1 else 0 :=
  countP_decide_set_of_some (fun t : Thread => t.phase = p) ht t'

/-- The operations with an effect after one thread has changed. -/
theorem total_set (ht : s.threads[i]? = some t) (sem' : Semaphore) (t' : Thread) (e : Effect) :
    State.total ⟨sem', s.threads.set i t'⟩ e + t.effects.count e =
      s.total e + t'.effects.count e :=
  exactSum_map_set (fun t : Thread => t.effects.count e) ht t'

/-- A thread that only enters another phase has had no further effect. -/
theorem total_enter (ht : s.threads[i]? = some t) (sem' : Semaphore) (p : Phase) (e : Effect) :
    State.total ⟨sem', s.threads.set i (t.enter p)⟩ e = s.total e :=
  Nat.add_right_cancel (total_set ht sem' (t.enter p) e)

end

/-- An operation that is done adds its effect. -/
theorem count_effects_done (t : Thread) (e : Effect) (p : Phase) (x : Effect) :
    (t.done e p).effects.count x = t.effects.count x + if e = x then 1 else 0 := by
  rw [Thread.done, List.count_append, List.count_singleton]
  simp

/-- A thread is counted in its phase. -/
theorem count_pos (ht : t ∈ s.threads) : 0 < s.count t.phase :=
  List.countP_pos_iff.2 ⟨t, ht, by simp⟩

/-! ### Steps that are possible -/

/-- A thread that has something to do with the count is never refused the lock. -/
theorem exists_lock {i : Nat} (ht : s.threads[i]? = some t) (hfits : t.Fits)
    (hgo : t.phase = .ready ∧ t.program ≠ [] ∨ t.phase = .woken) :
    ∃ s', step? s (.lock i) = some s' := by
  have hstep : ∀ {sem' t'}, LockStep s.semaphore t sem' t' → ∃ s', step? s (.lock i) = some s' :=
    fun h => ⟨_, step?_eq_some_iff.2 (.lock ht h)⟩
  have hacquire : ∀ {ops}, (t.phase = .ready ∨ t.phase = .woken) → t.program = .acquire :: ops →
      ∃ s', step? s (.lock i) = some s' := by
    intro ops hphase hprogram
    cases hpermits : s.semaphore.permits with
    | zero => exact hstep (.sleep hphase hprogram hpermits)
    | succ n => exact hstep (.take hphase hprogram hpermits)
  rcases hgo with ⟨hphase, hsome⟩ | hphase
  · obtain ⟨op, ops, hprogram⟩ := List.exists_cons_of_ne_nil hsome
    cases op with
    | acquire => exact hacquire (.inl hphase) hprogram
    | tryAcquire =>
        cases hpermits : s.semaphore.permits with
        | zero => exact hstep (.refuse hphase hprogram hpermits)
        | succ n => exact hstep (.tryTake hphase hprogram hpermits)
    | release =>
        by_cases hword : s.semaphore.permits + 1 < Word.limit
        · exact hstep (.release hphase hprogram hword)
        · exact hstep (.overflow hphase hprogram (Nat.le_of_not_lt hword))
  · obtain ⟨ops, hprogram⟩ := hfits (.inr hphase)
    exact hacquire (.inr hphase) hprogram

theorem sleeper?_eq_none_iff : s.sleeper? = none ↔ s.count .asleep = 0 := by
  simp [State.sleeper?, State.count, List.countP_eq_zero]

theorem exists_of_sleeper? {i : Nat} (h : s.sleeper? = some i) :
    ∃ t, s.threads[i]? = some t ∧ t.phase = .asleep := by
  obtain ⟨hlt, hasleep, -⟩ := List.findIdx?_eq_some_iff_getElem.1 h
  exact ⟨s.threads[i], List.getElem?_eq_getElem hlt, of_decide_eq_true hasleep⟩

/-- A thread that has to wake someone can do so, or finds nobody asleep. -/
theorem exists_wake {i : Nat} (ht : s.threads[i]? = some t) (hphase : t.phase = .notifying) :
    ∃ s', step? s (.wake i s.sleeper?) = some s' := by
  cases hsleeper : s.sleeper? with
  | none =>
      exact ⟨_, step?_eq_some_iff.2 (.wakeNobody ht hphase (sleeper?_eq_none_iff.1 hsleeper))⟩
  | some j =>
      obtain ⟨u, hj, hasleep⟩ := exists_of_sleeper? hsleeper
      -- the sleeper is another thread than the one that wakes it
      have hother : j ≠ i := by
        rintro rfl
        cases ht.symm.trans hj
        cases hphase.symm.trans hasleep
      have hj' := (getElem?_set_other s.threads i (t.enter .ready) j hother).trans hj
      exact ⟨_, step?_eq_some_iff.2 (.wake ht hphase hj' hasleep)⟩

/-! ### Each thread -/

/-- A thread that does nothing under the lock keeps what it has to do and what came of the rest. -/
def Thread.SameDuty (t t' : Thread) : Prop :=
  t'.program = t.program ∧ t'.effects = t.effects

theorem sameDuty_enter (t : Thread) (p : Phase) : t.SameDuty (t.enter p) :=
  ⟨rfl, rfl⟩

/-- The threads after one of them has entered another phase. -/
private theorem exists_of_getElem?_set_enter {ts : List Thread} {i j : Nat} {p : Phase}
    (ht : ts[i]? = some t) (ht' : (ts.set i (t.enter p))[j]? = some t') :
    ∃ u, ts[j]? = some u ∧ u.SameDuty t' := by
  rw [getElem?_set_of_some ht] at ht'
  split at ht'
  · next heq =>
    cases ht'
    exact ⟨t, heq ▸ ht, sameDuty_enter t p⟩
  · exact ⟨t', ht', rfl, rfl⟩

/-- In a step each thread keeps its duty, unless it is the one that holds the lock. -/
theorem Step.threads (h : Step s m s') :
    s'.threads.length = s.threads.length ∧
      ∀ (i : Nat) t', s'.threads[i]? = some t' → ∃ t, s.threads[i]? = some t ∧
        (t.SameDuty t' ∨ LockStep s.semaphore t s'.semaphore t') := by
  cases h with
  | @lock j u u' sem hu hstep =>
      refine ⟨List.length_set .., fun i t' ht' => ?_⟩
      rw [getElem?_set_of_some hu] at ht'
      split at ht'
      · next heq =>
        cases ht'
        exact ⟨u, heq ▸ hu, .inr hstep⟩
      · exact ⟨t', ht', .inl ⟨rfl, rfl⟩⟩
  | wake ht hphase hu hasleep =>
      refine ⟨by simp, fun i t' ht' => ?_⟩
      obtain ⟨v, hv, hduty⟩ := exists_of_getElem?_set_enter hu ht'
      obtain ⟨w, hw, hduty'⟩ := exists_of_getElem?_set_enter ht hv
      exact ⟨w, hw, .inl ⟨hduty.1.trans hduty'.1, hduty.2.trans hduty'.2⟩⟩
  | wakeNobody ht hphase hnobody =>
      refine ⟨List.length_set .., fun i t' ht' => ?_⟩
      exact (exists_of_getElem?_set_enter ht ht').imp fun _ hv => ⟨hv.1, .inl hv.2⟩
  | stir ht hphase =>
      refine ⟨List.length_set .., fun i t' ht' => ?_⟩
      exact (exists_of_getElem?_set_enter ht ht').imp fun _ hv => ⟨hv.1, .inl hv.2⟩
  | recover ht hphase =>
      refine ⟨List.length_set .., fun i t' ht' => ?_⟩
      exact (exists_of_getElem?_set_enter ht ht').imp fun _ hv => ⟨hv.1, .inl hv.2⟩

/-! ### The run of the program -/

/-- A thread that holds the lock uses up some of its work. -/
theorem LockStep.work_lt (h : LockStep sem t sem' t') : t'.work < t.work := by
  cases h with
  | take hphase hprogram hpermits =>
      rcases hphase with hphase | hphase <;>
        simp only [Thread.work, Thread.done, hphase, hprogram, List.length_cons, List.tail_cons] <;>
        omega
  | sleep hphase hprogram hnone =>
      rcases hphase with hphase | hphase <;>
        simp only [Thread.work, Thread.enter, hphase] <;> omega
  | tryTake hphase hprogram hpermits =>
      simp only [Thread.work, Thread.done, hphase, hprogram, List.length_cons, List.tail_cons]
      omega
  | refuse hphase hprogram hnone =>
      simp only [Thread.work, Thread.done, hphase, hprogram, List.length_cons, List.tail_cons]
      omega
  | release hphase hprogram hword =>
      simp only [Thread.work, Thread.done, hphase, hprogram, List.length_cons, List.tail_cons]
      omega
  | overflow hphase hprogram hfull =>
      simp only [Thread.work, Thread.done, hphase, hprogram, List.length_cons, List.tail_cons]
      omega

/-- Every step uses up some work, unless a thread wakes for no reason. -/
theorem Step.work_lt (h : Step s m s') (hm : ∀ i, m ≠ .stir i) : s'.work < s.work := by
  cases h with
  | @lock i t t' sem ht hstep =>
      have hset := exactSum_map_set Thread.work ht t'
      have hless := hstep.work_lt
      simp only [State.work]
      omega
  | @wake i j t u ht hphase hu hasleep =>
      have hset := exactSum_map_set Thread.work ht (t.enter .ready)
      have hset' := exactSum_map_set Thread.work hu (u.enter .woken)
      simp only [State.work, Thread.work, Thread.enter, hphase, hasleep] at hset hset' ⊢
      omega
  | @wakeNobody i t ht hphase hnobody =>
      have hset := exactSum_map_set Thread.work ht (t.enter .ready)
      simp only [State.work, Thread.work, Thread.enter, hphase] at hset ⊢
      omega
  | stir ht hphase => exact absurd rfl (hm _)
  | @recover i t ht hphase =>
      have hset := exactSum_map_set Thread.work ht (t.enter .ready)
      simp only [State.work, Thread.work, Thread.enter, hphase] at hset ⊢
      omega

/-- What a thread does by itself is a step of it. -/
theorem exists_of_advance? {i : Nat} (h : advance? s i = some s') :
    ∃ m, (∀ j, m ≠ .stir j) ∧ step? s m = some s' := by
  obtain ⟨m, hm, hstep⟩ := List.exists_of_findSome?_eq_some h
  refine ⟨m, fun j hj => ?_, hstep⟩
  simp [State.movesOf, hj] at hm

theorem reachable_drive (s : State) : Schedule.Reachable step? s (drive s) := by
  refine (Schedule.reachable_settle advance? State.work 4 _ s).lift fun s i s' hadvance => ?_
  obtain ⟨m, -, hstep⟩ := exists_of_advance? hadvance
  exact Schedule.Reachable.start.step hstep

theorem length_threads_of_reachable (h : Schedule.Reachable step? s s') :
    s'.threads.length = s.threads.length := by
  refine h.invariant (P := fun u => u.threads.length = s.threads.length) rfl ?_
  exact fun u m u' hu hstep => (step?_eq_some_iff.1 hstep).threads.1.trans hu

/-- No thread can go on by itself after the run of the program. -/
theorem drive_stuck (s : State) {i : Nat} (hi : i < s.threads.length) :
    ∀ m ∈ (drive s).movesOf i, step? (drive s) m = none := by
  have hless : ∀ (u : State) (j : Nat) (u' : State), advance? u j = some u' →
      u'.work < u.work := by
    intro u j u' hadvance
    obtain ⟨m, hm, hstep⟩ := exists_of_advance? hadvance
    exact (step?_eq_some_iff.1 hstep).work_lt hm
  have hstuck : advance? (drive s) i = none :=
    Schedule.settle_stuck (P := fun _ => True) (fun u j _ u' _ h => ⟨trivial, hless u j u' h⟩)
      (by decide) trivial i (List.mem_range.2 hi)
  exact List.findSome?_eq_none_iff.1 hstuck

/-- After the run of the program a thread can at most wake for no reason. -/
theorem drive_rest (s : State) (hm : ∀ i, m ≠ .stir i) : step? (drive s) m = none := by
  have hstuck : ∀ {i : Nat} {t : Thread}, (drive s).threads[i]? = some t →
      ∀ m ∈ (drive s).movesOf i, step? (drive s) m = none := by
    intro i t ht
    obtain ⟨hlt, -⟩ := List.getElem?_eq_some_iff.1 ht
    exact drive_stuck s (length_threads_of_reachable (reachable_drive s) ▸ hlt)
  refine Option.eq_none_iff_forall_ne_some.2 fun s' hs' => ?_
  have hstep := step?_eq_some_iff.1 hs'
  cases hstep with
  | lock ht hlock => cases (hstuck ht _ (by simp [State.movesOf])).symm.trans hs'
  | wake ht hphase hu hasleep =>
      obtain ⟨u', hu'⟩ := exists_wake ht hphase
      cases (hstuck ht _ (by simp [State.movesOf])).symm.trans hu'
  | wakeNobody ht hphase hnobody =>
      obtain ⟨u', hu'⟩ := exists_wake ht hphase
      cases (hstuck ht _ (by simp [State.movesOf])).symm.trans hu'
  | stir ht hphase => exact absurd rfl (hm _)
  | recover ht hphase => cases (hstuck ht _ (by simp [State.movesOf])).symm.trans hs'

end Newsroom.Semaphore.Threads
