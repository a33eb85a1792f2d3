import Newsroom.Proofs.Semaphore.Permits

/-!
# Threads that wait for permits

A caller that does one operation at a semaphore, beside threads that want one permit each.

## Main Definitions

* `NeverEnds` — a thread does not come to its end in whatever order the threads go on
* `Thread.Does` — how far a caller has come with its operation
* `Thread.WantsOne` — a thread that wants at most one permit
* `Queueing` — a caller that has begun nothing, and threads that want at most one permit each

## Main Statements

* `neverEnds_of_permits` — without permits, threads that want nothing but one wait for ever
* `thread_of_reachable` — what a thread keeps in its steps holds wherever the threads come to
* `does_of_reachable`, `wantsOne_of_reachable` — the caller stays at its operation, and the others
  want no more
-/

namespace Newsroom.Semaphore.Threads

variable {s s' u : State} {sem sem' : Semaphore} {t t' : Thread} {m : Move} {op : Operation}

/-- A thread does not come to its end, in whatever order the threads take their steps. -/
def NeverEnds (s : State) (i : Nat) : Prop :=
  ∀ u, Schedule.Reachable step? s u → ∀ t, u.threads[i]? = some t → ¬ t.isFinished

/-! ### Without permits -/

/-- A thread that wants a permit does not get one where there is none. -/
theorem LockStep.program_eq (h : LockStep sem t sem' t') (hnone : sem.permits = 0)
    (hwants : ∀ op ∈ t.program, op = .acquire) :
    sem' = sem ∧ t'.program = t.program := by
  cases h with
  | take hphase hprogram hpermits => cases hnone.symm.trans hpermits
  | tryTake hphase hprogram hpermits => cases hnone.symm.trans hpermits
  | sleep hphase hprogram hnone => exact ⟨rfl, rfl⟩
  | refuse hphase hprogram hnone => cases hwants _ (hprogram ▸ List.mem_cons_self)
  | release hphase hprogram hword => cases hwants _ (hprogram ▸ List.mem_cons_self)
  | overflow hphase hprogram hfull => cases hwants _ (hprogram ▸ List.mem_cons_self)

/-- A step without the lock changes no permit. -/
theorem Step.semaphore_eq_or_lock (h : Step s m s') :
    s'.semaphore = s.semaphore ∨ ∃ (i : Nat) (t t' : Thread), s.threads[i]? = some t ∧
      LockStep s.semaphore t s'.semaphore t' := by
  cases h with
  | @lock i t t' sem ht hstep => exact .inr ⟨i, t, t', ht, hstep⟩
  | wake ht hphase hu hasleep => exact .inl rfl
  | wakeNobody ht hphase hnobody => exact .inl rfl
  | stir ht hphase => exact .inl rfl
  | recover ht hphase => exact .inl rfl

/-- Without permits, threads that want nothing but one keep wanting it. -/
theorem programs_of_reachable (hnone : s.semaphore.permits = 0)
    (hwants : ∀ t ∈ s.threads, ∀ op ∈ t.program, op = .acquire)
    (hreach : Schedule.Reachable step? s u) :
    u.semaphore.permits = 0 ∧ ∀ (i : Nat) t', u.threads[i]? = some t' →
      ∃ t, s.threads[i]? = some t ∧ t'.program = t.program := by
  refine hreach.invariant (P := fun u => u.semaphore.permits = 0 ∧
    ∀ (i : Nat) t', u.threads[i]? = some t' →
      ∃ t, s.threads[i]? = some t ∧ t'.program = t.program) ⟨hnone, fun i t ht => ⟨t, ht, rfl⟩⟩ ?_
  rintro v m v' ⟨hnone, hsame⟩ hstep
  have hstep := step?_eq_some_iff.1 hstep
  have hwants' : ∀ t ∈ v.threads, ∀ op ∈ t.program, op = .acquire := by
    intro t ht
    obtain ⟨i, hi⟩ := List.mem_iff_getElem?.1 ht
    obtain ⟨t₀, ht₀, hprogram⟩ := hsame i t hi
    exact hprogram ▸ hwants t₀ (List.mem_of_getElem? ht₀)
  refine ⟨?_, fun i t' ht' => ?_⟩
  · rcases hstep.semaphore_eq_or_lock with hkept | ⟨i, t, t', ht, hlock⟩
    · rw [hkept]
      exact hnone
    · rw [(hlock.program_eq hnone (hwants' t (List.mem_of_getElem? ht))).1]
      exact hnone
  · obtain ⟨t, ht, hduty⟩ := hstep.threads.2 i t' ht'
    obtain ⟨t₀, ht₀, hprogram⟩ := hsame i t ht
    refine ⟨t₀, ht₀, Eq.trans ?_ hprogram⟩
    rcases hduty with hduty | hlock
    · exact hduty.1
    · exact (hlock.program_eq hnone (hwants' t (List.mem_of_getElem? ht))).2

/-- Without permits, a thread among threads that want nothing but one does not end. -/
theorem neverEnds_of_permits {i : Nat} (hnone : s.semaphore.permits = 0)
    (hwants : ∀ t ∈ s.threads, ∀ op ∈ t.program, op = .acquire) (ht : s.threads[i]? = some t)
    (hunfinished : t.program ≠ []) : NeverEnds s i := by
  intro u hreach t' ht' hended
  obtain ⟨t₀, ht₀, hprogram⟩ := (programs_of_reachable hnone hwants hreach).2 i t' ht'
  cases ht.symm.trans ht₀
  simp [Thread.isFinished, hprogram, hunfinished] at hended

/-! ### One operation -/

/-- What may come of an operation. -/
def Operation.outcomes : Operation → List Effect
  | .acquire => [.acquired]
  | .tryAcquire => [.acquired, .refused]
  | .release => [.released, .overflowed]

/-- How far a thread has come with the only operation that it does. -/
def Thread.Does (t : Thread) (op : Operation) : Prop :=
  (t.program = [op] ∧ t.effects = []) ∨ (t.program = [] ∧ ∃ e ∈ op.outcomes, t.effects = [e])

/-- A thread that has something to do has its only operation to do. -/
theorem Thread.Does.of_cons {op' : Operation} {ops : List Operation} (h : t.Does op)
    (hprogram : t.program = op' :: ops) : op' :: ops = [op] ∧ t.effects = [] := by
  rw [Thread.Does, hprogram] at h
  exact h.resolve_right fun hended => List.cons_ne_nil _ _ hended.1

/-- A thread that has nothing to do has done its operation. -/
theorem Thread.Does.of_nil (h : t.Does op) (hprogram : t.program = []) :
    ∃ e ∈ op.outcomes, t.effects = [e] := by
  rw [Thread.Does, hprogram] at h
  exact (h.resolve_left fun hbegun => List.cons_ne_nil _ _ hbegun.1.symm).2

theorem LockStep.does (h : LockStep sem t sem' t') (hdoes : t.Does op) : t'.Does op := by
  have hdone : ∀ {op' ops e p}, t.program = op' :: ops → e ∈ op'.outcomes →
      (t.done e p).Does op := by
    intro op' ops e p hprogram he
    obtain ⟨hop, heffects⟩ := hdoes.of_cons hprogram
    cases hop
    exact .inr ⟨by simp [Thread.done, hprogram], e, he, by simp [Thread.done, heffects]⟩
  cases h with
  | take hphase hprogram hpermits => exact hdone hprogram (by simp [Operation.outcomes])
  | sleep hphase hprogram hnone => exact hdoes
  | tryTake hphase hprogram hpermits => exact hdone hprogram (by simp [Operation.outcomes])
  | refuse hphase hprogram hnone => exact hdone hprogram (by simp [Operation.outcomes])
  | release hphase hprogram hword => exact hdone hprogram (by simp [Operation.outcomes])
  | overflow hphase hprogram hfull => exact hdone hprogram (by simp [Operation.outcomes])

/-- A thread that holds the lock does at most the first of its operations. -/
theorem LockStep.program_cases (h : LockStep sem t sem' t') :
    t'.program = t.program ∨ t'.program = t.program.tail := by
  cases h with
  | sleep hphase hprogram hnone => exact .inl rfl
  | _ => exact .inr rfl

/-- What a thread keeps in its steps holds of it wherever the threads come to. -/
theorem thread_of_reachable {P : Thread → Prop} {i : Nat}
    (hduty : ∀ t t', P t → t.SameDuty t' → P t')
    (hlock : ∀ sem t sem' t', P t → LockStep sem t sem' t' → P t')
    (hs : ∀ t, s.threads[i]? = some t → P t) (hreach : Schedule.Reachable step? s u) :
    ∀ t, u.threads[i]? = some t → P t := by
  refine hreach.invariant (P := fun u => ∀ t, u.threads[i]? = some t → P t) hs ?_
  intro v m v' hv hstep t' ht'
  obtain ⟨t, ht, hkept | hstep⟩ := (step?_eq_some_iff.1 hstep).threads.2 i t' ht'
  · exact hduty t t' (hv t ht) hkept
  · exact hlock _ t _ t' (hv t ht) hstep

theorem does_of_reachable {i : Nat} (hs : ∀ t, s.threads[i]? = some t → t.Does op)
    (hreach : Schedule.Reachable step? s u) : ∀ t, u.threads[i]? = some t → t.Does op := by
  refine thread_of_reachable (P := fun t => t.Does op) (fun t t' hdoes hduty => ?_)
    (fun _ _ _ _ hdoes hstep => hstep.does hdoes) hs hreach
  rw [Thread.Does, hduty.1, hduty.2]
  exact hdoes

theorem program_of_reachable {i : Nat} (hs : ∀ t, s.threads[i]? = some t → t.program = [])
    (hreach : Schedule.Reachable step? s u) : ∀ t, u.threads[i]? = some t → t.program = [] := by
  refine thread_of_reachable (P := fun t => t.program = []) (fun t t' hended hduty => ?_)
    (fun sem t sem' t' hended hstep => ?_) hs hreach
  · exact hduty.1.trans hended
  · rcases hstep.program_cases with hsame | htail
    · exact hsame.trans hended
    · rw [htail, hended, List.tail_nil]

/-! ### A caller and waiting threads -/

/-- A thread that wants at most one permit. -/
def Thread.WantsOne (t : Thread) : Prop :=
  t.program = [] ∨ t.program = [.acquire]

theorem wantsOne_of_reachable {i : Nat} (hs : ∀ t, s.threads[i]? = some t → t.WantsOne)
    (hreach : Schedule.Reachable step? s u) : ∀ t, u.threads[i]? = some t → t.WantsOne := by
  refine thread_of_reachable (P := Thread.WantsOne) (fun t t' hwants hduty => ?_)
    (fun sem t sem' t' hwants hstep => ?_) hs hreach
  · rw [Thread.WantsOne, hduty.1]
    exact hwants
  · rcases hstep.program_cases with hsame | htail
    · rw [Thread.WantsOne, hsame]
      exact hwants
    · rcases hwants with hwants | hwants
      · exact .inl (by rw [htail, hwants]; rfl)
      · exact .inl (by rw [htail, hwants]; rfl)

/-- A caller that has begun nothing, and threads that want at most one permit each.  Those that
sleep do so because there is none. -/
structure Queueing (s : State) : Prop where
  word : s.semaphore.permits < Word.limit
  caller : ∃ t ts, s.threads = t :: ts ∧ t.phase = .ready
  wants : ∀ t ∈ s.threads.tail, t.WantsOne
  waits : ∀ t ∈ s.threads.tail, t.phase = .ready ∨
    t.phase = .asleep ∧ t.program = [.acquire] ∧ s.semaphore.permits = 0

theorem Queueing.attended (h : Queueing s) : Attended s := by
  obtain ⟨c, ts, hthreads, hready⟩ := h.caller
  have hphase : ∀ t ∈ s.threads, t.phase = .ready ∨
      t.phase = .asleep ∧ t.program = [.acquire] ∧ s.semaphore.permits = 0 := by
    intro t ht
    rw [hthreads] at ht
    rcases List.mem_cons.1 ht with rfl | htail
    · exact .inl hready
    · exact h.waits t (by rw [hthreads]; exact htail)
  refine
    { word := h.word
      attended := fun hasleep => ?_
      fits := fun t ht => ?_ }
  · obtain ⟨t, ht, hasleep⟩ := List.countP_pos_iff.1 hasleep
    rcases hphase t ht with hready | ⟨-, -, hnone⟩
    · simp [hready] at hasleep
    · omega
  · rcases hphase t ht with hready | ⟨-, hprogram, -⟩
    · simp [Thread.Fits, hready]
    · exact fun _ => ⟨[], hprogram⟩

end Newsroom.Semaphore.Threads
