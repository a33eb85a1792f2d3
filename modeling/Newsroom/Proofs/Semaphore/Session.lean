import Newsroom.Proofs.Semaphore.Waiting
import Newsroom.Semaphore.Session

/-!
# The answers of a session

What the caller of a session at a semaphore is told is what its operation comes to among the
steps of the threads, and it is told that it would block exactly if that never comes to an end.

## Main Definitions

* `Session.Settled` — a session between two requests
* `Session.Ends`, `Session.Tells` — the answers, by what the machine can come to

## Main Statements

* `Settled.ends_perform`, `Settled.acquire_cases` — what an operation of the caller comes to
* `Settled.tells`, `Tells.settled` — every answer of a settled session is one that its machine can
  come to, and leaves it settled
* `tells_of_reachable` — so it is whatever the caller has asked for before
-/

namespace Newsroom.Semaphore

open Threads

namespace Session

variable {s s' : Session} {op : Operation} {u : State}

/-- A session whose threads have come as far as they can. -/
structure Settled (s : Session) : Prop extends Queueing s.state where
  idle : ∀ t, s.state.threads.head? = some t → t.program = []
  ended : ∀ t ∈ s.waiters, t.phase = .ready → t.program = []

/-- What comes of an operation of the caller once no thread goes on, with the session then. -/
structure Ends (s : Session) (op : Operation) (s' : Session) (e : Effect) : Prop where
  reach : Schedule.Reachable step? (s.machine { program := [op] }) s'.state
  rest : ∀ m, (∀ i, m ≠ .stir i) → step? s'.state m = none
  caller : ∃ t, s'.state.threads.head? = some t ∧ t.isFinished ∧ t.effects = [e]
  outcome : e ∈ op.outcomes

/-- What a session tells its caller of a request, with the session after it. -/
inductive Tells (s : Session) : Request → Session → Answer → Prop
  /-- Threads that were started have to be joined before. -/
  | busy {r : Request} (hrefused : r = .tryAcquire ∨ r = .acquire) (hwaiters : s.waiters ≠ []) :
      Tells s r s .busy
  | tries {s' : Session} {e : Effect} (hnone : s.waiters = []) (hends : s.Ends .tryAcquire s' e) :
      Tells s .tryAcquire s' (.held (e = .acquired))
  | acquires {s' : Session} {e : Effect} (hnone : s.waiters = []) (hends : s.Ends .acquire s' e) :
      Tells s .acquire s' .ok
  /-- The operation never comes to its end. -/
  | blocks (hnone : s.waiters = []) (hnever : NeverEnds (s.machine { program := [.acquire] }) 0) :
      Tells s .acquire s .wouldBlock
  | releases {s' : Session} {e : Effect} (hends : s.Ends .release s' e) :
      Tells s .release s' (if e = .overflowed then .overflow else .ok)
  /-- A thread that was started now would not have to wait. -/
  | refuses (hnone : s.waiters = []) (hpermits : s.state.semaphore.permits ≠ 0) :
      Tells s .startWaiter s .notEmpty
  /-- A thread is started, and comes as far as it can. -/
  | starts {s' : Session}
      (hreach : Schedule.Reachable step?
        { s.state with threads := s.state.threads ++ [{ program := [.acquire] }] } s'.state)
      (hrest : ∀ m, (∀ i, m ≠ .stir i) → step? s'.state m = none) :
      Tells s .startWaiter s' .started
  /-- All threads that were started have come to their end. -/
  | joins (hended : ∀ t ∈ s.waiters, t.isFinished) :
      Tells s .join ⟨{ s.state with threads := s.state.threads.take 1 }⟩ (.joined s.waiters.length)
  /-- One of them never comes to its end. -/
  | waits {i : Nat} (hi : i < s.waiters.length) (hnever : NeverEnds s.state (i + 1)) :
      Tells s .join s .wouldBlock

/-! ### Between two requests -/

/-- Where a machine has come to rest and its caller has ended, the session is settled. -/
theorem settled_of_rest {v : State} (h : Queueing v) (hreach : Schedule.Reachable step? v u)
    (hrest : ∀ m, (∀ i, m ≠ .stir i) → step? u m = none)
    (hended : ∀ t, u.threads.head? = some t → t.program = []) : Settled ⟨u⟩ := by
  have hattended := h.attended.of_reachable hreach
  have hlength := length_threads_of_reachable hreach
  obtain ⟨c, ts, hthreads, -⟩ := h.caller
  rw [hthreads] at hlength
  obtain ⟨c', ts', hthreads'⟩ := List.exists_cons_of_length_eq_add_one hlength
  have hwants : ∀ t ∈ ts', t.WantsOne := by
    intro t ht
    obtain ⟨i, hi⟩ := List.mem_iff_getElem?.1 ht
    refine wantsOne_of_reachable (i := i + 1) (fun t₀ ht₀ => ?_) hreach t (by simp [hthreads', hi])
    rw [hthreads, List.getElem?_cons_succ] at ht₀
    exact h.wants t₀ (by rw [hthreads]; exact List.mem_of_getElem? ht₀)
  have hmem : ∀ t ∈ ts', t ∈ u.threads := fun t ht => by simp [hthreads', ht]
  have hcaller :=
    hattended.ready_of_nil hrest (by simp [hthreads']) (hended c' (by simp [hthreads']))
  refine
    { word := hattended.word
      caller := ⟨c', ts', hthreads', hcaller⟩
      wants := by simpa [hthreads'] using hwants
      waits := ?_
      idle := hended
      ended := ?_ }
  · intro t ht
    simp only [hthreads', List.tail_cons] at ht
    rcases hattended.finished_or_asleep hrest (hmem t ht) with ⟨hready, -⟩ | ⟨hasleep, hnone⟩
    · exact .inl hready
    · obtain ⟨ops, hprogram⟩ := hattended.fits t (hmem t ht) (.inl hasleep)
      have hone := (hwants t ht).resolve_left (by simp [hprogram])
      exact .inr ⟨hasleep, hone, hnone⟩
  · intro t ht hready
    simp only [waiters, hthreads', List.tail_cons] at ht
    rcases hattended.finished_or_asleep hrest (hmem t ht) with ⟨-, hended⟩ | ⟨hasleep, -⟩
    · exact hended
    · cases hready.symm.trans hasleep

/-- A session is settled before any thread was started. -/
theorem settled_of_alone {c : Thread} (hword : s.state.semaphore.permits < Word.limit)
    (hthreads : s.state.threads = [c]) (hended : c.program = []) (hready : c.phase = .ready) :
    s.Settled where
  word := hword
  caller := ⟨c, [], hthreads, hready⟩
  wants t ht := by simp [hthreads] at ht
  waits t ht := by simp [hthreads] at ht
  idle t ht := by
    rw [hthreads] at ht
    cases ht
    exact hended
  ended t ht := by simp [waiters, hthreads] at ht

/-- A thread of a settled session that has not ended never ends. -/
theorem Settled.neverEnds_of_unfinished (h : s.Settled)
    (hunfinished : ∃ t ∈ s.waiters, t.isFinished = false) :
    ∃ i < s.waiters.length, NeverEnds s.state (i + 1) := by
  obtain ⟨t, ht, hunfinished⟩ := hunfinished
  obtain ⟨c, ts, hthreads, hready⟩ := h.caller
  have hwaiters : s.waiters = ts := by rw [waiters, hthreads, List.tail_cons]
  obtain ⟨i, hi, hget⟩ := List.mem_iff_getElem.1 ht
  have hnone : s.state.semaphore.permits = 0 ∧ t.program = [.acquire] := by
    rcases h.waits t ht with hready | ⟨-, hprogram, hnone⟩
    · simp [Thread.isFinished, hready, h.ended t ht hready] at hunfinished
    · exact ⟨hnone, hprogram⟩
  refine ⟨i, hi, neverEnds_of_permits (t := t) hnone.1 (fun u hu op hop => ?_) ?_ ?_⟩
  · rw [hthreads] at hu
    rcases List.mem_cons.1 hu with rfl | hu
    · rw [h.idle u (by simp [hthreads])] at hop
      cases hop
    · rcases h.wants u (by rw [hthreads]; exact hu) with hprogram | hprogram
      · rw [hprogram] at hop
        cases hop
      · rw [hprogram] at hop
        exact List.mem_singleton.1 hop
  · rw [hthreads, List.getElem?_cons_succ, ← hwaiters, List.getElem?_eq_getElem hi, hget]
  · simp [hnone.2]

/-- The machine of a settled session with a caller. -/
theorem Settled.queueing_machine (h : s.Settled) (caller : Thread)
    (hready : caller.phase = .ready) : Queueing (s.machine caller) where
  word := h.word
  caller := ⟨caller, _, rfl, hready⟩
  wants := h.wants
  waits := h.waits

/-- A settled session with a further thread that wants a permit. -/
theorem Settled.queueing_append (h : s.Settled) :
    Queueing { s.state with threads := s.state.threads ++ [{ program := [.acquire] }] } := by
  obtain ⟨c, ts, hthreads, hready⟩ := h.caller
  have hwants := h.wants
  have hwaits := h.waits
  rw [hthreads, List.tail_cons] at hwants hwaits
  refine
    { word := h.word
      caller := ⟨c, _, by rw [hthreads]; rfl, hready⟩
      wants := fun t ht => ?_
      waits := fun t ht => ?_ }
  · rw [hthreads, List.cons_append, List.tail_cons] at ht
    rcases List.mem_append.1 ht with hold | hnew
    · exact hwants t hold
    · exact .inr (by rw [List.mem_singleton.1 hnew])
  · rw [hthreads, List.cons_append, List.tail_cons] at ht
    rcases List.mem_append.1 ht with hold | hnew
    · exact hwaits t hold
    · exact .inl (by rw [List.mem_singleton.1 hnew])

/-! ### Answers -/

/-- Where the caller stands after the run of the program: it has done its operation, or it sleeps
because there is no permit. -/
theorem Settled.perform_cases (h : s.Settled) (op : Operation) :
    (∃ e, (s.perform op).2 = some e ∧ s.Ends op (s.perform op).1 e) ∨
      op = .acquire ∧ (s.perform op).2 = none ∧ (s.perform op).1.state.semaphore.permits = 0 := by
  have hqueueing := h.queueing_machine { program := [op] } rfl
  have hreach := reachable_drive (s.machine { program := [op] })
  have hrest : ∀ m, (∀ i, m ≠ .stir i) → step? (drive (s.machine { program := [op] })) m = none :=
    fun _ hm => drive_rest _ hm
  have hattended := hqueueing.attended.of_reachable hreach
  obtain ⟨t, ts, hthreads⟩ :=
    List.exists_cons_of_length_eq_add_one (length_threads_of_reachable hreach)
  have ht : t ∈ (drive (s.machine { program := [op] })).threads := by simp [hthreads]
  have hdoes : t.Does op :=
    does_of_reachable (i := 0) (fun t₀ ht₀ => .inl (by cases ht₀; exact ⟨rfl, rfl⟩)) hreach t
      (by simp [hthreads])
  have heffect : (s.perform op).2 = t.effects.head? := by simp [perform, hthreads]
  rcases hattended.finished_or_asleep hrest ht with ⟨hready, hended⟩ | ⟨hasleep, hnone⟩
  · obtain ⟨e, he, heffects⟩ := hdoes.of_nil hended
    refine .inl ⟨e, by rw [heffect, heffects]; rfl, ?_⟩
    exact
      { reach := hreach
        rest := hrest
        caller := ⟨t, by simp [perform, hthreads], by simp [Thread.isFinished, hended, hready],
          heffects⟩
        outcome := he }
  · obtain ⟨ops, hprogram⟩ := hattended.fits t ht (.inl hasleep)
    obtain ⟨hop, heffects⟩ := hdoes.of_cons hprogram
    cases hop
    exact .inr ⟨rfl, by rw [heffect, heffects]; rfl, hnone⟩

/-- An operation that does not wait comes to its end. -/
theorem Settled.ends_perform (h : s.Settled) (hop : op ≠ .acquire) :
    ∃ e, (s.perform op).2 = some e ∧ s.Ends op (s.perform op).1 e :=
  (h.perform_cases op).resolve_right fun hwaits => hop hwaits.1

/-- While nobody else wants a permit, the caller gets one or waits for ever. -/
theorem Settled.acquire_cases (h : s.Settled) (hnone : s.waiters = []) :
    (∃ e, (s.perform .acquire).2 = some e ∧ s.Ends .acquire (s.perform .acquire).1 e) ∨
      (s.perform .acquire).2 = none ∧ NeverEnds (s.machine { program := [.acquire] }) 0 := by
  refine (h.perform_cases .acquire).imp_right fun ⟨_, heffect, hpermits⟩ => ⟨heffect, ?_⟩
  have hstart : s.machine { program := [.acquire] } =
      State.start s.state.semaphore.permits [[.acquire]] := by
    rw [machine, hnone]
    rfl
  have hreach := reachable_drive (s.machine { program := [.acquire] })
  -- no permit was taken, so that there was none before
  have hbefore : s.state.semaphore.permits = 0 := by
    obtain ⟨t, hthreads⟩ := List.length_eq_one_iff.1
      ((length_threads_of_reachable hreach).trans (by rw [machine, hnone]; rfl))
    have heffects : t.effects = [] := by
      have hhead : (s.perform .acquire).2 = t.effects.head? := by simp [perform, hthreads]
      exact List.head?_eq_none_iff.1 (hhead.symm.trans heffect)
    have haccount := (kept_of_reachable h.word (hstart ▸ hreach)).account
    rw [State.total, State.total, ← hstart, hthreads] at haccount
    simp only [List.map_cons, List.map_nil, heffects, List.count_nil, exactSum_cons,
      exactSum_nil] at haccount
    have hpermits : (drive (s.machine { program := [.acquire] })).semaphore.permits = 0 := hpermits
    omega
  refine neverEnds_of_permits hbefore (fun t ht op hop => ?_) rfl (List.cons_ne_nil _ [])
  rw [machine, hnone, List.mem_singleton] at ht
  subst ht
  exact List.mem_singleton.1 hop

/-- Every answer of a settled session is one that its machine can come to. -/
theorem Settled.tells (h : s.Settled) (r : Request) : s.Tells r (s.step r).1 (s.step r).2 := by
  have hwaiters : ∀ r, r = .tryAcquire ∨ r = .acquire → s.waiters.isEmpty = false →
      s.Tells r s .busy := by
    intro r hrefused hsome
    exact .busy hrefused (by simpa using hsome)
  cases r with
  | tryAcquire =>
      cases hempty : s.waiters.isEmpty with
      | false =>
          simp only [step, hempty, Bool.not_false, if_true]
          exact hwaiters _ (.inl rfl) hempty
      | true =>
          have hop : Operation.tryAcquire ≠ .acquire := by decide
          obtain ⟨e, heffect, hends⟩ := h.ends_perform hop
          simp only [step, hempty, heffect, Bool.not_true, Bool.false_eq_true, if_false,
            Option.some.injEq]
          exact .tries (List.isEmpty_iff.1 hempty) hends
  | acquire =>
      cases hempty : s.waiters.isEmpty with
      | false =>
          simp only [step, hempty, Bool.not_false, if_true]
          exact hwaiters _ (.inr rfl) hempty
      | true =>
          have hnone := List.isEmpty_iff.1 hempty
          simp only [step, hempty, Bool.not_true, Bool.false_eq_true, if_false]
          rcases h.acquire_cases hnone with ⟨e, heffect, hends⟩ | ⟨heffect, hnever⟩
          · split
            · next s' e' hperform =>
              rw [hperform] at hends
              exact .acquires hnone hends
            · next hperform => simp [hperform] at heffect
          · split
            · next hperform => simp [hperform] at heffect
            · exact .blocks hnone hnever
  | release =>
      have hop : Operation.release ≠ .acquire := by decide
      obtain ⟨e, heffect, hends⟩ := h.ends_perform hop
      simp only [step, heffect, Option.some.injEq]
      exact .releases hends
  | startWaiter =>
      simp only [step]
      split
      · next hfree =>
        simp only [Bool.and_eq_true, List.isEmpty_iff, bne_iff_ne] at hfree
        exact .refuses hfree.1 hfree.2
      · exact .starts (reachable_drive _) fun _ hm => drive_rest _ hm
  | join =>
      simp only [step]
      split
      · next hended => exact .joins (by simpa using hended)
      · next hunfinished =>
        obtain ⟨i, hi, hnever⟩ := h.neverEnds_of_unfinished (by simpa using hunfinished)
        exact .waits hi hnever

/-- A session is settled again after each request. -/
theorem Tells.settled {r : Request} {answer : Answer} (htells : s.Tells r s' answer)
    (h : s.Settled) : s'.Settled := by
  have hends : ∀ {op s' e}, s.Ends op s' e → s'.Settled := by
    intro op s' e hends
    refine settled_of_rest (h.queueing_machine _ rfl) hends.reach hends.rest fun t ht => ?_
    obtain ⟨t', ht', hfinished, -⟩ := hends.caller
    cases ht.symm.trans ht'
    simp only [Thread.isFinished, Bool.and_eq_true, List.isEmpty_iff] at hfinished
    exact hfinished.1
  cases htells with
  | busy hrefused hwaiters => exact h
  | tries hnone hended => exact hends hended
  | acquires hnone hended => exact hends hended
  | blocks hnone hnever => exact h
  | releases hended => exact hends hended
  | refuses hnone hpermits => exact h
  | starts hreach hrest =>
      refine settled_of_rest h.queueing_append hreach hrest fun t ht => ?_
      rw [List.head?_eq_getElem?] at ht
      refine program_of_reachable (i := 0) (fun t₀ ht₀ => h.idle t₀ ?_) hreach t ht
      obtain ⟨c, ts, hthreads, -⟩ := h.caller
      simpa [hthreads] using ht₀
  | joins hended =>
      obtain ⟨c, ts, hthreads, hready⟩ := h.caller
      exact settled_of_alone h.word (by simp [hthreads]) (h.idle c (by simp [hthreads])) hready
  | waits hi hnever => exact h

/-- A session is settled whatever its caller has asked for. -/
theorem settled_of_reachable {permits : UInt64}
    (hreach : Schedule.Reachable (fun s r => some (step s r).1) (start permits.toNat) s) :
    s.Settled := by
  refine hreach.invariant (P := Settled) ?_ ?_
  · exact settled_of_alone permits.toNat_lt rfl rfl rfl
  · intro s r s' h hstep
    cases hstep
    exact (h.tells r).settled h

/-- Whatever a caller has asked for before, what it is told is what its machine can come to. -/
theorem tells_of_reachable {permits : UInt64}
    (hreach : Schedule.Reachable (fun s r => some (step s r).1) (start permits.toNat) s)
    (r : Request) : s.Tells r (s.step r).1 (s.step r).2 :=
  (settled_of_reachable hreach).tells r

end Session

end Newsroom.Semaphore
