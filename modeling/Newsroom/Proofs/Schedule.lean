import Newsroom.Schedule

/-!
# Runs of a machine

What holds along all runs of a machine, what a run notes down, and when a run can
still come to an end.

## Main Definitions

* `Schedule.journal` — what a run has noted down, step by step
* `Schedule.trace?` — what the steps of a run do, with the state after it

## Main Statements

* `Reachable.invariant` — what every step keeps holds wherever the machine comes to
* `journal_invariant`, `journal_invariant_of_reachable` — the same for what holds of a state
  and of the notes so far
* `trace?_invariant`, `trace?_split` — what holds of a state and of what was done before it, and
  a run up to one of its steps
* `length_add_work_le` — a run is no longer than the work that its steps use up
* `exists_reachable_of_bound`, `exists_reachable_of_progress` — a machine that can always
  lower a bound, or use up some of its work, can always reach its end
* `exists_run?_settle`, `reachable_settle` — the run of the program is one of the runs
* `settle_ends` — the run of the program comes to the end if each of its rounds uses up work
* `work_round_lt` — a round uses up work if some actor can, and can still when its turn comes
* `settle_stuck` — if every step uses up work, nothing is possible after the run of the program
-/

namespace Newsroom.Schedule

variable {σ μ β : Type} {step? : σ → μ → Option σ}

/-! ### Runs -/

theorem run?_append {s t u : σ} {ms ns : List μ} (hms : run? step? s ms = some t)
    (hns : run? step? t ns = some u) : run? step? s (ms ++ ns) = some u := by
  induction ms generalizing s with
  | nil =>
      cases hms
      exact hns
  | cons m ms ih =>
      obtain ⟨s', hs', hrest⟩ := Option.bind_eq_some_iff.1 hms
      exact Option.bind_eq_some_iff.2 ⟨s', hs', ih hrest⟩

/-! ### Reachable states -/

theorem Reachable.trans {s t u : σ} (hst : Reachable step? s t) (htu : Reachable step? t u) :
    Reachable step? s u := by
  induction htu with
  | start => exact hst
  | step _ hstep ih => exact ih.step hstep

/-- A machine whose steps are made of steps of another one comes only to states to which that one
comes. -/
theorem Reachable.lift {ν : Type} {coarse? : σ → ν → Option σ} {s t : σ}
    (h : Reachable coarse? s t)
    (hsteps : ∀ s n s', coarse? s n = some s' → Reachable step? s s') : Reachable step? s t := by
  induction h with
  | start => exact .start
  | step _ hstep ih => exact ih.trans (hsteps _ _ _ hstep)

/-- What holds at the start and is kept by every step holds of all states that can
be reached. -/
theorem Reachable.invariant {P : σ → Prop} {s t : σ} (h : Reachable step? s t) (hs : P s)
    (hkeep : ∀ s m s', P s → step? s m = some s' → P s') : P t := by
  induction h with
  | start => exact hs
  | step _ hstep ih => exact hkeep _ _ _ ih hstep

/-- Where nothing is possible a machine stays. -/
theorem Reachable.eq_of_stuck {s t : σ} (h : Reachable step? s t) (hstuck : ∀ m, step? s m = none) :
    t = s := by
  refine h.invariant (P := fun t => t = s) rfl ?_
  rintro t m t' rfl hstep
  cases (hstuck m).symm.trans hstep

/-! ### Journals -/

/-- What is noted down along a list of moves, for as long as they are possible. -/
def journal (step? : σ → μ → Option σ) (note? : σ → μ → Option β) : σ → List μ → List β
  | _, [] => []
  | s, m :: ms =>
      (note? s m).toList ++
        match step? s m with
        | some s' => journal step? note? s' ms
        | none => []

/-- What holds of a state and the notes before it, and is kept by every step
together with its note, holds after a run. -/
theorem journal_invariant {note? : σ → μ → Option β} {P : σ → List β → Prop}
    (hkeep : ∀ s J m s', P s J → step? s m = some s' → P s' (J ++ (note? s m).toList))
    {s t : σ} {J : List β} {ms : List μ} (hs : P s J) (hrun : run? step? s ms = some t) :
    P t (J ++ journal step? note? s ms) := by
  -- a step adds its note to those before it, which the induction leaves free
  induction ms generalizing s J with
  | nil =>
      cases hrun
      simpa [journal] using hs
  | cons m ms ih =>
      obtain ⟨u, hu, hrest⟩ := Option.bind_eq_some_iff.1 hrun
      have hnoted := ih (hkeep s J m u hs hu) hrest
      simpa only [journal, hu, List.append_assoc] using hnoted

/-- The same with an empty beginning, when the steps that keep it are known to be those of
states that can be reached. -/
theorem journal_invariant_of_reachable {note? : σ → μ → Option β} {P : σ → List β → Prop} {s t : σ}
    {ms : List μ}
    (hkeep : ∀ u J m u', Reachable step? s u → P u J → step? u m = some u' →
      P u' (J ++ (note? u m).toList))
    (hs : P s []) (hrun : run? step? s ms = some t) : P t (journal step? note? s ms) := by
  have hkept : Reachable step? s t ∧ P t ([] ++ journal step? note? s ms) := by
    apply journal_invariant (P := fun u J => Reachable step? s u ∧ P u J) ?_ ⟨.start, hs⟩ hrun
    rintro u J m u' ⟨hreach, h⟩ hstep
    exact ⟨hreach.step hstep, hkeep u J m u' hreach h hstep⟩
  exact hkept.2

/-! ### Traces -/

/-- What is done along a list of moves, if each of them is possible, with the state after it. -/
def trace? (act? : σ → μ → Option (β × σ)) : σ → List μ → Option (List β × σ)
  | s, [] => some ([], s)
  | s, m :: ms => (act? s m).bind fun r => (trace? act? r.2 ms).map fun rs => (r.1 :: rs.1, rs.2)

section

variable {act? : σ → μ → Option (β × σ)} {s t : σ} {ms : List μ}

theorem trace?_cons_eq_some {m : μ} {xs : List β} :
    trace? act? s (m :: ms) = some (xs, t) ↔
      ∃ x u ys, act? s m = some (x, u) ∧ trace? act? u ms = some (ys, t) ∧ xs = x :: ys := by
  simp only [trace?, Option.bind_eq_some_iff, Option.map_eq_some_iff]
  constructor
  · rintro ⟨⟨x, u⟩, hact, ⟨ys, t'⟩, hrest, heq⟩
    cases heq
    exact ⟨x, u, ys, hact, hrest, rfl⟩
  · rintro ⟨x, u, ys, hact, hrest, rfl⟩
    exact ⟨(x, u), hact, (ys, t), hrest, rfl⟩

/-- What every step keeps, with what it does, holds after a run. -/
theorem trace?_invariant {P : σ → List β → Prop}
    (hkeep : ∀ s J m x s', P s J → act? s m = some (x, s') → P s' (J ++ [x])) {J xs : List β}
    (hs : P s J) (htrace : trace? act? s ms = some (xs, t)) : P t (J ++ xs) := by
  -- a step adds to what was done before, which the induction leaves free
  induction ms generalizing s J xs with
  | nil =>
      cases htrace
      simpa using hs
  | cons m ms ih =>
      obtain ⟨x, u, ys, hact, hrest, rfl⟩ := trace?_cons_eq_some.1 htrace
      have hdone := ih (hkeep s J m x u hs hact) hrest
      rwa [List.append_assoc] at hdone

/-- A run up to one of its steps, the step itself, and the rest. -/
theorem trace?_split {pre post : List β} {x : β}
    (htrace : trace? act? s ms = some (pre ++ x :: post, t)) :
    ∃ ms₁ m ms₂ u v, trace? act? s ms₁ = some (pre, u) ∧ act? u m = some (x, v) ∧
      trace? act? v ms₂ = some (post, t) := by
  induction pre generalizing s ms with
  | nil =>
      cases ms with
      | nil => cases htrace
      | cons m ms =>
          obtain ⟨y, u, ys, hact, hrest, heq⟩ := trace?_cons_eq_some.1 htrace
          cases heq
          exact ⟨[], m, ms, s, u, rfl, hact, hrest⟩
  | cons y pre ih =>
      cases ms with
      | nil => cases htrace
      | cons m ms =>
          obtain ⟨z, u, ys, hact, hrest, heq⟩ := trace?_cons_eq_some.1 htrace
          cases heq
          obtain ⟨ms₁, m', ms₂, v, w, hpre, hact', hpost⟩ := ih hrest
          exact ⟨m :: ms₁, m', ms₂, v, w, trace?_cons_eq_some.2 ⟨_, u, _, hact, hpre, rfl⟩, hact',
            hpost⟩

end

/-! ### Runs that come to an end -/

/-- If every step uses up some work, a run has no more steps than there is work. -/
theorem length_add_work_le {work : σ → Nat}
    (hless : ∀ s m s', step? s m = some s' → work s' < work s) {s t : σ} {ms : List μ}
    (hrun : run? step? s ms = some t) : ms.length + work t ≤ work s := by
  induction ms generalizing s with
  | nil =>
      cases hrun
      simp
  | cons m ms ih =>
      obtain ⟨u, hu, hrest⟩ := Option.bind_eq_some_iff.1 hrun
      have hstep := hless s m u hu
      have hle := ih hrest
      rw [List.length_cons]
      omega

/-- If every state short of the end has a step that lowers some bound, then the end can be
reached from every state that has one. -/
theorem exists_reachable_of_bound {P : σ → Nat → Prop} {final : σ → Prop}
    (hprogress : ∀ s n, P s n → ¬ final s → ∃ m s' n', step? s m = some s' ∧ P s' n' ∧ n' < n)
    {s : σ} {n : Nat} (hs : P s n) : ∃ t n', Reachable step? s t ∧ P t n' ∧ final t := by
  -- on the bound, since only some of the steps are known to lower it
  induction n using Nat.strongRecOn generalizing s with
  | ind n ih =>
      by_cases hfinal : final s
      · exact ⟨s, n, .start, hs, hfinal⟩
      · obtain ⟨m, s', n', hstep, hs', hless⟩ := hprogress s n hs hfinal
        obtain ⟨t, k, hreach, ht⟩ := ih n' hless hs'
        exact ⟨t, k, (Reachable.start.step hstep).trans hreach, ht⟩

/-- If every state short of the end has a step that leaves less work, then the end
can be reached from every state. -/
theorem exists_reachable_of_progress {P final : σ → Prop} {work : σ → Nat}
    (hkeep : ∀ s m s', P s → step? s m = some s' → P s')
    (hprogress : ∀ s, P s → ¬ final s → ∃ m s', step? s m = some s' ∧ work s' < work s)
    {s : σ} (hs : P s) : ∃ t, Reachable step? s t ∧ P t ∧ final t := by
  have hbound : ∀ s n, P s ∧ work s = n → ¬ final s →
      ∃ m s' n', step? s m = some s' ∧ (P s' ∧ work s' = n') ∧ n' < n := by
    rintro s n ⟨hs, rfl⟩ hfinal
    obtain ⟨m, s', hstep, hless⟩ := hprogress s hs hfinal
    exact ⟨m, s', _, hstep, ⟨hkeep s m s' hs hstep, rfl⟩, hless⟩
  obtain ⟨t, n, hreach, ⟨ht, -⟩, hfinal⟩ := exists_reachable_of_bound hbound ⟨hs, rfl⟩
  exact ⟨t, hreach, ht, hfinal⟩

/-! ### The run of the program -/

section

variable {P Q F : σ → Prop} {work : σ → Nat} {n : Nat} {moves : List μ} {k : μ} {s : σ}

theorem burst_invariant (hkeep : ∀ s s', P s → step? s k = some s' → P s') (n : Nat) (hs : P s) :
    P (burst step? k n s) := by
  induction n generalizing s with
  | zero => exact hs
  | succ n ih =>
      rw [burst]
      split
      · next s' hstep => exact ih (hkeep s s' hs hstep)
      · exact hs

/-- What the moves of a round keep holds after the round. -/
theorem round_invariant (hkeep : ∀ s, ∀ m ∈ moves, ∀ s', P s → step? s m = some s' → P s')
    (hs : P s) : P (round step? n moves s) := by
  induction moves generalizing s with
  | nil => exact hs
  | cons m ms ih =>
      exact ih (fun s m' hm' => hkeep s m' (List.mem_cons_of_mem m hm'))
        (burst_invariant (fun s => hkeep s m List.mem_cons_self) n hs)

/-- The run of the program consists of the moves of its rounds. -/
theorem exists_run?_settle (step? : σ → μ → Option σ) (work : σ → Nat) (n : Nat) (moves : List μ)
    (s : σ) :
    ∃ ms, (∀ m ∈ ms, m ∈ moves) ∧ run? step? s ms = some (settle step? work n moves s) := by
  have hround : ∀ t, (∃ ms, (∀ m ∈ ms, m ∈ moves) ∧ run? step? s ms = some t) →
      ∃ ms, (∀ m ∈ ms, m ∈ moves) ∧ run? step? s ms = some (round step? n moves t) := by
    intro t ht
    refine round_invariant (P := fun t => ∃ ms, (∀ m ∈ ms, m ∈ moves) ∧ run? step? s ms = some t)
      ?_ ht
    rintro t m hm t' ⟨ms, hms, hrun⟩ hstep
    refine ⟨ms ++ [m], fun m' hm' => ?_, run?_append hrun (by rw [run?, hstep]; rfl)⟩
    rcases List.mem_append.1 hm' with hold | hnew
    · exact hms m' hold
    · exact List.mem_singleton.1 hnew ▸ hm
  have hsettle : ∀ t, (∃ ms, (∀ m ∈ ms, m ∈ moves) ∧ run? step? s ms = some t) →
      ∃ ms, (∀ m ∈ ms, m ∈ moves) ∧ run? step? s ms = some (settle step? work n moves t) := by
    intro t ht
    fun_induction settle step? work n moves t with
    | case1 t t' hlt ih => exact ih (hround t ht)
    | case2 t t' hnot => exact hround t ht
  exact hsettle s ⟨[], fun m hm => (nomatch hm), rfl⟩

/-- The run of the program is one of the runs of the machine. -/
theorem reachable_settle (step? : σ → μ → Option σ) (work : σ → Nat) (n : Nat) (moves : List μ)
    (s : σ) : Reachable step? s (settle step? work n moves s) := by
  obtain ⟨ms, -, hrun⟩ := exists_run?_settle step? work n moves s
  exact reachable_run? .start hrun

theorem round_append (pre post : List μ) (s : σ) :
    round step? n (pre ++ post) s = round step? n post (round step? n pre s) :=
  List.foldl_append

/-- Where nothing is possible a round does nothing. -/
theorem round_of_stuck (h : ∀ m ∈ moves, step? s m = none) : round step? n moves s = s := by
  refine round_invariant (P := fun t => t = s) ?_ rfl
  rintro t m hm t' rfl hstep
  cases (h m hm).symm.trans hstep

/-- A round uses up work if there is an actor that can use up work, and can still do so after
every step that uses up none. -/
theorem work_round_lt
    (hkeep : ∀ s, ∀ m ∈ moves, ∀ s', P s → step? s m = some s' → P s' ∧ work s' ≤ work s)
    (hdue : ∀ s, P s → Q s → ∃ s', step? s k = some s' ∧ work s' < work s)
    (hsteady : ∀ s, ∀ m ∈ moves, ∀ s', P s → Q s → step? s m = some s' → work s' < work s ∨ Q s')
    (hn : 0 < n) (hk : k ∈ moves) (hs : P s) (hQ : Q s) :
    work (round step? n moves s) < work s := by
  obtain ⟨pre, post, rfl⟩ := List.append_of_mem hk
  obtain ⟨n, rfl⟩ := Nat.exists_eq_succ_of_ne_zero (Nat.ne_of_gt hn)
  -- once work was used up, no move makes up for it
  have hless : ∀ s', ∀ m ∈ pre ++ k :: post, ∀ s'', P s' ∧ work s' < work s →
      step? s' m = some s'' → P s'' ∧ work s'' < work s := by
    rintro s' m hm s'' ⟨hs', hlt⟩ hstep
    obtain ⟨hs'', hle⟩ := hkeep s' m hm s'' hs' hstep
    exact ⟨hs'', Nat.lt_of_le_of_lt hle hlt⟩
  -- before its turn the actor can still use up work, or work was used up already
  have hready : (P (round step? (n + 1) pre s) ∧ work (round step? (n + 1) pre s) ≤ work s) ∧
      (work (round step? (n + 1) pre s) < work s ∨ Q (round step? (n + 1) pre s)) := by
    refine round_invariant (P := fun t => (P t ∧ work t ≤ work s) ∧ (work t < work s ∨ Q t)) ?_
      ⟨⟨hs, Nat.le_refl _⟩, .inr hQ⟩
    rintro t m hm t' ⟨⟨ht, hle⟩, hor⟩ hstep
    have hm : m ∈ pre ++ k :: post := List.mem_append_left _ hm
    obtain ⟨ht', hstepped⟩ := hkeep t m hm t' ht hstep
    refine ⟨⟨ht', Nat.le_trans hstepped hle⟩, ?_⟩
    rcases hor with hlt | hQ
    · exact .inl (Nat.lt_of_le_of_lt hstepped hlt)
    · exact (hsteady t m hm t' ht hQ hstep).imp_left fun hlt => Nat.lt_of_lt_of_le hlt hle
  rw [round_append]
  generalize round step? (n + 1) pre s = t at hready
  obtain ⟨⟨ht, hle⟩, hlt | hQ⟩ := hready
  · exact (round_invariant (fun s' m hm => hless s' m (List.mem_append_right _ hm)) ⟨ht, hlt⟩).2
  · obtain ⟨u, hstep, hlt⟩ := hdue t ht hQ
    have hu := (hkeep t k (List.mem_append_right _ List.mem_cons_self) u ht hstep).1
    have hturn : round step? (n + 1) (k :: post) t =
        round step? (n + 1) post (burst step? k n u) := by
      simp only [round, List.foldl_cons, burst, hstep]
    rw [hturn]
    have hburst : P (burst step? k n u) ∧ work (burst step? k n u) < work s :=
      burst_invariant (fun s' s'' => hless s' k (List.mem_append_right _ List.mem_cons_self) s'') n
        ⟨hu, Nat.lt_of_lt_of_le hlt hle⟩
    exact (round_invariant (fun s' m hm => hless s' m
      (List.mem_append_right _ (List.mem_cons_of_mem k hm))) hburst).2

/-- If each round uses up work until the end, the run of the program comes to the end. -/
theorem settle_ends (hkeep : ∀ s, ∀ m ∈ moves, ∀ s', P s → step? s m = some s' → P s')
    (hround : ∀ s, P s → ¬ F s → work (round step? n moves s) < work s)
    (hfinal : ∀ s, P s → F s → F (round step? n moves s)) (hs : P s) :
    F (settle step? work n moves s) := by
  fun_induction settle step? work n moves s with
  | case1 s t hlt ih => exact ih (round_invariant hkeep hs)
  | case2 s t hnot => exact hfinal s hs (Classical.not_not.1 fun h => hnot (hround s hs h))

/-- If every step uses up work, nothing is possible any more after the run of the program. -/
theorem settle_stuck
    (hless : ∀ s, ∀ m ∈ moves, ∀ s', P s → step? s m = some s' → P s' ∧ work s' < work s)
    (hn : 0 < n) (hs : P s) : ∀ m ∈ moves, step? (settle step? work n moves s) m = none := by
  refine settle_ends (P := P) (F := fun t => ∀ m ∈ moves, step? t m = none)
    (fun s m hm s' h hstep => (hless s m hm s' h hstep).1) ?_ ?_ hs
  · intro s hs hnot
    obtain ⟨k, hk⟩ := Classical.not_forall.1 hnot
    obtain ⟨hk, hpossible⟩ := Classical.not_imp.1 hk
    refine work_round_lt (P := P) (Q := fun t => step? t k ≠ none) (k := k)
      (fun s m hm s' h hstep => (hless s m hm s' h hstep).imp_right Nat.le_of_lt) ?_
      (fun s m hm s' h _ hstep => .inl (hless s m hm s' h hstep).2) hn hk hs hpossible
    intro t ht hne
    obtain ⟨t', hstep⟩ := Option.ne_none_iff_exists'.1 hne
    exact ⟨t', hstep, (hless t k hk t' ht hstep).2⟩
  · intro s _ hstuck
    rwa [round_of_stuck hstuck]

end

end Newsroom.Schedule
