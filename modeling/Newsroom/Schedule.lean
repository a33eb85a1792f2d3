/-!
# Schedules

Machines whose steps are taken by several actors, and the orders in which they
may be taken.

## Main Definitions

* `Schedule.run?` — a machine along a list of moves
* `Schedule.Reachable` — the states that some list of moves leads to
* `Schedule.burst`, `Schedule.round` — each actor in turn, as far as it comes
* `Schedule.settle` — rounds for as long as they reduce the work that is left

## Design Notes

A machine is a function `step? : σ → μ → Option σ` that answers `none` for a move
that is not possible.  Theorems speak of all reachable states; a run of the
program is one schedule, `settle`.
-/

namespace Newsroom.Schedule

variable {σ μ : Type}

/-- The state after a list of moves, if each of them is possible. -/
def run? (step? : σ → μ → Option σ) : σ → List μ → Option σ
  | s, [] => some s
  | s, m :: ms => (step? s m).bind fun s => run? step? s ms

/-- The states that a machine can come to. -/
inductive Reachable (step? : σ → μ → Option σ) (s₀ : σ) : σ → Prop where
  | start : Reachable step? s₀ s₀
  | step {s s' : σ} {m : μ} :
    Reachable step? s₀ s → step? s m = some s' → Reachable step? s₀ s'

/-- At most `n` moves of one actor. -/
def burst (step? : σ → μ → Option σ) (m : μ) : Nat → σ → σ
  | 0, s => s
  | n + 1, s =>
      match step? s m with
      | some s' => burst step? m n s'
      | none => s

/-- At most `n` moves of each actor in turn. -/
def round (step? : σ → μ → Option σ) (n : Nat) (moves : List μ) (s : σ) : σ :=
  moves.foldl (fun s m => burst step? m n s) s

/-- Rounds of moves until the work that is left no longer shrinks. -/
def settle (step? : σ → μ → Option σ) (work : σ → Nat) (n : Nat) (moves : List μ) (s : σ) : σ :=
  let s' := round step? n moves s
  if work s' < work s then settle step? work n moves s' else s'
termination_by work s

/-- What a list of moves leads to is reachable. -/
theorem reachable_run? {step? : σ → μ → Option σ} {s₀ s s' : σ} {ms : List μ}
    (h : Reachable step? s₀ s) (hrun : run? step? s ms = some s') : Reachable step? s₀ s' := by
  induction ms generalizing s with
  | nil => cases hrun; exact h
  | cons m ms ih =>
      obtain ⟨t, ht, hrest⟩ := Option.bind_eq_some_iff.1 hrun
      exact ih (h.step ht) hrest

end Newsroom.Schedule
