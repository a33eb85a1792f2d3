import Newsroom.Pipeline.Bench
import Newsroom.Proofs.Floor.Progress
import Newsroom.Proofs.Floor.Work
import Newsroom.Proofs.Schedule

/-!
# What happens on a bench

The moves of a bench, with what they need and change, and how long a bench can go on without the
dispatcher.

## Main Statements

* `act_eq_some_iff`, `collect_eq_some_iff` — a step of a stage, and a message that a reader takes
* `insert_or_collect` — a writer that cannot go on leaves something to its reader
* `work_lt` — whatever the dispatcher does not do uses up some work
* `runs_within` — what such moves keep holds after a run of them, and the run has an end
* `exists_run?`, `run_stuck` — the run of the program consists of the given moves, and without the
  dispatcher it goes on until none of them is possible
-/

namespace Newsroom.Bench

variable {ρ α : Type} [CategorySource ρ] [Payload α] {sink : Sink} {b b' : Bench ρ α}

theorem act_eq_some_iff {a : Actor} :
    step? sink b (.act a) = some b' ↔
      ∃ floor, Floor.Step sink b.floor a floor ∧ b' = { b with floor } := by
  rw [step?, Option.map_eq_some_iff]
  constructor
  · rintro ⟨floor, hfloor, rfl⟩
    exact ⟨floor, Floor.step?_eq_some_iff.1 hfloor, rfl⟩
  · rintro ⟨floor, hfloor, rfl⟩
    exact ⟨floor, Floor.step?_eq_some_iff.2 hfloor, rfl⟩

theorem collect_eq_some_iff {p : Place} :
    step? sink b (.collect p) = some b' ↔
      ∃ q m r, b.floor.queue? p = some q ∧ q.remove? = some (m, r) ∧
        b' = ⟨b.floor.setQueue p r, b.collected ++ [(p, m)]⟩ := by
  rw [step?, Option.map_eq_some_iff]
  constructor
  · rintro ⟨⟨m, floor⟩, hremove, rfl⟩
    obtain ⟨q, r, hq, hm, rfl⟩ := Floor.remove?_eq_some_iff.1 hremove
    exact ⟨q, m, r, hq, hm, rfl⟩
  · rintro ⟨q, m, r, hq, hm, rfl⟩
    exact ⟨(m, _), Floor.remove?_eq_some_iff.2 ⟨q, r, hq, hm, rfl⟩, rfl⟩

/-- A message can be put into a queue with room, or else a reader can take one. -/
theorem insert_or_collect {p : Place} {q : Queue (Message α)} (hq : b.floor.queue? p = some q)
    (hroom : 0 < q.capacity) (m : Message α) :
    (∃ r, q.insert? m = some r) ∨ ∃ b', step? sink b (.collect p) = some b' := by
  by_cases hfull : q.items.length < q.capacity
  · exact .inl (Floor.exists_insert? m hfull)
  · have hitems : q.items ≠ [] := by
      intro hempty
      rw [hempty, List.length_nil] at hfull
      exact hfull hroom
    obtain ⟨m, r, hr⟩ := Floor.exists_remove? hitems
    exact .inr ⟨_, collect_eq_some_iff.2 ⟨q, m, r, hq, hr, rfl⟩⟩

omit [CategorySource ρ] [Payload α] in
/-- A queue is less work without its first message. -/
theorem work_setQueue_lt {f : Floor ρ α} {p : Place} {q r : Queue (Message α)} {m : Message α}
    (hq : f.queue? p = some q) (hm : q.remove? = some (m, r)) : (f.setQueue p r).work < f.work := by
  cases p with
  | source i =>
      have hsources := exactSum_map_set (Floor.queueWork 6 3) hq r
      have hqueue := Floor.queueWork_remove 6 3 hm
      have hweight : 0 < Floor.weight 6 3 m := Floor.weight_pos (by decide) (by decide) m
      simp only [Floor.work, Floor.setQueue]
      omega
  | category c =>
      cases hq
      have hcategories := exactSum_toList_set (Floor.queueWork 4 4) f.categories c r
      have hqueue := Floor.queueWork_remove 4 4 hm
      have hweight : 0 < Floor.weight 4 4 m := Floor.weight_pos (by decide) (by decide) m
      simp only [Floor.work, Floor.setQueue]
      omega
  | screen =>
      cases hq
      have hqueue := Floor.queueWork_remove 2 2 hm
      have hweight : 0 < Floor.weight 2 2 m := Floor.weight_pos (by decide) (by decide) m
      simp only [Floor.work, Floor.setQueue]
      omega

/-- Whatever the dispatcher does not do uses up some work. -/
theorem work_lt {m : Move} (hm : m ≠ .act .dispatcher) (hstep : step? sink b m = some b') :
    b'.work < b.work := by
  cases m with
  | collect p =>
      obtain ⟨q, m, r, hq, hr, rfl⟩ := collect_eq_some_iff.1 hstep
      exact work_setQueue_lt hq hr
  | act a =>
      obtain ⟨floor, hfloor, rfl⟩ := act_eq_some_iff.1 hstep
      cases a with
      | screen => exact Floor.work_step_screen hfloor
      | coEditor c => exact Floor.work_step_coEditor hfloor
      | producer i => exact Floor.work_step_producer hfloor
      | dispatcher => exact absurd rfl hm

/-- What some moves keep, none of them by the dispatcher, holds after a run of them, and the run
is no longer than the work that it uses up. -/
theorem runs_within {moves ms : List Move} {P : Bench ρ α → Prop}
    (hothers : ∀ m ∈ moves, m ≠ .act .dispatcher)
    (hkeep : ∀ b m b', m ∈ moves → P b → step? sink b m = some b' → P b')
    (hmoves : ∀ m ∈ ms, m ∈ moves) (hb : P b) (hrun : Schedule.run? (step? sink) b ms = some b') :
    P b' ∧ ms.length + b'.work ≤ b.work := by
  induction ms generalizing b with
  | nil =>
      cases hrun
      exact ⟨hb, Nat.le_of_eq (Nat.zero_add _)⟩
  | cons m ms ih =>
      obtain ⟨b₁, hstep, hrest⟩ := Option.bind_eq_some_iff.1 hrun
      have hm := hmoves m List.mem_cons_self
      obtain ⟨hfinal, hbound⟩ :=
        ih (fun m hm => hmoves m (List.mem_cons_of_mem _ hm)) (hkeep b m b₁ hm hb hstep) hrest
      have hless := work_lt (hothers m hm) hstep
      refine ⟨hfinal, ?_⟩
      rw [List.length_cons]
      omega

/-! ### The run of the program -/

/-- The run of the program consists of the given moves. -/
theorem exists_run? (sink : Sink) (moves : List Move) (floor : Floor ρ α) :
    ∃ ms, (∀ m ∈ ms, m ∈ moves) ∧
      Schedule.run? (step? sink) { floor } ms = some (run sink moves floor) :=
  Schedule.exists_run?_settle _ _ _ _ _

/-- If the dispatcher has no part in it, none of the given moves is possible any more after the run
of the program. -/
theorem run_stuck {moves : List Move} (hothers : ∀ m ∈ moves, m ≠ .act .dispatcher)
    (floor : Floor ρ α) : ∀ m ∈ moves, step? sink (run sink moves floor) m = none := by
  have hturn : 0 < floor.turn := by
    rw [Floor.turn]
    omega
  exact Schedule.settle_stuck (P := fun _ => True)
    (fun b m hm b' _ hstep => ⟨trivial, work_lt (hothers m hm) hstep⟩) hturn trivial

end Newsroom.Bench
