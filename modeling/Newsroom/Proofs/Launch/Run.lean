import Newsroom.Proofs.Launch.Regular

/-!
# The run of the program

The program runs a launch by giving each actor its turn, over and over.  This is one of the runs
that a launch can have, and it comes to its end.

## Main Definitions

* `Launch.Due` — a move that is possible and is no vain look

## Main Statements

* `reachable_run` — the run of the program leads to a state that can be reached
* `Due.of_vain` — what is due stays due while the dispatcher looks in vain
* `Staffed.returned_run` — the launcher has returned after the run of the program, whatever the
  display does
* `Regular.isComplete_run` — if the display does not panic, the run of the program completes the
  launch

## Implementation Notes

A round uses up work although the looks of the dispatcher need not: whoever else can do something
can still do it when its turn comes, as a vain look changes only the dispatcher.
-/

namespace Newsroom

variable {ρ α : Type} [CategorySource ρ] [Payload α]

/-- What another stage does depends on nothing that the dispatcher keeps to itself. -/
theorem Floor.Step.with_dispatcher {sink : Sink} {f f' : Floor ρ α} {a : Actor}
    (h : Step sink f a f') (ha : a ≠ .dispatcher) (d : Dispatcher α) :
    ∃ f'', Step sink { f with dispatcher := d } a f'' := by
  cases h with
  | write hp hphase => exact ⟨_, .write hp hphase⟩
  | handOver hp hheld hq hroom => exact ⟨_, .handOver hp hheld hq hroom⟩
  | take hphase hm => exact ⟨_, .take hphase hm⟩
  | forward hphase hroom => exact ⟨_, .forward hphase hroom⟩
  | display hphase hm => exact ⟨_, .display hphase hm⟩
  | finish hphase => exact ⟨_, .finish hphase⟩
  | _ => exact absurd rfl ha

/-- A vain look changes only the dispatcher, which is still at work. -/
theorem Floor.Step.eq_of_vain {sink : Sink} {f f' : Floor ρ α}
    (h : Step sink f .dispatcher f') (hvain : f.looksInVain = true) :
    f.standing .dispatcher = .working ∧ ∃ d, f' = { f with dispatcher := d } := by
  cases h with
  | miss hphase hq hempty => exact ⟨by simp [standing, hphase], _, rfl⟩
  | takeDone hphase hq hm =>
      simp [looksInVain, hphase, hq, Queue.isEmpty, (Queue.items_remove? hm).1] at hvain
  | takeItem hphase hq hm hc =>
      simp [looksInVain, hphase, hq, Queue.isEmpty, (Queue.items_remove? hm).1] at hvain
  | drop hphase hq hm hc =>
      simp [looksInVain, hphase, hq, Queue.isEmpty, (Queue.items_remove? hm).1] at hvain
  | route hphase hroom => simp [looksInVain, hphase] at hvain
  | check hphase hq => simp [looksInVain, hphase] at hvain
  | close hphase hroom => simp [looksInVain, hphase] at hvain

namespace Launch

variable {setup : Setup} {l l' : Launch ρ α} {m : Move}

/-- A move that is possible and is no vain look. -/
def Due (setup : Setup) (l : Launch ρ α) (m : Move) : Prop :=
  l.isVain m = false ∧ ∃ l', step? setup l m = some l'

/-- What is possible besides the dispatcher is possible with another one, unless the launcher has
waited for this one. -/
theorem Step.with_dispatcher (h : Step setup l m l') (hm : m ≠ .stage .dispatcher)
    (hworking : l.floor.standing .dispatcher = .working) (d : Dispatcher α) :
    ∃ l'', Step setup { l with floor := { l.floor with dispatcher := d } } m l'' := by
  have hothers : ∀ a, l.floor.standing a ≠ .working →
      Floor.standing { l.floor with dispatcher := d } a = l.floor.standing a := by
    intro a ha
    cases a with
    | dispatcher => exact absurd hworking ha
    | _ => rfl
  cases h with
  | @stage a floor hstarted hfloor =>
      obtain ⟨floor', hfloor'⟩ := hfloor.with_dispatcher (fun ha => hm (congrArg Move.stage ha)) d
      exact ⟨_, .stage hstarted hfloor'⟩
  | start hphase hnext hable => exact ⟨_, .start hphase hnext hable⟩
  | fail hphase hnext hunable hfault => exact ⟨_, .fail hphase hnext hunable rfl⟩
  | allStarted hphase hnone => exact ⟨_, .allStarted hphase hnone⟩
  | @mark p ps stages fault floor hphase hinsert =>
      obtain ⟨q, r, hq, hroom, -⟩ := Floor.insert?_eq_some_iff.1 hinsert
      have hqueue : Floor.queue? { l.floor with dispatcher := d } p = some q := by
        cases p <;> exact hq
      exact ⟨_, .mark hphase (Floor.insert?_eq_some_iff.2 ⟨q, r, hqueue, hroom, rfl⟩)⟩
  | @clear a as fault r hphase hjoin =>
      have hended : l.floor.standing a ≠ .working := fun h => by simp [join?, h] at hjoin
      obtain ⟨r', hr'⟩ := exists_join? (hothers a hended ▸ hended)
      exact ⟨_, .clear hphase hr'⟩
  | giveUp hphase => exact ⟨_, .giveUp hphase⟩
  | join hphase hstanding =>
      exact ⟨_, .join hphase ((hothers _ (by simp [hstanding])).trans hstanding)⟩
  | joinPanicked hphase hstanding =>
      exact ⟨_, .joinPanicked hphase ((hothers _ (by simp [hstanding])).trans hstanding)⟩
  | report hphase => exact ⟨_, .report hphase⟩

/-- What is due stays due while the dispatcher looks in vain. -/
theorem Due.of_vain {k : Move} (h : Due setup l m) (hvain : l.isVain k = true)
    (hstep : Step setup l k l') : Due setup l' m := by
  obtain ⟨hbusy, n, hn⟩ := h
  cases hstep with
  | @stage a floor hstarted hfloor =>
      obtain ⟨rfl, hlook⟩ := isVain_stage_iff.1 hvain
      obtain ⟨hworking, d, rfl⟩ := hfloor.eq_of_vain hlook
      have hm : m ≠ .stage .dispatcher := by
        rintro rfl
        exact absurd (hbusy.symm.trans hvain) (by decide)
      obtain ⟨l'', hl''⟩ := (step?_eq_some_iff.1 hn).with_dispatcher hm hworking d
      refine ⟨?_, l'', hl''.step?_eq⟩
      cases m with
      | launcher => rfl
      | stage b => exact Bool.eq_false_iff.2 fun h => hm (congrArg _ (isVain_stage_iff.1 h).1)
  | _ => cases hvain

/-! ### The end -/

/-- The run of the program leads to a state that can be reached. -/
theorem reachable_run (setup : Setup) (l : Launch ρ α) :
    Schedule.Reachable (step? setup) l (run setup l) :=
  Schedule.reachable_settle _ _ _ _ _

/-- A launcher that has returned does nothing more. -/
theorem Step.isSome_result? (h : Step setup l m l') (hreturned : l.result?.isSome = true) :
    l'.result?.isSome = true := by
  cases h with
  | stage hstarted hfloor =>
      revert hreturned
      cases hphase : l.phase with
      | returned fault? => cases fault? <;> simp [result?, hphase]
      | _ => simp [result?, hphase]
  | start hphase => simp [result?, hphase] at hreturned
  | fail hphase => simp [result?, hphase] at hreturned
  | allStarted hphase => simp [result?, hphase] at hreturned
  | mark hphase => simp [result?, hphase] at hreturned
  | clear hphase => simp [result?, hphase] at hreturned
  | giveUp hphase => simp [result?, hphase] at hreturned
  | join hphase => simp [result?, hphase] at hreturned
  | joinPanicked hphase => simp [result?, hphase] at hreturned
  | report hphase => simp [result?, hphase] at hreturned

/-- The launcher has returned after the run of the program, whatever the display does. -/
theorem Staffed.returned_run (h : l.Staffed) (hable : setup.failAt = none) :
    (run setup l).result?.isSome = true := by
  have hkeep : ∀ (s : Launch ρ α), ∀ m ∈ moves l.floor, ∀ s',
      s.Staffed ∧ s.floor.actors = l.floor.actors → step? setup s m = some s' →
      (s'.Staffed ∧ s'.floor.actors = l.floor.actors) ∧ s'.work ≤ s.work := by
    rintro s m - s' ⟨hs, hactors⟩ hstep
    have hstep := step?_eq_some_iff.1 hstep
    have hless := hs.work_step hable hstep
    exact ⟨⟨hs.step hable hstep, hstep.actors_eq.trans hactors⟩, by omega⟩
  refine Schedule.settle_ends (P := fun s => s.Staffed ∧ s.floor.actors = l.floor.actors)
    (F := fun s => s.result?.isSome = true)
    (fun s m hm s' hs hstep => (hkeep s m hm s' hs hstep).1) ?_ ?_ ⟨h, rfl⟩
  · rintro s ⟨hs, hactors⟩ hgoing
    obtain ⟨m, s', hstep, hbusy⟩ := hs.progress hable (by simpa using hgoing)
    have hm : m ∈ moves l.floor := by
      have hmem := mem_moves_of_step? hstep
      rwa [moves, hactors] at hmem
    have hturn : 0 < l.floor.turn + l.floor.actors.length := by
      rw [Floor.turn]
      omega
    refine Schedule.work_round_lt (Q := fun s => Due setup s m) hkeep ?_ ?_ hturn hm
      ⟨hs, hactors⟩ ⟨hbusy, s', hstep⟩
    · rintro t ⟨ht, -⟩ ⟨hbusy, t', hstep⟩
      have hless := ht.work_step hable (step?_eq_some_iff.1 hstep)
      rw [hbusy] at hless
      exact ⟨t', hstep, hless⟩
    · rintro t k - t' ⟨ht, -⟩ hdue hstep
      have hless := ht.work_step hable (step?_eq_some_iff.1 hstep)
      cases hvain : t.isVain k with
      | true => exact .inr (hdue.of_vain hvain (step?_eq_some_iff.1 hstep))
      | false =>
          rw [hvain] at hless
          exact .inl hless
  · intro s _ hreturned
    refine Schedule.round_invariant (P := fun s : Launch ρ α => s.result?.isSome = true) ?_
      hreturned
    exact fun t m _ t' ht hstep => (step?_eq_some_iff.1 hstep).isSome_result? ht

/-- If the display does not panic, the run of the program completes the launch. -/
theorem Regular.isComplete_run (h : l.Regular) (hable : setup.failAt = none)
    (hsink : setup.sink.NeverPanics) : (run setup l).IsComplete :=
  (regular_of_reachable hable hsink h (reachable_run setup l)).complete_of_returned
    (h.staffed.returned_run hable)

end Launch

end Newsroom
