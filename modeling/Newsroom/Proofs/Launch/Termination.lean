import Newsroom.Proofs.Launch.Regular
import Newsroom.Random.Generator

/-!
# Every launch comes to an end

Whatever the capacities of the queues and the order of the steps, no launch gets
stuck, and it ends after a bounded number of steps besides the vain looks of the
dispatcher.

## Main Definitions

* `Launch.stepBound` — how many steps there can be besides vain looks
* `Launch.notVain?` — a move, unless it is a vain look

## Main Statements

* `always_completes` — a complete launch can be reached from every state of a launch,
  and all runs have a bounded number of steps that are not vain looks
-/

namespace Newsroom.Launch

variable {ρ α : Type} [SeededSource ρ] [Payload α] {c : Config} {o : Overrides}
  {randomSeed : UInt64} {p : Pipeline α} {setup : Setup}

/-- How many steps a launch can take at most, vain looks of the dispatcher apart. -/
def stepBound (c : Config) : Nat :=
  8 * exactSum (c.producers.map fun spec => spec.messages.toNat) + 18 * c.producers.length + 101

/-- A move that is to be counted. -/
def notVain? {ρ : Type} (l : Launch ρ α) (m : Move) : Option Move :=
  if l.isVain m then none else some m

omit [Payload α] in
theorem length_notVain? {ρ : Type} (l : Launch ρ α) (m : Move) :
    (notVain? l m).toList.length = if l.isVain m then 0 else 1 := by
  unfold notVain?
  cases l.isVain m <;> rfl

omit [Payload α] in
theorem work_ofPipeline (hbuild : Pipeline.build c o randomSeed = .ok p) :
    (ofPipeline p : Launch ρ α).work = stepBound c := by
  have hfloor := (Pipeline.build_fresh (ρ := ρ) hbuild).work_eq
  have hremaining := Pipeline.remaining_producers (ρ := ρ) hbuild
  have hlength : (p.floor : Floor ρ α).producers.length = c.producers.length := by
    show (p.producers : List (Producer ρ)).length = _
    rw [← List.length_map (f := Producer.remaining), hremaining, List.length_map]
  have hactors : (ofPipeline p : Launch ρ α).floor.actors.length = c.producers.length + 5 := by
    rw [Floor.length_actors]
    exact congrArg (· + 5) hlength
  rw [hlength, show (p.floor : Floor ρ α).producers = p.producers from rfl, hremaining] at hfloor
  simp only [work, hactors, stepBound]
  show (p.floor : Floor ρ α).work + (30 + 10 * _ + (_ - 0)) = _
  omega

/-- Along a run the work that is left and the steps that were not vain do not exceed
the work at the beginning. -/
theorem notVain_le_work {ρ : Type} [CategorySource ρ] {l₀ l : Launch ρ α} {ms : List Move}
    (hable : setup.failAt = none) (hsink : setup.sink.NeverPanics) (h₀ : l₀.Regular)
    (hrun : Schedule.run? (step? setup) l₀ ms = some l) :
    (Schedule.journal (step? setup) notVain? l₀ ms).length ≤ l₀.work := by
  -- a step that is noted down is paid for with work, and the others make none
  have hkeep : ∀ (l : Launch ρ α) (J : List Move) (m : Move) (l' : Launch ρ α),
      l.Regular ∧ J.length + l.work ≤ l₀.work → step? setup l m = some l' →
        l'.Regular ∧ (J ++ (notVain? l m).toList).length + l'.work ≤ l₀.work := by
    rintro l J m l' ⟨hregular, hle⟩ hstep
    have hless := hregular.work_step hable (step?_eq_some_iff.1 hstep)
    refine ⟨hregular.step hable hsink (step?_eq_some_iff.1 hstep), ?_⟩
    rw [List.length_append, length_notVain?]
    omega
  have hbound := (Schedule.journal_invariant hkeep (J := []) ⟨h₀, by simp⟩ hrun).2
  rw [List.nil_append] at hbound
  omega

/-- From every state of a launch it can be completed, some step that is not a vain
look is possible until it is, and all its runs together have a bound for the number of
such steps. -/
theorem always_completes (hbuild : Pipeline.build c o randomSeed = .ok p)
    (hable : setup.failAt = none) (hsink : setup.sink.NeverPanics) :
    (∀ l : Launch ρ α, Schedule.Reachable (step? setup) (ofPipeline p) l →
      ∃ l', Schedule.Reachable (step? setup) l l' ∧ l'.IsComplete) ∧
    (∀ l : Launch ρ α, Schedule.Reachable (step? setup) (ofPipeline p) l → ¬ l.IsComplete →
      ∃ m l', step? setup l m = some l' ∧ l.isVain m = false) ∧
    ∀ ms (l : Launch ρ α), Schedule.run? (step? setup) (ofPipeline p) ms = some l →
      (Schedule.journal (step? setup) notVain? (ofPipeline p : Launch ρ α) ms).length ≤
        stepBound c := by
  have hregular : ∀ l : Launch ρ α, Schedule.Reachable (step? setup) (ofPipeline p) l →
      l.Regular :=
    fun l => regular_of_reachable hable hsink (regular_ofPipeline hbuild)
  refine ⟨?_, ?_, ?_⟩
  · intro l hreach
    exact (hregular l hreach).exists_complete hable hsink
  · intro l hreach hnot
    exact (hregular l hreach).progress hable hnot
  · intro ms l hrun
    rw [← work_ofPipeline (ρ := ρ) hbuild]
    exact notVain_le_work hable hsink (regular_ofPipeline hbuild) hrun

/-- A display that refuses every line does not keep a launch from being completed. -/
theorem always_completes_lone :
    Pipeline.build Config.lone {} 7 = .ok Pipeline.lone ∧
      (∃ l : Launch Generator Article, Schedule.Reachable
        (step? { sink := fun _ => .refuse .tryAgain }) (ofPipeline Pipeline.lone) l ∧
          l.IsComplete) ∧
      stepBound Config.lone = 127 :=
  ⟨Pipeline.build_lone,
    (always_completes Pipeline.build_lone rfl fun _ h => by cases h).1 _ .start, rfl⟩

end Newsroom.Launch
