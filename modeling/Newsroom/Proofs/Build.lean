import Newsroom.Pipeline.Build
import Newsroom.Proofs.Floor.Order

/-!
# Pipelines that were built

What `Pipeline.build` promises of a pipeline that it returns.

## Main Definitions

* `Pipeline.drawn` — how many articles a producer writes of each category
* `Config.lone`, `Pipeline.lone` — the smallest newsroom that has an article
* `Config.duet`, `Pipeline.duet` — one with two producers

## Main Statements

* `build_eq_ok` — the configuration and the seed of a pipeline that was built
* `build_fresh` — its floor is one on which nothing has happened
-/

namespace Newsroom

/-- A computation that succeeds has succeeded in both of its parts. -/
theorem exists_of_bind_eq_ok {ε β γ : Type} {x : Except ε β} {f : β → Except ε γ} {b : γ}
    (h : (x >>= f) = .ok b) : ∃ a, x = .ok a ∧ f a = .ok b := by
  cases x with
  | error e => cases h
  | ok a => exact ⟨a, rfl, h⟩

variable {α : Type}

/-- A queue that is made is empty and has room. -/
theorem Queue.make_eq_ok {name : String} {capacity : Nat} {q : Queue α}
    (h : Queue.make name capacity = .ok q) : q.items = [] ∧ 0 < q.capacity := by
  unfold Queue.make at h
  split at h
  · cases h
  · next hroom =>
    cases h
    exact ⟨rfl, Nat.pos_of_ne_zero hroom⟩

namespace Build

/-- There is one empty queue with room for each producer. -/
theorem sources_eq_ok {ps : List ProducerSpec} {qs : List (Queue (Message α))}
    (h : sources ps = .ok qs) :
    qs.length = ps.length ∧ ∀ q ∈ qs, q.items = [] ∧ 0 < q.capacity := by
  induction ps generalizing qs with
  | nil =>
      cases h
      exact ⟨rfl, by simp⟩
  | cons p ps ih =>
      obtain ⟨q, hq, h⟩ := exists_of_bind_eq_ok h
      obtain ⟨rest, hrest, h⟩ := exists_of_bind_eq_ok h
      cases h
      obtain ⟨hlength, hqueues⟩ := ih hrest
      refine ⟨by rw [List.length_cons, List.length_cons, hlength], ?_⟩
      rw [List.forall_mem_cons]
      exact ⟨Queue.make_eq_ok hq, hqueues⟩

/-- Each category has an empty queue with room. -/
theorem categories_eq_ok {capacity : Nat} {qs : ByCategory (Queue (Message α))}
    (h : categories capacity = .ok qs) (c : Category) :
    (qs.get c).items = [] ∧ 0 < (qs.get c).capacity := by
  obtain ⟨sports, hsports, h⟩ := exists_of_bind_eq_ok h
  obtain ⟨news, hnews, h⟩ := exists_of_bind_eq_ok h
  obtain ⟨weather, hweather, h⟩ := exists_of_bind_eq_ok h
  cases h
  cases c with
  | sports => exact Queue.make_eq_ok hsports
  | news => exact Queue.make_eq_ok hnews
  | weather => exact Queue.make_eq_ok hweather

end Build

namespace Pipeline

variable {ρ : Type} [SeededSource ρ] {c : Config} {o : Overrides} {randomSeed : UInt64}
  {p : Pipeline α}

/-- What a pipeline that was built consists of. -/
theorem build_eq_ok (h : build c o randomSeed = .ok p) :
    p.config = o.apply c ∧ p.seed = (o.seed <|> c.settings.seed).getD randomSeed ∧
      Build.sources c.producers = .ok p.sources ∧
      Build.categories c.coEditorQueueSize.toNat = .ok p.categories ∧
      Queue.make Build.screenName c.coEditorQueueSize.toNat = .ok p.screenQueue := by
  obtain ⟨sources, hsources, h⟩ := exists_of_bind_eq_ok h
  obtain ⟨categories, hcategories, h⟩ := exists_of_bind_eq_ok h
  obtain ⟨screenQueue, hscreen, h⟩ := exists_of_bind_eq_ok h
  cases h
  exact ⟨rfl, rfl, hsources, hcategories, hscreen⟩

/-- No override changes the producers. -/
theorem producers_of_build (h : build c o randomSeed = .ok p) :
    p.config.producers = c.producers := by
  rw [(build_eq_ok h).1]
  rfl

/-- The producers of a pipeline, in the order of their configuration. -/
theorem producers_getElem? (p : Pipeline α) (i : Nat) :
    (p.producers : List (Producer ρ))[i]? = (p.config.producers[i]?).map fun spec =>
      Producer.ofSpec i spec (SeededSource.ofSeed (p.seed + UInt64.ofNat i)) := by
  rw [producers, List.getElem?_map, List.getElem?_zipIdx]
  cases p.config.producers[i]? with
  | none => rfl
  | some spec => simp [seedAt]

theorem length_producers (p : Pipeline α) :
    (p.producers : List (Producer ρ)).length = p.config.producers.length := by
  simp [producers]

/-- How many articles of each category the producer at a place writes in all, when it draws from
the seed of the pipeline plus its place. -/
def drawn (ρ : Type) [SeededSource ρ] (seed : UInt64) (i : Nat) (spec : ProducerSpec) : Tally :=
  Tally.ofList (draws spec.messages.toNat (SeededSource.ofSeed (seed + UInt64.ofNat i) : ρ))

/-- Nothing has happened on the floor of a pipeline that was built. -/
theorem build_fresh (h : build c o randomSeed = .ok p) : (p.floor : Floor ρ α).Fresh := by
  obtain ⟨-, -, hsources, hcategories, hscreen⟩ := build_eq_ok h
  obtain ⟨hlength, hqueues⟩ := Build.sources_eq_ok hsources
  have hproducers : (p.producers : List (Producer ρ)).length = c.producers.length := by
    rw [length_producers, producers_of_build h]
  exact
    { sources_length := hlength.trans hproducers.symm
      producers := fun i q hq => by
        rw [show (p.floor : Floor ρ α).producers = p.producers from rfl, producers_getElem?,
          Option.map_eq_some_iff] at hq
        obtain ⟨spec, -, rfl⟩ := hq
        exact ⟨rfl, rfl, rfl⟩
      sources := hqueues
      -- the dispatcher is made for the queues, and there is one for each producer
      dispatcher := by
        show Dispatcher.start p.sources.length =
          Dispatcher.start (p.producers : List (Producer ρ)).length
        rw [hlength, hproducers]
      categories := Build.categories_eq_ok hcategories
      coEditors := rfl
      screenQueue := Queue.make_eq_ok hscreen
      screen := rfl }

/-- How many articles the producers of a pipeline that was built have to write. -/
theorem remaining_producers (h : build c o randomSeed = .ok p) :
    (p.producers : List (Producer ρ)).map Producer.remaining =
      c.producers.map fun spec => spec.messages.toNat := by
  apply List.ext_getElem?
  intro i
  rw [List.getElem?_map, producers_getElem?, producers_of_build h, List.getElem?_map]
  cases c.producers[i]? <;> rfl

end Pipeline

/-! ### Small newsrooms -/

/-- One producer of one article, and queues that have room for one message. -/
def Config.lone : Config :=
  Config.ofProducers [⟨1, 1, 1⟩] 1

/-- Two producers of one article each. -/
def Config.duet : Config :=
  Config.ofProducers [⟨1, 1, 1⟩, ⟨2, 1, 1⟩] 1

namespace Pipeline

/-- The queues of some producers, of the categories and of the screen manager, each with room
for one message. -/
def narrow (config : Config) (seed : UInt64) : Pipeline Article where
  config
  seed
  sources := config.producers.map fun p => { name := Producer.name p.id, capacity := 1 }
  categories := ByCategory.ofFn fun c => { name := Build.categoryName c, capacity := 1 }
  screenQueue := { name := Build.screenName, capacity := 1 }

/-- The pipeline of one producer. -/
def lone : Pipeline Article := narrow Config.lone 7

/-- The pipeline of two producers. -/
def duet : Pipeline Article := narrow Config.duet 5

theorem build_lone : build Config.lone {} 7 = .ok lone := rfl

theorem build_duet : build Config.duet {} 5 = .ok duet := rfl

end Pipeline

end Newsroom
