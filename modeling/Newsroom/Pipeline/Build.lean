import Newsroom.Pipeline.Floor

/-!
# Building a pipeline

How a configuration becomes a floor on which no stage has taken a step.

## Main Definitions

* `Overrides` — what may replace settings of a configuration
* `Build.sources`, `Build.categories` — the queues of producers and of categories, if all have
  room
* `Pipeline` — a configuration with its queues and its seed
* `Pipeline.build` — a pipeline, unless some queue has no room
* `Pipeline.floor` — the floor of a pipeline

## Design Notes

Queues are made in a fixed order: those of the producers, those of the categories,
the screen queue.  The first without room is the one that is reported.  Each
producer draws from a seed of its own, the seed of the pipeline plus its place.  What it
draws from is an argument, any source that can be seeded.
-/

namespace Newsroom

/-- What may replace settings of a configuration. -/
structure Overrides where
  seed : Option UInt64 := none
  editDelay : Option Span := none
  deriving DecidableEq, Repr

/-- A span as milliseconds, as many as fit into a word. -/
def Span.wordMilliseconds (d : Span) : UInt64 :=
  UInt64.ofNat (min d.milliseconds (Word.limit - 1))

/-- A configuration with some settings replaced. -/
def Overrides.apply (o : Overrides) (c : Config) : Config :=
  c.withSettings
    { editDelayMs := (o.editDelay.map Span.wordMilliseconds).getD c.settings.editDelayMs
      seed := o.seed <|> c.settings.seed }

namespace Build

variable {α : Type}

/-- The name of the queue of a category. -/
def categoryName (c : Category) : String := s!"category-{c.tag}"

/-- The name of the screen queue. -/
def screenName : String := "screen"

/-- The queues of some producers. -/
def sources : List ProducerSpec → Except PipelineFault (List (Queue (Message α)))
  | [] => .ok []
  | p :: ps => do
      let q ← Queue.make (Producer.name p.id) p.queueSize.toNat
      let qs ← sources ps
      return q :: qs

/-- The queues of the categories. -/
def categories (capacity : Nat) : Except PipelineFault (ByCategory (Queue (Message α))) := do
  let sports ← Queue.make (categoryName .sports) capacity
  let news ← Queue.make (categoryName .news) capacity
  let weather ← Queue.make (categoryName .weather) capacity
  return ⟨sports, news, weather⟩

end Build

/-- A configuration with its queues, and with a seed for its producers. -/
structure Pipeline (α : Type) where
  config : Config
  seed : UInt64
  sources : List (Queue (Message α))
  categories : ByCategory (Queue (Message α))
  screenQueue : Queue (Message α)

namespace Pipeline

variable {ρ α : Type}

/-- The pipeline of a configuration.  `randomSeed` is used where no seed is
configured. -/
def build (c : Config) (o : Overrides) (randomSeed : UInt64) :
    Except PipelineFault (Pipeline α) := do
  let config := o.apply c
  let capacity := config.coEditorQueueSize.toNat
  let sources ← Build.sources config.producers
  let categories ← Build.categories capacity
  let screenQueue ← Queue.make Build.screenName capacity
  return { config, seed := config.settings.seed.getD randomSeed, sources, categories, screenQueue }

/-- The seed of the producer at a place. -/
def seedAt (seed : UInt64) (i : Nat) : UInt64 := seed + UInt64.ofNat i

variable [SeededSource ρ]

/-- The producers of a pipeline before their first article. -/
def producers (p : Pipeline α) : List (Producer ρ) :=
  p.config.producers.zipIdx.map fun e =>
    Producer.ofSpec e.2 e.1 (SeededSource.ofSeed (seedAt p.seed e.2))

/-- The floor of a pipeline before the first step. -/
def floor (p : Pipeline α) : Floor ρ α where
  producers := p.producers
  sources := p.sources
  dispatcher := Dispatcher.start p.sources.length
  categories := p.categories
  screenQueue := p.screenQueue
  seed := p.seed

end Pipeline

end Newsroom
