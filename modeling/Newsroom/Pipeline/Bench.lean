import Newsroom.Pipeline.Build
import Newsroom.Random.Generator

/-!
# Stages on the bench

Single stages at work: some stages of a floor, queues that were filled before, and
readers that empty other queues meanwhile.

## Main Definitions

* `Bench` — a floor with what was collected from its queues
* `Bench.Move`, `Bench.step?` — a step of a stage or of a reader
* `Bench.run` — given stages and readers at work until nothing is left to do
* `Bench.bare` — a floor without producers on which a bench can be set up
-/

namespace Newsroom

/-- A floor with what its readers have collected, in order. -/
structure Bench (ρ α : Type) where
  floor : Floor ρ α
  collected : List (Place × Message α) := []

namespace Bench

variable {ρ α : Type}

/-- What can happen on a bench. -/
inductive Move where
  | act (a : Actor)
  /-- A reader takes a message from a queue. -/
  | collect (p : Place)
  deriving DecidableEq, Repr

/-- What happens on a bench, if it is possible. -/
def step? [CategorySource ρ] [Payload α] (sink : Sink) (b : Bench ρ α) : Move → Option (Bench ρ α)
  | .act a => (b.floor.step? sink a).map fun floor => { b with floor }
  | .collect p =>
      (b.floor.remove? p).map fun r => ⟨r.2, b.collected ++ [(p, r.1)]⟩

/-- A bound of the work that is left. -/
def work (b : Bench ρ α) : Nat := b.floor.work

/-- Stages and readers at work until nothing is left to do. -/
def run [CategorySource ρ] [Payload α] (sink : Sink) (moves : List Move) (floor : Floor ρ α) :
    Bench ρ α :=
  Schedule.settle (step? sink) work floor.turn moves { floor }

/-- What was collected from a queue, in order. -/
def collectedFrom (b : Bench ρ α) (p : Place) : List (Message α) :=
  b.collected.filterMap fun e => if e.1 = p then some e.2 else none

/-- A floor without producers and with room for one message in each queue. -/
def bare : Floor ρ α where
  producers := []
  sources := []
  dispatcher := Dispatcher.start 0
  categories := ByCategory.ofFn fun c => Queue.filled (Build.categoryName c) []
  screenQueue := Queue.filled "screen" []

/-! ### Single stages -/

/-- A producer whose queue is emptied meanwhile. -/
def produce (spec : ProducerSpec) (seed : UInt64) (queue : Queue (Message Article)) :
    Bench Generator Article :=
  run (fun _ => .accept) [.act (.producer 0), .collect (.source 0)]
    { (bare : Floor Generator Article) with
      producers := [Producer.ofSpec 0 spec (Generator.ofSeed seed)]
      sources := [queue] }

/-- The dispatcher with sources that were filled before, whose outputs are emptied
meanwhile. -/
def dispatch [Payload α] (sources : List (Queue (Message α)))
    (categories : ByCategory (Queue (Message α))) : Bench Generator α :=
  run (fun _ => .accept) (.act .dispatcher :: Category.all.map fun c => .collect (.category c))
    { (bare : Floor Generator α) with
      sources, categories, dispatcher := Dispatcher.start sources.length }

/-- A co-editor with an input that was filled before, whose output is emptied
meanwhile. -/
def edit [Payload α] (c : Category) (input : List (Message α)) (screenQueue : Queue (Message α)) :
    Bench Generator α :=
  run (fun _ => .accept) [.act (.coEditor c), .collect .screen]
    { (bare : Floor Generator α) with
      categories := (bare : Floor Generator α).categories.set c
        (Queue.filled (Build.categoryName c) input)
      screenQueue }

/-- The screen manager with an input that was filled before. -/
def display [Payload α] (sink : Sink) (input : List (Message α)) : Bench Generator α :=
  run sink [.act .screen]
    { (bare : Floor Generator α) with screenQueue := Queue.filled "screen" input }

end Bench

end Newsroom
