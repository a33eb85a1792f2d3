import Newsroom.Queue
import Newsroom.Schedule
import Newsroom.Stage.CoEditor
import Newsroom.Stage.Dispatcher
import Newsroom.Stage.Producer
import Newsroom.Stage.Screen

/-!
# The floor of the newsroom

All stages with the queues between them, and the steps that they can take.

    producer ─ own queue ─ dispatcher ─ category queue ─ co-editor ─ screen queue ─ screen

## Main Definitions

* `Floor` — the stages, the queues and what was reported
* `Actor` — the stages by name
* `Place` — the queues by name
* `Floor.step?` — one step of a stage, if it need not wait
* `Floor.work` — a bound of the steps that are left

## Design Notes

A step is one operation on one queue, together with what a stage does by itself
until the next one.  Inserting needs room and removing needs a message; looking
at a source, and asking whether it is empty, is always possible.

`work` weighs each message by how far it has still to go.  Every step makes it
smaller, except a look of the dispatcher at an empty source and the discovery
that a source is not empty.
-/

namespace Newsroom

/-- The stages. -/
inductive Actor where
  | screen
  | coEditor (c : Category)
  | dispatcher
  | producer (i : Nat)
  deriving DecidableEq, Repr

/-- The queues. -/
inductive Place where
  | source (i : Nat)
  | category (c : Category)
  | screen
  deriving DecidableEq, Repr

/-- All stages with the queues between them. -/
structure Floor (ρ α : Type) where
  producers : List (Producer ρ)
  /-- The queue of each producer. -/
  sources : List (Queue (Message α))
  dispatcher : Dispatcher α
  categories : ByCategory (Queue (Message α))
  coEditors : ByCategory (CoEditor α) := ByCategory.const {}
  screenQueue : Queue (Message α)
  screen : Screen α := {}
  /-- What the draws of the producers have started from. -/
  seed : UInt64 := 0
  /-- What was reported so far. -/
  events : List Event := []

namespace Floor

variable {ρ α : Type}

/-- The stages in the order in which they are started. -/
def actors (f : Floor ρ α) : List Actor :=
  .screen :: Category.all.map .coEditor ++ .dispatcher ::
    (List.range f.producers.length).map .producer

/-- More reports. -/
def log (f : Floor ρ α) (es : List Event) : Floor ρ α :=
  { f with events := f.events ++ es }

/-! ### Queues -/

/-- A queue of the floor. -/
def queue? (f : Floor ρ α) : Place → Option (Queue (Message α))
  | .source i => f.sources[i]?
  | .category c => some (f.categories.get c)
  | .screen => some f.screenQueue

/-- The floor with another queue at a place. -/
def setQueue (f : Floor ρ α) (p : Place) (q : Queue (Message α)) : Floor ρ α :=
  match p with
  | .source i => { f with sources := f.sources.set i q }
  | .category c => { f with categories := f.categories.set c q }
  | .screen => { f with screenQueue := q }

/-- A message at the end of a queue, if there is room. -/
def insert? (f : Floor ρ α) (p : Place) (m : Message α) : Option (Floor ρ α) :=
  ((f.queue? p).bind fun q => q.insert? m).map (f.setQueue p)

/-- The message at the front of a queue, if there is one. -/
def remove? (f : Floor ρ α) (p : Place) : Option (Message α × Floor ρ α) :=
  ((f.queue? p).bind Queue.remove?).map fun r => (r.1, f.setQueue p r.2)

/-! ### Steps -/

variable [CategorySource ρ] [Payload α]

/-- A producer writes a message or puts it into its queue. -/
def stepProducer? (f : Floor ρ α) (i : Nat) : Option (Floor ρ α) :=
  f.producers[i]?.bind fun p =>
    match (p.held? : Option (Message α)) with
    | some m =>
        (f.insert? (.source i) m).map fun f =>
          { f with producers := f.producers.set i p.handedOver }
    | none =>
        if p.isFinished then none else some { f with producers := f.producers.set i p.write }

/-- The dispatcher looks at source `i`. -/
def poll? (f : Floor ρ α) (i : Nat) : Option (Floor ρ α) :=
  f.sources[i]?.map fun q =>
    match q.remove? with
    | some (m, q') =>
        let (dispatcher, es) := f.dispatcher.polled i q.name (some m)
        { f.setQueue (.source i) q' with dispatcher }.log es
    | none =>
        let (dispatcher, es) := f.dispatcher.polled i q.name none
        { f with dispatcher }.log es

/-- The dispatcher polls, routes, checks a source or closes a category. -/
def stepDispatcher? (f : Floor ρ α) : Option (Floor ρ α) :=
  match f.dispatcher.phase with
  | .polling i => f.poll? i
  | .routing i c body =>
      (f.insert? (.category c) (.item body)).map fun f =>
        { f with dispatcher := f.dispatcher.routed i c }
  | .checking i =>
      f.sources[i]?.map fun q => { f with dispatcher := f.dispatcher.checked i q.isEmpty }
  | .closing c cs =>
      (f.insert? (.category c) .done).map fun f =>
        let (dispatcher, es) := f.dispatcher.closed cs
        { f with dispatcher }.log es
  | .finished => none

/-- A co-editor takes a message or hands it over. -/
def stepCoEditor? (f : Floor ρ α) (c : Category) : Option (Floor ρ α) :=
  let e := f.coEditors.get c
  match e.phase with
  | .waiting =>
      (f.remove? (.category c)).map fun r =>
        { r.2 with coEditors := r.2.coEditors.set c (e.took r.1) }
  | .holding m =>
      (f.insert? .screen m).map fun f => { f with coEditors := f.coEditors.set c (e.handedOver m) }
  | .finished => none

/-- The screen manager takes and shows a message, or shows its last line. -/
def stepScreen? (sink : Sink) (f : Floor ρ α) : Option (Floor ρ α) :=
  match f.screen.phase with
  | .waiting =>
      (f.remove? .screen).map fun r =>
        let (screen, es) := f.screen.took sink r.1
        { r.2 with screen }.log es
  | .closing =>
      let (screen, es) := f.screen.close sink
      some ({ f with screen }.log es)
  | .finished => none
  | .panicked => none

/-- A step of a stage, if it need not wait. -/
def step? (sink : Sink) (f : Floor ρ α) : Actor → Option (Floor ρ α)
  | .screen => f.stepScreen? sink
  | .coEditor c => f.stepCoEditor? c
  | .dispatcher => f.stepDispatcher?
  | .producer i => f.stepProducer? i

omit [CategorySource ρ] [Payload α]

/-! ### Ends -/

/-- How a stage stands. -/
inductive Standing where
  | working
  | finished
  | panicked
  deriving DecidableEq, Repr

/-- How a stage of the floor stands. -/
def standing (f : Floor ρ α) : Actor → Standing
  | .screen =>
      match f.screen.phase with
      | .finished => .finished
      | .panicked => .panicked
      | _ => .working
  | .coEditor c =>
      match (f.coEditors.get c).phase with
      | .finished => .finished
      | _ => .working
  | .dispatcher =>
      match f.dispatcher.phase with
      | .finished => .finished
      | _ => .working
  | .producer i =>
      match f.producers[i]? with
      | some p => if p.isFinished then .finished else .working
      | none => .finished

/-- The name of the thread of a stage. -/
def stageName (f : Floor ρ α) : Actor → String
  | .screen => Screen.name
  | .coEditor c => CoEditor.name c
  | .dispatcher => Dispatcher.name
  | .producer i => ((f.producers[i]?).map fun p => Producer.name p.id).getD ""

/-! ### Work -/

/-- The work on a message that is `item` for a text and `done` for an end mark. -/
def weight (item done : Nat) : Message α → Nat
  | .item _ => item
  | .done => done

/-- The work on the messages of a queue. -/
def queueWork (item done : Nat) (q : Queue (Message α)) : Nat :=
  exactSum (q.items.map (weight item done))

/-- The work of a producer. -/
def producerWork (p : Producer ρ) : Nat :=
  8 * p.remaining +
    match p.phase with
    | .writing => 5
    | .holding _ => 12
    | .closing => 4
    | .finished => 0

/-- The work on a source that the dispatcher has still to finish. -/
def sourceWork : SourceStatus → Nat
  | .active => 2
  | .draining => 1
  | .done => 0

/-- The work of the dispatcher. -/
def dispatcherWork (d : Dispatcher α) : Nat :=
  exactSum (d.sources.map sourceWork) +
    match d.phase with
    | .polling _ => 15
    | .checking _ => 15
    | .routing _ _ _ => 20
    | .closing _ cs => 5 + 5 * cs.length
    | .finished => 0

/-- The work of a co-editor. -/
def coEditorWork (e : CoEditor α) : Nat :=
  match e.phase with
  | .holding _ => 3
  | _ => 0

/-- The work of the screen manager. -/
def screenWork (s : Screen α) : Nat :=
  match s.phase with
  | .waiting => 1
  | .closing => 1
  | _ => 0

/-- A bound of the steps that are left, vain looks of the dispatcher apart. -/
def work (f : Floor ρ α) : Nat :=
  exactSum (f.producers.map producerWork) + exactSum (f.sources.map (queueWork 6 3)) +
    dispatcherWork f.dispatcher + exactSum (f.categories.map (queueWork 4 4)).toList +
    exactSum (f.coEditors.map coEditorWork).toList + queueWork 2 2 f.screenQueue +
    screenWork f.screen

/-- How many steps a stage may take in a row, so that the dispatcher can look at
every source. -/
def turn (f : Floor ρ α) : Nat := 2 * f.sources.length + 4

end Floor

end Newsroom
