import Newsroom.Pipeline.Build
import Newsroom.Pipeline.Report
import Newsroom.Stage.Thread

/-!
# Running a pipeline

The launcher starts the stages one after the other and then waits for them.  If a
stage cannot be started it ends those that were: it puts the end marks that the
missing stages would have sent into the queues, and then waits for the others.

## Main Definitions

* `Launch.Setup` — the display, and which stage cannot be started
* `Launch` — a floor with its launcher
* `Launch.Move`, `Launch.step?` — a step of the launcher or of a started stage
* `Launch.run` — one run to its end

## Design Notes

Stages are started in the order of `Floor.actors`: the screen manager, the
co-editors, the dispatcher, the producers.  A stage takes steps from when it was
started, also while others are being started and after the launcher has
returned.  Waiting ends at the first stage that panicked.
-/

namespace Newsroom

/-- What a run depends on besides its floor. -/
structure Launch.Setup where
  sink : Sink
  /-- The place, in the order of starting, of the stage that cannot be started. -/
  failAt : Option Nat := none
  /-- Why that stage cannot be started. -/
  cause : SystemFault := .tryAgain

/-- Where the launcher stands. -/
inductive Launch.Phase where
  | starting
  /-- It has end marks to send and stages to wait for, because of a fault. -/
  | unwinding (marks : List Place) (stages : List Actor) (fault : PipelineFault)
  /-- It waits for stages. -/
  | waiting (stages : List Actor)
  /-- It has returned, possibly with a fault. -/
  | returned (fault? : Option PipelineFault)
  deriving DecidableEq, Repr

/-- A floor and the launcher that starts its stages. -/
structure Launch (ρ α : Type) where
  floor : Floor ρ α
  /-- How many stages have been started. -/
  started : Nat := 0
  phase : Launch.Phase := .starting

namespace Launch

variable {ρ α : Type}

/-- What can happen in a run. -/
inductive Move where
  | launcher
  | stage (a : Actor)
  deriving DecidableEq, Repr

/-- The place of a stage in the order of starting. -/
def rank : Actor → Nat
  | .screen => 0
  | .coEditor c => c.index + 1
  | .dispatcher => 4
  | .producer i => i + 5

/-- Whether a stage has been started. -/
def isStarted (l : Launch ρ α) (a : Actor) : Bool :=
  rank a < l.started

/-! ### Unwinding -/

/-- The end marks that make `started` stages end, of `n` producers in all.  Without
a dispatcher the co-editors get theirs from the launcher, and the screen manager
those of the missing co-editors.  Otherwise the dispatcher gets those of the
missing producers. -/
def marksFor (started n : Nat) : List Place :=
  if started = 0 then []
  else if started ≤ rank .dispatcher then
    Category.all.map .category ++ List.replicate (rank .dispatcher - started) .screen
  else (List.range n).drop (started - rank (.producer 0)) |>.map .source

/-- The order in which stages are waited for when a start has failed. -/
def unwindOrder (n : Nat) : List Actor :=
  (List.range n).map .producer ++ .dispatcher :: Category.all.map .coEditor ++ [.screen]

/-- The order in which the stages of a complete start are waited for. -/
def waitOrder (n : Nat) : List Actor :=
  .screen :: Category.all.map .coEditor ++ .dispatcher :: (List.range n).map .producer

/-! ### Steps -/

/-- A stage is started, or unwinding begins because it cannot be. -/
def start (setup : Setup) (l : Launch ρ α) (a : Actor) : Launch ρ α :=
  match Stage.spawn (l.floor.stageName a)
      (if setup.failAt = some l.started then some setup.cause else none) with
  | .ok _ => { l with started := l.started + 1 }
  | .error fault =>
      let n := l.floor.producers.length
      { l with
        floor := l.floor.log [.startFailed fault]
        phase := .unwinding (marksFor l.started n) ((unwindOrder n).filter l.isStarted) fault }

/-- What joining a stage gives, once it has ended. -/
def join? (f : Floor ρ α) (a : Actor) : Option (Logged (Except PipelineFault Unit)) :=
  match f.standing a with
  | .working => none
  | .finished => some (Stage.join (f.stageName a) (some ()))
  | .panicked => some (Stage.join (f.stageName a) none)

/-- How a complete run is reported. -/
def finishedEvent (r : Report) : Event :=
  .finished (exactSum (r.produced.map fun p => p.emitted.sum)) r.displayed r.dispatch.dropped

/-- A step of the launcher, if it need not wait. -/
def launcherStep? (setup : Setup) (l : Launch ρ α) : Option (Launch ρ α) :=
  match l.phase with
  | .starting =>
      match l.floor.actors[l.started]? with
      | some a => some (start setup l a)
      | none => some { l with phase := .waiting (waitOrder l.floor.producers.length) }
  | .unwinding (p :: ps) stages fault =>
      (l.floor.insert? p .done).map fun floor =>
        { l with floor, phase := .unwinding ps stages fault }
  | .unwinding [] (a :: as) fault =>
      (join? l.floor a).map fun r =>
        { l with floor := l.floor.log r.events, phase := .unwinding [] as fault }
  | .unwinding [] [] fault => some { l with phase := .returned (some fault) }
  | .waiting (a :: as) =>
      (join? l.floor a).map fun r =>
        { l with
          floor := l.floor.log r.events
          phase :=
            match r.value with
            | .ok () => .waiting as
            | .error fault => .returned (some fault) }
  | .waiting [] =>
      some
        { l with
          floor := l.floor.log [finishedEvent l.floor.report]
          phase := .returned none }
  | .returned _ => none

/-- A step of the launcher or of a stage that was started, if it need not wait. -/
def step? [CategorySource ρ] [Payload α] (setup : Setup) (l : Launch ρ α) :
    Move → Option (Launch ρ α)
  | .launcher => launcherStep? setup l
  | .stage a =>
      if l.isStarted a then (l.floor.step? setup.sink a).map fun floor => { l with floor } else none

/-! ### One run -/

/-- A bound of the work that is left. -/
def work (l : Launch ρ α) : Nat :=
  let n := l.floor.actors.length
  l.floor.work +
    match l.phase with
    | .starting => 30 + 10 * n + (n - l.started)
    | .unwinding marks stages _ => 1 + 6 * marks.length + stages.length
    | .waiting stages => 1 + stages.length
    | .returned _ => 0

/-- All moves, in the order of starting. -/
def moves (f : Floor ρ α) : List Move :=
  .launcher :: f.actors.map .stage

/-- A launch of a pipeline before its first step. -/
def ofPipeline [SeededSource ρ] (p : Pipeline α) : Launch ρ α :=
  { floor :=
      p.floor.log [.starting p.config.producers.length p.seed p.config.settings.editDelayMs] }

/-- One run to its end. -/
def run [CategorySource ρ] [Payload α] (setup : Setup) (l : Launch ρ α) : Launch ρ α :=
  Schedule.settle (step? setup) work (l.floor.turn + l.floor.actors.length) (moves l.floor) l

/-- What the display was given. -/
def given (l : Launch ρ α) : List (Message α) := l.floor.screen.given

/-- The lines that the display has accepted. -/
def lines [Payload α] (setup : Setup) (l : Launch ρ α) : List String :=
  (l.floor.screen.accepted setup.sink).map Message.text

/-- The outcome of a run that has returned: a report, or why there is none. -/
def result? (l : Launch ρ α) : Option (Except PipelineFault Report) :=
  match l.phase with
  | .returned none => some (.ok l.floor.report)
  | .returned (some fault) => some (.error fault)
  | _ => none

end Launch

end Newsroom
