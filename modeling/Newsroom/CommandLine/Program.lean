import Newsroom.CommandLine.Options
import Newsroom.Config.Load
import Newsroom.Config.Tables
import Newsroom.Pipeline.Launch
import Newsroom.Random.Generator

/-!
# The program

What the program prints and how it ends.

## Main Definitions

* `CommandLine.Result` — the lines that are printed and the exit code
* `CommandLine.execute` — one run with the contents of the configuration file
* `CommandLine.losses` — what is reported of a finished run in which something was lost
* `CommandLine.stopped` — the result where no run was asked for

## Design Notes

Reports are part of a result even where the chosen level keeps them from being
written down.  The sums in the report of losses may leave the range of words, which
ends the program like the failure of an assertion.
-/

namespace Newsroom.CommandLine

/-- The name and version of the program. -/
def versionLine : String := "newsdesk 0.1.0"

/-- What a run of the program leaves behind. -/
structure Result where
  exitCode : UInt8
  /-- The lines on the standard output. -/
  lines : List String := []
  /-- The line that reports an error. -/
  errorLine : Option String := none
  /-- What was reported meanwhile. -/
  events : List Event := []
  deriving DecidableEq, Repr

/-- How an error ends the program. -/
def failed (e : Error) (lines : List String := []) (events : List Event := []) : Result :=
  { exitCode := 1, lines, errorLine := some s!"Error: {e.message}", events }

/-- How a sum out of range ends the program. -/
def aborted (lines : List String) (events : List Event) : Result :=
  { exitCode := 101, lines, events }

/-- How the program ends where no run was asked for. -/
def stopped : Stop → Result
  | .version => { exitCode := 0, lines := [versionLine] }
  | .help => { exitCode := 0 }
  | .usage _ => { exitCode := 2 }

/-- What the options replace in a configuration. -/
def Options.overrides (o : Options) : Overrides where
  seed := o.seed
  editDelay := o.editDelayMs.map fun ms => (⟨ms.toNat / 1000, ms.toNat % 1000 * 1000000⟩ : Span)

/-- The standard output accepts every line. -/
def standardOutput : Launch.Setup where
  sink _ := .accept

/-- Whether something was lost in a run.  The sums are looked at last. -/
def hasLosses (r : Report) : Except Overflow Bool :=
  if 0 < r.dispatch.dropped || 0 < r.screen.writeErrors then .ok true else r.isConserved.map (!·)

/-- What is reported of the losses of a run, if there are any. -/
def losses (r : Report) : Except Overflow (List Event) := do
  if ← hasLosses r then
    let produced ← r.producedTotal
    return [.losses produced r.dispatch.dropped r.displayed r.screen.writeErrors]
  else
    return []

/-- How a finished run ends the program. -/
def finished (r : Report) (lines : List String) (events : List Event) : Result :=
  match losses r with
  | .ok es => { exitCode := 0, lines, events := events ++ es }
  | .error _ => aborted lines events

/-- One run.  `randomSeed` is used where no seed is given. -/
def execute [DocumentLibrary] (o : Options) (contents : Except SystemFault ByteArray)
    (randomSeed : UInt64) : Result :=
  let loaded := Config.load o.config contents
  match loaded.value with
  | .error e => failed e [] loaded.events
  | .ok c =>
      match Pipeline.build c o.overrides randomSeed with
      | .error e =>
          failed (.inContext "Failed to allocate pipeline buffers" (.pipeline e)) [] loaded.events
      | .ok (p : Pipeline Article) =>
          let l : Launch Generator Article := Launch.run standardOutput (Launch.ofPipeline p)
          let lines := l.lines standardOutput
          let events := loaded.events ++ l.floor.events
          match l.result? with
          | some (.error e) => failed (.inContext "Pipeline failed" (.pipeline e)) lines events
          | some (.ok report) => finished report lines events
          | none => { exitCode := 0, lines, events }

end Newsroom.CommandLine
