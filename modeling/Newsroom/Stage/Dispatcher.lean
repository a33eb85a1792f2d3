import Newsroom.Event
import Newsroom.Message
import Newsroom.Tally

/-!
# The dispatcher

The dispatcher looks at its sources in turn, without waiting for any of them, and
routes each text that it takes to the queue of its category.  A source is
finished when it is found empty after an end mark was taken from it.  When all
sources are finished, one end mark goes to each category.

## Main Definitions

* `SourceStatus` — active, draining after an end mark, or done
* `Dispatcher` — the dispatcher at work
* `Dispatcher.polled`, `Dispatcher.routed`, `Dispatcher.checked`,
  `Dispatcher.closed` — what follows from what it did last
* `Dispatcher.Report` — its counts

## Design Notes

Each function takes what a step on a queue has shown and returns the dispatcher
before its next step.  A pass goes through the sources that are not done, in
their order; after a pass the next one begins with the first of them.
-/

namespace Newsroom

/-- What is known of a source. -/
inductive SourceStatus where
  | active
  /-- An end mark was taken from it. -/
  | draining
  /-- It was found empty after an end mark. -/
  | done
  deriving DecidableEq, Repr

/-- The counts of a dispatcher. -/
structure Dispatcher.Report where
  routed : Tally := Tally.zero
  dropped : Nat := 0
  sentinelsReceived : Nat := 0
  sentinelsSent : Nat := 0
  deriving DecidableEq, Repr

/-- What a dispatcher does next. -/
inductive Dispatcher.Phase (α : Type) where
  /-- Take a message from a source, if there is one. -/
  | polling (i : Nat)
  /-- Put a text that came from a source into the queue of a category. -/
  | routing (i : Nat) (c : Category) (body : α)
  /-- See whether a source is empty. -/
  | checking (i : Nat)
  /-- Put an end mark into the queue of each of these categories. -/
  | closing (c : Category) (cs : List Category)
  | finished
  deriving DecidableEq, Repr

/-- The dispatcher at work. -/
structure Dispatcher (α : Type) where
  sources : List SourceStatus
  phase : Dispatcher.Phase α
  report : Dispatcher.Report := {}
  deriving DecidableEq, Repr

namespace Dispatcher

variable {α : Type}

/-- The name of the thread of the dispatcher. -/
def name : String := "dispatcher"

/-- The first source from place `i` on that is not done. -/
def nextFrom? (i : Nat) (sources : List SourceStatus) : Option Nat :=
  ((sources.drop i).findIdx? (· ≠ .done)).map (i + ·)

/-- What to do when the sources before `i` have been looked at in a pass. -/
def scan (i : Nat) (sources : List SourceStatus) : Phase α :=
  match nextFrom? i sources with
  | some j => .polling j
  | none =>
      match nextFrom? 0 sources with
      | some j => .polling j
      | none => .closing .sports [.news, .weather]

/-- A dispatcher of some sources before its first step. -/
def start (n : Nat) : Dispatcher α :=
  let sources := List.replicate n .active
  { sources, phase := scan 0 sources }

/-- The dispatcher has taken from a source what it wanted to. -/
def afterPoll (d : Dispatcher α) (i : Nat) : Dispatcher α :=
  if d.sources[i]? = some .draining then { d with phase := .checking i }
  else { d with phase := scan (i + 1) d.sources }

/-- An end mark was taken from a source. -/
def receiveDone (d : Dispatcher α) (i : Nat) : Dispatcher α :=
  { d with
    sources := d.sources.set i .draining
    report := { d.report with sentinelsReceived := d.report.sentinelsReceived + 1 } }

/-- The dispatcher after a look at source `i`, which has a name and gave a message
or none. -/
def polled [Payload α] (d : Dispatcher α) (i : Nat) (source : String) :
    Option (Message α) → Dispatcher α × List Event
  | none => (d.afterPoll i, [])
  | some .done =>
      ((d.receiveDone i).afterPoll i,
        if d.sources[i]? = some .draining then [.duplicateSentinel source] else [])
  | some (.item body) =>
      match Category.classify (Payload.text body) with
      | some c => ({ d with phase := .routing i c body }, [])
      | none =>
          let report := { d.report with dropped := d.report.dropped + 1 }
          ({ d with report }.afterPoll i, [.dropped (Payload.text body)])

/-- The dispatcher after a text from source `i` was put into the queue of a
category. -/
def routed (d : Dispatcher α) (i : Nat) (c : Category) : Dispatcher α :=
  { d with report := { d.report with routed := d.report.routed.bump c } }.afterPoll i

/-- The dispatcher after it has seen whether source `i` is empty. -/
def checked (d : Dispatcher α) (i : Nat) (empty : Bool) : Dispatcher α :=
  let sources := if empty then d.sources.set i .done else d.sources
  { d with sources, phase := scan (i + 1) sources }

/-- The dispatcher after it has put an end mark into the queue of a category, with
the categories that are left. -/
def closed (d : Dispatcher α) : List Category → Dispatcher α × List Event
  | c :: cs =>
      ({ d with
          phase := .closing c cs
          report := { d.report with sentinelsSent := d.report.sentinelsSent + 1 } }, [])
  | [] =>
      ({ d with
          phase := .finished
          report := { d.report with sentinelsSent := d.report.sentinelsSent + 1 } },
        [.dispatcherFinished d.report.routed.sum d.report.dropped d.sources.length])

end Dispatcher

end Newsroom
