import Newsroom.Event
import Newsroom.Message

/-!
# The screen manager

The screen manager hands each text that arrives to the display.  After the third
end mark it shows one last line and ends.  A line that the display refuses is
counted, and only the first such failure is reported; a display that panics ends
the screen manager.

## Main Definitions

* `Verdict`, `Sink` — what a display does with the lines that it is given
* `Screen` — the screen manager at work
* `Screen.took`, `Screen.close` — what follows from its steps
* `Screen.Report` — its counts

## Design Notes

A display is known by its verdict on each call, counted from zero.  The state
keeps the messages that the display was given; which of them it has accepted
follows from the verdicts.
-/

namespace Newsroom

/-- What a display does with a line. -/
inductive Verdict where
  | accept
  | refuse (cause : SystemFault)
  | panic
  deriving DecidableEq, Repr

/-- A display, as its verdict on each call. -/
abbrev Sink := Nat → Verdict

/-- The counts of a screen manager. -/
structure Screen.Report where
  displayed : Nat := 0
  sentinelsReceived : Nat := 0
  writeErrors : Nat := 0
  deriving DecidableEq, Repr

/-- Where a screen manager stands. -/
inductive Screen.Phase where
  | waiting
  /-- All end marks have arrived and the last line has not been shown. -/
  | closing
  | finished
  | panicked
  deriving DecidableEq, Repr

/-- The screen manager at work. -/
structure Screen (α : Type) where
  phase : Screen.Phase := .waiting
  report : Screen.Report := {}
  /-- What the display was given, the end mark standing for the last line. -/
  given : List (Message α) := []
  deriving DecidableEq, Repr

namespace Screen

variable {α : Type}

/-- The name of the thread of the screen manager. -/
def name : String := "screen-manager"

/-- How many end marks the screen manager waits for. -/
def sentinelsExpected : Nat := 3

/-- The screen manager after it has given a message to the display.  A first
refusal is reported. -/
def shown (sink : Sink) (s : Screen α) (m : Message α) : Screen α × List Event :=
  let given := s.given ++ [m]
  match sink s.given.length with
  | .accept => ({ s with given }, [])
  | .panic => ({ s with given, phase := .panicked }, [])
  | .refuse cause =>
      ({ s with given, report := { s.report with writeErrors := s.report.writeErrors + 1 } },
        if s.report.writeErrors = 0 then [.displayFailed cause] else [])

/-- The screen manager with a message that it has taken: a text is shown at
once. -/
def took (sink : Sink) (s : Screen α) : Message α → Screen α × List Event
  | .done =>
      let received := s.report.sentinelsReceived + 1
      ({ s with
          report := { s.report with sentinelsReceived := received }
          phase := if received < sentinelsExpected then .waiting else .closing }, [])
  | .item body =>
      let (s', es) := s.shown sink (.item body)
      if s'.phase = .panicked then (s', es)
      else ({ s' with report := { s'.report with displayed := s'.report.displayed + 1 } }, es)

/-- The screen manager shows its last line and ends. -/
def close (sink : Sink) (s : Screen α) : Screen α × List Event :=
  let (s', es) := s.shown sink .done
  if s'.phase = .panicked then (s', es)
  else ({ s' with phase := .finished }, es ++ [.screenFinished s'.report.displayed])

/-- What the display has accepted. -/
def accepted (sink : Sink) (s : Screen α) : List (Message α) :=
  (s.given.zipIdx.filter fun m => sink m.2 = .accept).map Prod.fst

end Screen

end Newsroom
