import Newsroom.Event
import Newsroom.Word

/-!
# Configurations

What a newsroom consists of: its producers, the capacity of the queues they
share, and how fast articles are edited.

## Main Definitions

* `ProducerSpec`, `Settings`, `Config` — the parts of a configuration
* `Span` — how long an article is edited
* `Config.fault?` — why no newsroom can be built from a configuration
* `Config.validate` — the check of a configuration, with its warnings
* `Config.totalMessages` — how many articles will be written
* `Logged` — a value with the events that led to it
-/

namespace Newsroom

/-- A value together with what was reported while it was found. -/
structure Logged (α : Type) where
  value : α
  events : List Event
  deriving DecidableEq, Repr

/-- A producer: the number on its articles, how many it writes and the capacity
of its own queue. -/
structure ProducerSpec where
  id : UInt32
  messages : UInt64
  queueSize : UInt64
  deriving DecidableEq, Repr, Inhabited

/-- What does not change the shape of a newsroom. -/
structure Settings where
  /-- How long an article is edited, in milliseconds. -/
  editDelayMs : UInt64 := 100
  /-- What the draws of the producers start from. -/
  seed : Option UInt64 := none
  deriving DecidableEq, Repr, Inhabited

/-- A configuration. -/
structure Config where
  /-- The producers, in the order in which they are looked at. -/
  producers : List ProducerSpec
  /-- The capacity of each category queue and of the screen queue. -/
  coEditorQueueSize : UInt64
  settings : Settings := {}
  deriving DecidableEq, Repr, Inhabited

/-- A span of time in whole seconds and nanoseconds. -/
structure Span where
  seconds : Nat
  nanoseconds : Nat
  deriving DecidableEq, Repr

/-- A span of some seconds and then some nanoseconds, of which full seconds are
carried over.  The seconds of a span are a word. -/
def Span.make? (seconds nanoseconds : Nat) : Option Span :=
  let carried := seconds + nanoseconds / 1000000000
  if carried < Word.limit then some ⟨carried, nanoseconds % 1000000000⟩ else none

/-- How a span of too many seconds is reported. -/
def Span.overflowMessage : String := "overflow in Duration::new"

/-- The whole milliseconds of a span. -/
def Span.milliseconds (d : Span) : Nat :=
  d.seconds * 1000 + d.nanoseconds / 1000000

/-- The time an article is edited. -/
def Settings.editDelay (s : Settings) : Span :=
  ⟨s.editDelayMs.toNat / 1000, s.editDelayMs.toNat % 1000 * 1000000⟩

namespace Config

/-- A configuration with default settings. -/
def ofProducers (producers : List ProducerSpec) (coEditorQueueSize : UInt64) : Config :=
  { producers, coEditorQueueSize }

/-- The same configuration with other settings. -/
def withSettings (c : Config) (settings : Settings) : Config :=
  { c with settings }

/-- How many articles the producers will write, if that is a word. -/
def totalMessages (c : Config) : Except Overflow Nat :=
  Word.sum (c.producers.map fun p => p.messages.toNat)

/-! ### Validation -/

/-- Why a configuration describes no newsroom: the shared capacity or, in
order, that of a producer is zero. -/
def fault? (c : Config) : Option ConfigFault :=
  if c.coEditorQueueSize = 0 then some .zeroCoEditor
  else (c.producers.find? fun p => p.queueSize == 0).map fun p => .zeroQueue p.id

/-- The numbers in a list that were seen before, once for each repetition. -/
def repeated (seen : List UInt32) : List UInt32 → List UInt32
  | [] => []
  | id :: ids =>
      if seen.contains id then id :: repeated seen ids else repeated (id :: seen) ids

/-- The producers that are looked at before one without a queue. -/
def checkedProducers (c : Config) : List ProducerSpec :=
  if c.coEditorQueueSize = 0 then [] else c.producers.takeWhile fun p => p.queueSize != 0

/-- The check of a configuration.  Producers with the same number are allowed
but reported, as their articles cannot be told apart. -/
def validate (c : Config) : Logged (Outcome Unit) where
  value :=
    match c.fault? with
    | some fault => .error (.config fault)
    | none => .ok ()
  events := (repeated [] (c.checkedProducers.map ProducerSpec.id)).map .repeatedId

end Config

end Newsroom
