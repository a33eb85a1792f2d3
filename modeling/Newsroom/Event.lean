import Newsroom.Error

/-!
# Events

What the newsroom reports while it works, apart from its results.

## Main Definitions

* `Event` — the reports that can be made
* `Event.level`, `Event.message`, `Event.fields` — how one is written down
-/

namespace Newsroom

/-- How grave an event is. -/
inductive Level where
  | info
  | warn
  | error
  deriving DecidableEq, Repr

/-- The name of a level. -/
def Level.name : Level → String
  | info => "INFO"
  | warn => "WARN"
  | error => "ERROR"

/-- A value attached to an event. -/
inductive Field where
  | number (n : Nat)
  | text (s : String)
  deriving DecidableEq, Repr

/-- A report made while the newsroom works. -/
inductive Event where
  /-- A line of a descriptor that says nothing. -/
  | ignoredLine (line : Nat) (text : String)
  | repeatedId (id : UInt32)
  | loaded (producers : Nat) (path : String) (coEditorQueueSize : UInt64)
  | starting (producers : Nat) (seed : UInt64) (editDelayMs : UInt64)
  | startFailed (fault : PipelineFault)
  /-- A text that belongs to no category. -/
  | dropped (text : String)
  /-- A second end mark from one source. -/
  | duplicateSentinel (source : String)
  | dispatcherFinished (routed dropped producers : Nat)
  /-- The first line that the display refused. -/
  | displayFailed (fault : SystemFault)
  | screenFinished (displayed : Nat)
  | stagePanicked (stage : String)
  | finished (produced displayed dropped : Nat)
  /-- A finished run in which an article was lost, or a line was refused. -/
  | losses (produced dropped displayed writeErrors : Nat)
  deriving DecidableEq, Repr

namespace Event

/-- How grave an event is. -/
def level : Event → Level
  | ignoredLine .. | repeatedId .. | dropped .. | duplicateSentinel .. | losses .. => .warn
  | startFailed .. | displayFailed .. | stagePanicked .. => .error
  | loaded .. | starting .. | dispatcherFinished .. | screenFinished .. | finished .. => .info

/-- The sentence that reports an event. -/
def message : Event → String
  | ignoredLine .. => "ignoring unrecognised config line"
  | repeatedId id => s!"producer id {id} appears more than once"
  | loaded producers path coEditorQueueSize =>
      s!"Loaded {producers} producers from {Text.quoted path} " ++
        s!"(co-editor queue size {coEditorQueueSize})"
  | starting .. => "Starting pipeline"
  | startFailed fault => s!"{fault.message}; stopping stages already started"
  | dropped .. => "dropping message with no category"
  | duplicateSentinel .. => "duplicate sentinel ignored"
  | dispatcherFinished .. => "dispatcher finished"
  | displayFailed fault => s!"display write failed: {fault.message}"
  | screenFinished .. => "screen manager finished"
  | stagePanicked .. => "stage thread panicked"
  | finished .. => "Pipeline finished"
  | losses produced lost displayed writeErrors =>
      s!"Run finished with losses: produced {produced}, dropped {lost}, " ++
        s!"displayed {displayed}, write errors {writeErrors}"

/-- The values attached to an event, by name. -/
def fields : Event → List (String × Field)
  | ignoredLine line text => [("line", .number line), ("text", .text text)]
  | starting producers seed editDelayMs =>
      [("producers", .number producers), ("seed", .number seed.toNat),
        ("edit_delay_ms", .number editDelayMs.toNat)]
  | dropped text => [("text", .text text)]
  | duplicateSentinel source => [("source", .text source)]
  | dispatcherFinished routed lost producers =>
      [("routed", .number routed), ("dropped", .number lost), ("producers", .number producers)]
  | screenFinished displayed => [("displayed", .number displayed)]
  | stagePanicked stage => [("stage", .text stage)]
  | finished produced displayed lost =>
      [("produced", .number produced), ("displayed", .number displayed), ("dropped", .number lost)]
  | repeatedId .. | loaded .. | startFailed .. | displayFailed .. | losses .. => []

end Event

end Newsroom
