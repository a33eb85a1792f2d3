import Newsroom.Decimal.Shortest
import Newsroom.Text.Quoted

/-!
# Faults of a configuration document

Why a document does not describe a configuration, and why a configuration has no document.

## Main Definitions

* `Toml.Found` — the kinds of value that can stand in the wrong place
* `Toml.Expected` — what a place of the configuration asks for
* `Toml.ReadFault` — the faults themselves
* `Toml.ReadFault.message` — how a fault is reported
* `Toml.WriteFault` — why something cannot be written
-/

namespace Newsroom.Toml

/-- A value in a place that asks for another kind of value. -/
inductive Found where
  | integer (n : Int)
  | float (x : Binary64)
  | boolean (b : Bool)
  | string (s : String)
  | sequence
  | map
  deriving DecidableEq, Repr

/-- How a misplaced value is named. -/
def Found.message : Found → String
  | integer n => s!"integer `{n}`"
  | float x => s!"floating point `{x.text}`"
  | boolean b => s!"boolean `{b}`"
  | string s => s!"string {Text.quoted s}"
  | sequence => "sequence"
  | map => "map"

/-- What a place of the configuration asks for. -/
inductive Expected where
  | producerId
  | size
  | settingsNumber
  | producerList
  | producer
  | settings
  deriving DecidableEq, Repr

/-- How an expectation is named. -/
def Expected.message : Expected → String
  | producerId => "u32"
  | size => "usize"
  | settingsNumber => "u64"
  | producerList => "a sequence"
  | producer => "struct ProducerSpec"
  | settings => "struct PipelineSettings"

/-- Why a document does not describe a configuration. -/
inductive ReadFault where
  /-- The text is no document, or says one thing twice. -/
  | malformed
  | missingField (name : String)
  | invalidType (found : Found) (expected : Expected)
  | invalidValue (n : Int) (expected : Expected)
  | invalidLength (length : Nat) (expected : Expected) (elements : Nat)
  deriving DecidableEq, Repr

/-- How a fault is reported. -/
def ReadFault.message : ReadFault → String
  | malformed => "malformed document"
  | missingField name => s!"missing field `{name}`"
  | invalidType found expected => s!"invalid type: {found.message}, expected {expected.message}"
  | invalidValue n expected => s!"invalid value: integer `{n}`, expected {expected.message}"
  | invalidLength length expected elements =>
      s!"invalid length {length}, expected {expected.message} with {elements} elements"

/-- Why something cannot be written as a document. -/
inductive WriteFault where
  /-- A number that no document can hold. -/
  | outOfRange
  | other (message : String)
  deriving DecidableEq, Repr

/-- How a fault is reported. -/
def WriteFault.message : WriteFault → String
  | outOfRange => "out-of-range value for u64 type"
  | other message => message

end Newsroom.Toml
