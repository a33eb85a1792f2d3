import Newsroom.Config.Basic
import Newsroom.Toml.Record

/-!
# Configurations as documents

The document form of a configuration, in both directions.

## Main Definitions

* `DocumentLibrary` — what writes records, and reads the tables of a text
* `Config.toRecord` — the record of a configuration
* `Config.readDocument` — the configuration of a text
* `Config.writeDocument` — the text of a configuration

## Design Notes

What a document looks like is not decided here but by a library, which is an
argument.  A configuration only says under which names its numbers are written,
and in which order.
-/

namespace Newsroom

open Toml (Entries Fields Node ReadFault Record WriteFault)

/-- What a library of documents does: it writes the text of a record, finds the
tables of a text, and reads a configuration from tables. -/
class DocumentLibrary where
  write : Record → Except WriteFault String
  /-- The tables of a text, if it is a document. -/
  tables? : String → Option (Entries Node)
  configOf : Entries Node → Except ReadFault Config

/-- The numbers of a producer. -/
def ProducerSpec.toFields (p : ProducerSpec) : Fields :=
  [("id", some p.id.toNat), ("messages", some p.messages.toNat),
    ("queue_size", some p.queueSize.toNat)]

/-- The numbers of the settings.  The seed may be absent. -/
def Settings.toFields (s : Settings) : Fields :=
  [("edit_delay_ms", some s.editDelayMs.toNat), ("seed", s.seed.map UInt64.toNat)]

namespace Config

/-- The record of a configuration. -/
def toRecord (c : Config) : Record :=
  [("producers", .tables (c.producers.map ProducerSpec.toFields)),
    ("co_editor_queue_size", .number (some c.coEditorQueueSize.toNat)),
    ("settings", .table c.settings.toFields)]

variable [DocumentLibrary]

/-- The configuration of a text. -/
def readDocument (text : String) : Outcome Config :=
  match DocumentLibrary.tables? text with
  | none => .error (.config (.document .malformed))
  | some es => (DocumentLibrary.configOf es).mapError fun f => .config (.document f)

/-- The document of a configuration. -/
def writeDocument (c : Config) : Outcome String :=
  (DocumentLibrary.write c.toRecord).mapError fun f => .config (.unwritable f)

end Config

end Newsroom
