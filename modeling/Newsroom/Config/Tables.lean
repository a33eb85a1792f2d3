import Newsroom.Config.Document

/-!
# Configurations as tables

The configuration that the tables of a document describe.

## Main Definitions

* `Config.readEntries` — what is found when the entries of a table are looked at in turn
* `Config.readProducer`, `Config.readSettings` — the parts of a configuration
* `Config.ofDocument?` — the configuration itself
* `documentLibrary` — the reader and the writer of documents that the program uses

## Design Notes

The entries of a table are looked at in their order, and the first that has the
wrong kind of value is the fault that is reported; only then are missing entries.
Entries with other keys are ignored.  A producer, or the settings, may also be an
array of its values, in the order of the fields.
-/

namespace Newsroom

open Toml (Node Entries Found Expected ReadFault)

/-! ### The views of a node -/

namespace Toml.Node

/-- How a node is named where another kind of value is expected. -/
def found : Node → Found
  | value (.string s) => .string s
  | value (.integer n) => .integer n
  | value (.float x) => .float x
  | value (.boolean b) => .boolean b
  | value .dateTime => .map
  | value (.array _) => .sequence
  | value (.table _ _) => .map
  | table _ _ => .map
  | tables _ => .sequence

/-- The elements of an array. -/
def elements? : Node → Option (List Node)
  | value (.array vs) => some (vs.map .value)
  | tables els => some (els.map (.table .written))
  | _ => none

/-- The entries of a table.  A moment in time counts as a table with one entry,
under a key that no configuration has. -/
def entries? : Node → Option (Entries Node)
  | table _ es => some es
  | value (.table _ es) => some (es.map fun e => (e.1, .value e.2))
  | value .dateTime => some []
  | _ => none

end Toml.Node

namespace Config

/-! ### Reading -/

/-- A natural number below a bound. -/
def readNumber (bound : Nat) (expected : Expected) (n : Node) : Except ReadFault Nat :=
  match n.found with
  | .integer i =>
      if 0 ≤ i ∧ i.toNat < bound then .ok i.toNat else .error (.invalidValue i expected)
  | f => .error (.invalidType f expected)

/-- The number of a producer. -/
def readId (n : Node) : Except ReadFault UInt32 :=
  (readNumber Word.limit32 .producerId n).map UInt32.ofNat

/-- A count or a capacity. -/
def readSize (n : Node) : Except ReadFault UInt64 :=
  (readNumber Word.limit .size n).map UInt64.ofNat

/-- A number among the settings. -/
def readSetting (n : Node) : Except ReadFault UInt64 :=
  (readNumber Word.limit .settingsNumber n).map UInt64.ofNat

/-- What is found when each entry is looked at in turn. -/
def readEntries {α : Type} (field : α → String → Node → Except ReadFault α) (a : α) :
    Entries Node → Except ReadFault α
  | [] => .ok a
  | e :: es =>
      match field a e.1 e.2 with
      | .ok b => readEntries field b es
      | .error f => .error f

/-- The value of a required entry. -/
def required {α : Type} (name : String) : Option α → Except ReadFault α
  | some a => .ok a
  | none => .error (.missingField name)

/-- A producer of which some entries are known. -/
structure ProducerDraft where
  id : Option UInt32 := none
  messages : Option UInt64 := none
  queueSize : Option UInt64 := none

/-- Another entry of a producer. -/
def producerField (d : ProducerDraft) (name : String) (n : Node) : Except ReadFault ProducerDraft :=
  if name = "id" then (readId n).map fun v => { d with id := some v }
  else if name = "messages" then (readSize n).map fun v => { d with messages := some v }
  else if name = "queue_size" then (readSize n).map fun v => { d with queueSize := some v }
  else .ok d

/-- A producer whose entries have all been looked at. -/
def ProducerDraft.finish (d : ProducerDraft) : Except ReadFault ProducerSpec := do
  let id ← required "id" d.id
  let messages ← required "messages" d.messages
  let queueSize ← required "queue_size" d.queueSize
  return { id, messages, queueSize }

/-- A producer as an array of its values. -/
def producerOfElements : List Node → Except ReadFault ProducerSpec
  | [] => .error (.invalidLength 0 .producer 3)
  | i :: ns => do
      let id ← readId i
      match ns with
      | [] => .error (.invalidLength 1 .producer 3)
      | m :: ns =>
          let messages ← readSize m
          match ns with
          | [] => .error (.invalidLength 2 .producer 3)
          | q :: _ =>
              let queueSize ← readSize q
              return { id, messages, queueSize }

/-- A producer as a table or an array. -/
def readProducer (n : Node) : Except ReadFault ProducerSpec :=
  match n.entries? with
  | some es => readEntries producerField {} es >>= ProducerDraft.finish
  | none =>
      match n.elements? with
      | some ns => producerOfElements ns
      | none => .error (.invalidType n.found .producer)

/-- The producers. -/
def readProducers (n : Node) : Except ReadFault (List ProducerSpec) :=
  match n.elements? with
  | some ns => ns.mapM readProducer
  | none => .error (.invalidType n.found .producerList)

/-- Another entry of the settings. -/
def settingsField (s : Settings) (name : String) (n : Node) : Except ReadFault Settings :=
  if name = "edit_delay_ms" then (readSetting n).map fun v => { s with editDelayMs := v }
  else if name = "seed" then (readSetting n).map fun v => { s with seed := some v }
  else .ok s

/-- The settings as an array of their values. -/
def settingsOfElements : List Node → Except ReadFault Settings
  | [] => .ok {}
  | [d] => (readSetting d).map fun editDelayMs => { editDelayMs }
  | d :: s :: _ => do
      let editDelayMs ← readSetting d
      let seed ← readSetting s
      return { editDelayMs, seed := some seed }

/-- The settings as a table or an array. -/
def readSettings (n : Node) : Except ReadFault Settings :=
  match n.entries? with
  | some es => readEntries settingsField {} es
  | none =>
      match n.elements? with
      | some ns => settingsOfElements ns
      | none => .error (.invalidType n.found .settings)

/-- A configuration of which some entries are known. -/
structure ConfigDraft where
  producers : List ProducerSpec := []
  coEditorQueueSize : Option UInt64 := none
  settings : Settings := {}

/-- Another entry of a configuration. -/
def configField (d : ConfigDraft) (name : String) (n : Node) : Except ReadFault ConfigDraft :=
  if name = "producers" then (readProducers n).map fun v => { d with producers := v }
  else if name = "co_editor_queue_size" then
    (readSize n).map fun v => { d with coEditorQueueSize := some v }
  else if name = "settings" then (readSettings n).map fun v => { d with settings := v }
  else .ok d

/-- The configuration that the tables of a document describe. -/
def ofDocument? (es : Entries Node) : Except ReadFault Config := do
  let d ← readEntries configField {} es
  let coEditorQueueSize ← required "co_editor_queue_size" d.coEditorQueueSize
  return { producers := d.producers, coEditorQueueSize, settings := d.settings }

end Config

/-- The documents of the program. -/
instance documentLibrary : DocumentLibrary where
  write := Toml.Record.write
  tables? := Toml.document?
  configOf := Config.ofDocument?

end Newsroom
