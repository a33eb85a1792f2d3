import Mathlib.Algebra.Group.Nat.Defs
import Mathlib.Data.List.Forall2
import Newsroom.Config.Document

/-!
# What a library of documents promises

The laws that a library of documents keeps when it writes a record, finds the tables of what it
has written, and reads a configuration from tables.

## Main Definitions

* `ProducerSpec.StandsIn`, `Settings.StandsIn`, `Config.StandsIn` — a table has these numbers
* `LawfulDocumentLibrary` — the laws

## Design Notes

A configuration is read by name.  The order of the entries is left open, as are entries under
other names.  A name can be missing where there is a default.
-/

namespace Newsroom

open Toml (Entries Node Record)

/-- A table has the numbers of a producer. -/
structure ProducerSpec.StandsIn (p : ProducerSpec) (es : Entries Node) : Prop where
  nodup : (es.map Prod.fst).Nodup
  id : es.find? "id" = some (.value (.integer p.id.toNat))
  messages : es.find? "messages" = some (.value (.integer p.messages.toNat))
  queueSize : es.find? "queue_size" = some (.value (.integer p.queueSize.toNat))

/-- A table has the numbers of the settings. -/
structure Settings.StandsIn (s : Settings) (es : Entries Node) : Prop where
  nodup : (es.map Prod.fst).Nodup
  editDelay : es.find? "edit_delay_ms" = some (.value (.integer s.editDelayMs.toNat)) ∨
    es.find? "edit_delay_ms" = none ∧ s.editDelayMs = 100
  seed : es.find? "seed" = s.seed.map fun n => .value (.integer n.toNat)

/-- What stands under a name, if anything, is an array of the tables of these producers. -/
inductive ProducersStandAs : Option Node → List ProducerSpec → Prop
  | missing : ProducersStandAs none []
  | empty : ProducersStandAs (some (.value (.array []))) []
  | tables {elements : List (Entries Node)} {ps : List ProducerSpec}
      (h : List.Forall₂ ProducerSpec.StandsIn ps elements) :
      ProducersStandAs (some (.tables elements)) ps

/-- What stands under a name, if anything, is the table of these settings. -/
inductive SettingsStandAs : Option Node → Settings → Prop
  | missing : SettingsStandAs none {}
  | table {es : Entries Node} {s : Settings} (h : s.StandsIn es) :
      SettingsStandAs (some (.table .written es)) s

/-- A table has all parts of a configuration. -/
structure Config.StandsIn (c : Config) (es : Entries Node) : Prop where
  nodup : (es.map Prod.fst).Nodup
  producers : ProducersStandAs (es.find? "producers") c.producers
  shared : es.find? "co_editor_queue_size" = some (.value (.integer c.coEditorQueueSize.toNat))
  settings : SettingsStandAs (es.find? "settings") c.settings

/-- The laws of a library of documents. -/
class LawfulDocumentLibrary [DocumentLibrary] : Prop where
  /-- Integers are signed words of 64 bits, and nothing else is in the way of a record. -/
  write_iff {r : Record} : r.WellNamed →
    ((∃ text, DocumentLibrary.write r = .ok text) ↔ ∀ n ∈ r.numbers, n < 2 ^ 63)
  /-- What is absent is left out, and values are written before tables. -/
  tables_of_write {r : Record} {text : String} : r.WellNamed →
    DocumentLibrary.write r = .ok text → DocumentLibrary.tables? text = some r.entries
  /-- The parts of a configuration are read under their names. -/
  configOf_of_standsIn {c : Config} {es : Entries Node} :
    c.StandsIn es → DocumentLibrary.configOf es = .ok c

end Newsroom
