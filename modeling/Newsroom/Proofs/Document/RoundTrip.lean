import Newsroom.Proofs.Document.Library

/-!
# Configurations written and read back

A configuration can be written if and only if its numbers are signed words, and is then read back
from its document unchanged.  This is so for every library of documents that keeps the laws.

## Main Statements

* `Config.wellNamed_toRecord` — the names of a configuration are all different and need no quotes
* `Config.numbers_toRecord_iff` — what the numbers of a configuration must be
* `Config.standsIn_entries` — the tables of the written record have all parts of the configuration
* `Config.document_roundtrip` — what is written is read back

## Implementation Notes

The numbers of producers are words of half the size, which signed words include, so they limit
nothing.
-/

namespace Newsroom

open Toml (Bare Entries Fields Node Record)

/-! ### Names -/

theorem ProducerSpec.wellNamed_toFields (p : ProducerSpec) : p.toFields.WellNamed where
  bare f hf := by
    simp only [toFields, List.mem_cons, List.not_mem_nil, or_false] at hf
    obtain rfl | rfl | rfl := hf
    · exact (by decide : Bare "id")
    · exact (by decide : Bare "messages")
    · exact (by decide : Bare "queue_size")
  nodup := by simp [toFields]

theorem Settings.wellNamed_toFields (s : Settings) : s.toFields.WellNamed where
  bare f hf := by
    simp only [toFields, List.mem_cons, List.not_mem_nil, or_false] at hf
    obtain rfl | rfl := hf
    · exact (by decide : Bare "edit_delay_ms")
    · exact (by decide : Bare "seed")
  nodup := by simp [toFields]

namespace Config

variable {c : Config}

theorem mem_toRecord {e : String × Toml.Part} (he : e ∈ c.toRecord) :
    e = ("producers", .tables (c.producers.map ProducerSpec.toFields)) ∨
      e = ("co_editor_queue_size", .number (some c.coEditorQueueSize.toNat)) ∨
      e = ("settings", .table c.settings.toFields) := by
  simpa only [toRecord, List.mem_cons, List.not_mem_nil, or_false] using he

/-- The names of a configuration are all different and need no quotes. -/
theorem wellNamed_toRecord (c : Config) : c.toRecord.WellNamed where
  bare e he := by
    obtain rfl | rfl | rfl := mem_toRecord he
    · exact (by decide : Bare "producers")
    · exact (by decide : Bare "co_editor_queue_size")
    · exact (by decide : Bare "settings")
  nodup := by simp [toRecord]
  fields e he fs hfs := by
    obtain rfl | rfl | rfl := mem_toRecord he
    · obtain ⟨p, -, rfl⟩ := List.mem_map.1 hfs
      exact p.wellNamed_toFields
    · cases hfs
    · obtain rfl := List.mem_singleton.1 hfs
      exact c.settings.wellNamed_toFields

/-! ### Numbers -/

/-- What all numbers of a configuration are, if the numbers of producers always are. -/
theorem numbers_toRecord_iff {P : Nat → Prop} (hid : ∀ id : UInt32, P id.toNat) :
    (∀ n ∈ c.toRecord.numbers, P n) ↔
      (∀ p ∈ c.producers, P p.messages.toNat ∧ P p.queueSize.toNat) ∧
        P c.coEditorQueueSize.toNat ∧ P c.settings.editDelayMs.toNat ∧
        ∀ seed ∈ c.settings.seed, P seed.toNat := by
  have hproducer : ∀ p : ProducerSpec, p.toFields.present.map Prod.snd =
      [p.id.toNat, p.messages.toNat, p.queueSize.toNat] := fun p => rfl
  have hsettings : c.settings.toFields.present.map Prod.snd =
      c.settings.editDelayMs.toNat :: (c.settings.seed.map UInt64.toNat).toList := by
    unfold Settings.toFields
    cases c.settings.seed <;> rfl
  have hnumbers : c.toRecord.numbers =
      c.producers.flatMap (fun p => [p.id.toNat, p.messages.toNat, p.queueSize.toNat]) ++
        (c.coEditorQueueSize.toNat :: c.settings.editDelayMs.toNat ::
          (c.settings.seed.map UInt64.toNat).toList) := by
    simp only [toRecord, Record.numbers, List.flatMap_cons, List.flatMap_nil, Toml.Part.numbers,
      List.flatMap_map, hproducer, hsettings, List.append_nil]
    rfl
  simp only [hnumbers, List.forall_mem_append, List.forall_mem_flatMap, List.forall_mem_cons, hid,
    true_and]
  simp

/-! ### Tables -/

end Config

theorem ProducerSpec.standsIn_entries (p : ProducerSpec) : p.StandsIn p.toFields.entries where
  nodup := p.wellNamed_toFields.nodup_entries
  id := rfl
  messages := rfl
  queueSize := rfl

theorem Settings.standsIn_entries (s : Settings) : s.StandsIn s.toFields.entries := by
  have hnodup := s.wellNamed_toFields.nodup_entries
  obtain ⟨delay, _ | seed⟩ := s
  · exact ⟨hnodup, .inl rfl, rfl⟩
  · exact ⟨hnodup, .inl rfl, rfl⟩

namespace Config

theorem producersStandAs_entries (ps : List ProducerSpec) :
    ProducersStandAs (some (.tables ((ps.map ProducerSpec.toFields).map Fields.entries))) ps := by
  refine .tables ?_
  rw [List.map_map, List.forall₂_map_right_iff]
  exact List.forall₂_same.2 fun p _ => p.standsIn_entries

/-- The tables of the record of a configuration have all its parts. -/
theorem standsIn_entries (c : Config) : c.StandsIn c.toRecord.entries := by
  obtain ⟨ps, shared, settings⟩ := c
  have hsettings : SettingsStandAs (some (.table .written settings.toFields.entries)) settings :=
    .table settings.standsIn_entries
  cases ps with
  | nil =>
      have hnodup : ["producers", "co_editor_queue_size", "settings"].Nodup := by decide
      exact ⟨hnodup, .empty, rfl, hsettings⟩
  | cons p ps =>
      have hnodup : ["co_editor_queue_size", "producers", "settings"].Nodup := by decide
      exact ⟨hnodup, producersStandAs_entries (p :: ps), rfl, hsettings⟩

/-! ### The round trip -/

/-- A configuration can be written if and only if every count, capacity, delay and seed in it is at
most the greatest signed word; and whenever it is written, reading the text gives the same
configuration, with its producers in the same order. -/
theorem document_roundtrip [DocumentLibrary] [LawfulDocumentLibrary] (c : Config) :
    ((∃ text, c.writeDocument = .ok text) ↔
      (∀ p ∈ c.producers, p.messages.toNat ≤ 2 ^ 63 - 1 ∧ p.queueSize.toNat ≤ 2 ^ 63 - 1) ∧
        c.coEditorQueueSize.toNat ≤ 2 ^ 63 - 1 ∧ c.settings.editDelayMs.toNat ≤ 2 ^ 63 - 1 ∧
        ∀ seed ∈ c.settings.seed, seed.toNat ≤ 2 ^ 63 - 1) ∧
    ∀ text, c.writeDocument = .ok text → readDocument text = .ok c := by
  have hwrite : ∀ text, c.writeDocument = .ok text ↔
      DocumentLibrary.write c.toRecord = .ok text := fun text => by
    rw [writeDocument]
    cases DocumentLibrary.write c.toRecord <;> simp [Except.mapError]
  constructor
  · have hid : ∀ id : UInt32, id.toNat ≤ 2 ^ 63 - 1 := fun id =>
      Nat.le_of_lt_succ (Nat.lt_trans id.toNat_lt (by decide))
    have hbound : ∀ n : Nat, n < 2 ^ 63 ↔ n ≤ 2 ^ 63 - 1 := fun n => by omega
    simp only [hwrite, LawfulDocumentLibrary.write_iff c.wellNamed_toRecord, hbound]
    exact numbers_toRecord_iff hid
  · intro text htext
    have htables := LawfulDocumentLibrary.tables_of_write c.wellNamed_toRecord
      ((hwrite text).1 htext)
    simp only [readDocument, htables, LawfulDocumentLibrary.configOf_of_standsIn c.standsIn_entries]
    rfl

/-- A newsroom with two producers, one of which writes nothing, and a seed that is a signed word. -/
theorem document_roundtrip_seeded :
    ∃ text, writeDocument ⟨[⟨1, 5, 2⟩, ⟨2, 0, 1⟩], 3, ⟨0, some 0x7fffffffffffffff⟩⟩ = .ok text ∧
      readDocument text = .ok ⟨[⟨1, 5, 2⟩, ⟨2, 0, 1⟩], 3, ⟨0, some 0x7fffffffffffffff⟩⟩ := by
  have hseed : ∀ seed ∈ some (0x7fffffffffffffff : UInt64), seed.toNat ≤ 2 ^ 63 - 1 := by
    rintro seed ⟨rfl⟩
    decide
  obtain ⟨text, htext⟩ := (document_roundtrip
    ⟨[⟨1, 5, 2⟩, ⟨2, 0, 1⟩], 3, ⟨0, some 0x7fffffffffffffff⟩⟩).1.2
    ⟨by decide, by decide, by decide, hseed⟩
  exact ⟨text, htext, (document_roundtrip _).2 text htext⟩

end Config

end Newsroom
