import Newsroom.Config.Tables
import Newsroom.Proofs.Document.Laws
import Newsroom.Proofs.Document.Tables

/-!
# The laws of the documents of the program

The writer and the reader of the program keep the laws of a library of documents.

## Main Statements

* `Toml.Record.document?_lines` — the tables of the document that is written for a record
* `Config.get_of_readEntries` — what the entries of a table set, whatever their order
* `Config.ofDocument?_of_standsIn` — a configuration is read under its names
* `LawfulDocumentLibrary documentLibrary` — the laws

## Implementation Notes

Entries are looked at in turn, and each sets one part of a draft.  Every part is followed on its
own: it is what the entry under its name sets, and stays as it was if there is none.
-/

namespace Newsroom

open Toml (Entries Expected Node ReadFault integerBound)

/-! ### Writing -/

namespace Toml

variable {cs ds : List Char} {name : String} {text : String}

/-- A text that does not begin with a byte order mark. -/
def Unmarked (cs : List Char) : Prop := ∀ ds, cs ≠ '\ufeff' :: ds

theorem Unmarked.nil : Unmarked [] :=
  fun _ heq => List.cons_ne_nil _ _ heq.symm

theorem Unmarked.append (hcs : Unmarked cs) (hds : Unmarked ds) : Unmarked (cs ++ ds) := by
  cases cs with
  | nil => exact hds
  | cons c cs => exact fun es heq => hcs cs (by rw [(List.cons.inj heq).1])

theorem Unmarked.flatMap {α : Type} {as : List α} {f : α → List Char}
    (h : ∀ a ∈ as, Unmarked (f a)) : Unmarked (as.flatMap f) := by
  induction as with
  | nil => exact .nil
  | cons a as ih =>
      exact (h a List.mem_cons_self).append (ih fun b hb => h b (List.mem_cons_of_mem a hb))

theorem Unmarked.cons {c : Char} (hc : c ≠ '\ufeff') : Unmarked (c :: cs) :=
  fun _ heq => hc (List.cons.inj heq).1

/-- A line that begins with a bare name has no mark. -/
theorem Bare.unmarked (h : Bare name) : Unmarked (name.toList ++ cs) :=
  fun _ heq => absurd (h.head heq) (by decide)

theorem Part.unmarked_valueLines (h : Bare name) (part : Part) :
    Unmarked (part.valueLines name) := by
  cases part with
  | number n? =>
      refine Unmarked.flatMap fun n hn => ?_
      rw [assignment, List.append_assoc, List.append_assoc]
      exact h.unmarked
  | table fields => exact Unmarked.nil
  | tables elements =>
      rw [Part.valueLines]
      split
      · exact h.unmarked
      · exact Unmarked.nil

theorem Part.unmarked_headedLines (part : Part) : Unmarked (part.headedLines name) := by
  cases part with
  | number n? => exact Unmarked.nil
  | table fields => exact Unmarked.cons (by decide)
  | tables elements => exact Unmarked.flatMap fun fields _ => Unmarked.cons (by decide)

theorem dropMark_of_unmarked (h : Unmarked cs) : dropMark cs = cs := by
  unfold dropMark
  split
  · next ds => exact absurd rfl (h ds)
  · rfl

namespace Record

variable {r : Record}

theorem dropMark_lines (h : r.WellNamed) : dropMark r.lines = r.lines :=
  dropMark_of_unmarked <| Unmarked.append
    (Unmarked.flatMap fun e he => e.2.unmarked_valueLines (h.bare e he))
    (Unmarked.flatMap fun e _ => e.2.unmarked_headedLines)

/-- The document of a record has the tables that its statements make. -/
theorem document?_lines (h : r.WellNamed) (hbound : ∀ n ∈ r.numbers, n < integerBound) :
    document? (String.ofList r.lines) = some r.entries := by
  have hstatements : statements? (String.ofList r.lines) = some r.statements := by
    rw [statements?, String.toList_ofList, dropMark_lines h]
    exact consists_lines (h.fitting hbound) _ (Nat.lt_succ_self _)
  rw [document?, hstatements, Option.bind_some, run?_statements h]

theorem write_eq_ok_iff :
    r.write = .ok text ↔ (∀ n ∈ r.numbers, n < integerBound) ∧ text = String.ofList r.lines := by
  have hall : r.numbers.all (· < integerBound) = true ↔ ∀ n ∈ r.numbers, n < integerBound := by
    simp
  rw [write, ← hall]
  split
  · next h => simp [h, eq_comm]
  · next h => simp [h]

end Record

end Toml

/-! ### Reading -/

namespace Config

variable {es : Entries Node} {n : Node} {name : String}

/-- An entry is what is found under its name, if no other entry has this name. -/
theorem find?_of_mem (hnew : (es.map Prod.fst).Nodup) (h : (name, n) ∈ es) :
    es.find? name = some n := by
  have hall : es.choose some = es := List.filterMap_some
  rw [← hall]
  exact Entries.find?_choose hnew h

theorem mem_of_find? (h : es.find? name = some n) : name ∈ es.map Prod.fst := by
  by_contra hnot
  rw [Entries.find?_eq_none_iff.2 hnot] at h
  cases h

/-! ### Numbers -/

theorem readNumber_integer {bound k : Nat} (expected : Expected) (h : k < bound) :
    readNumber bound expected (.value (.integer k)) = .ok k := by
  rw [readNumber]
  exact if_pos ⟨Int.natCast_nonneg k, h⟩

theorem readId_integer (id : UInt32) : readId (.value (.integer id.toNat)) = .ok id := by
  have hid : id.toNat < Word.limit32 := id.toNat_lt
  rw [readId, readNumber_integer .producerId hid]
  exact congrArg Except.ok UInt32.ofNat_toNat

theorem readSize_integer (k : UInt64) : readSize (.value (.integer k.toNat)) = .ok k := by
  have hk : k.toNat < Word.limit := k.toNat_lt
  rw [readSize, readNumber_integer .size hk]
  exact congrArg Except.ok UInt64.ofNat_toNat

theorem readSetting_integer (k : UInt64) : readSetting (.value (.integer k.toNat)) = .ok k := by
  have hk : k.toNat < Word.limit := k.toNat_lt
  rw [readSetting, readNumber_integer .settingsNumber hk]
  exact congrArg Except.ok UInt64.ofNat_toNat

/-! ### Producers -/

variable {p : ProducerSpec} {s : Settings}

/-- What the entries of a producer set, in whatever order they are. -/
theorem readEntries_producerField (d : ProducerDraft)
    (hid : ∀ n, ("id", n) ∈ es → readId n = .ok p.id)
    (hmessages : ∀ n, ("messages", n) ∈ es → readSize n = .ok p.messages)
    (hqueue : ∀ n, ("queue_size", n) ∈ es → readSize n = .ok p.queueSize) :
    readEntries producerField d es = .ok
      ⟨if "id" ∈ es.map Prod.fst then some p.id else d.id,
        if "messages" ∈ es.map Prod.fst then some p.messages else d.messages,
        if "queue_size" ∈ es.map Prod.fst then some p.queueSize else d.queueSize⟩ := by
  induction es generalizing d with
  | nil => rfl
  | cons e es ih =>
      obtain ⟨k, n⟩ := e
      have htail := fun d => ih d (fun n hn => hid n (List.mem_cons_of_mem _ hn))
        (fun n hn => hmessages n (List.mem_cons_of_mem _ hn))
        (fun n hn => hqueue n (List.mem_cons_of_mem _ hn))
      rw [readEntries]
      by_cases h₁ : k = "id"
      · subst h₁
        simp [-List.mem_map, producerField, hid n List.mem_cons_self, Except.map, htail]
      by_cases h₂ : k = "messages"
      · subst h₂
        simp [-List.mem_map, producerField, hmessages n List.mem_cons_self, Except.map, htail]
      by_cases h₃ : k = "queue_size"
      · subst h₃
        simp [-List.mem_map, producerField, hqueue n List.mem_cons_self, Except.map, htail]
      · simp [-List.mem_map, producerField, h₁, h₂, h₃, Ne.symm h₁, Ne.symm h₂, Ne.symm h₃, htail]

/-- A producer is read from a table that has its numbers. -/
theorem readProducer_of_standsIn (h : p.StandsIn es) :
    readProducer (.table .written es) = .ok p := by
  have hentries := readEntries_producerField (p := p) {}
    (fun n hn => by
      obtain rfl := Option.some.inj ((find?_of_mem h.nodup hn).symm.trans h.id)
      exact readId_integer p.id)
    (fun n hn => by
      obtain rfl := Option.some.inj ((find?_of_mem h.nodup hn).symm.trans h.messages)
      exact readSize_integer p.messages)
    (fun n hn => by
      obtain rfl := Option.some.inj ((find?_of_mem h.nodup hn).symm.trans h.queueSize)
      exact readSize_integer p.queueSize)
  rw [if_pos (mem_of_find? h.id), if_pos (mem_of_find? h.messages),
    if_pos (mem_of_find? h.queueSize)] at hentries
  simp only [readProducer, Node.entries?, hentries]
  rfl

theorem mapM_readProducer {ps : List ProducerSpec} {elements : List (Entries Node)}
    (h : List.Forall₂ ProducerSpec.StandsIn ps elements) :
    (elements.map (Node.table .written)).mapM readProducer = .ok ps := by
  induction h with
  | nil => rfl
  | cons hp _ ih =>
      rw [List.map_cons, List.mapM_cons, readProducer_of_standsIn hp, ih]
      rfl

/-- Producers are read in their order. -/
theorem readProducers_of_standAs {ps : List ProducerSpec} (h : ProducersStandAs (some n) ps) :
    readProducers n = .ok ps := by
  cases h with
  | empty => rfl
  | tables h => exact mapM_readProducer h

/-! ### Settings -/

/-- What the entries of the settings set, in whatever order they are. -/
theorem readEntries_settingsField (a : Settings)
    (hdelay : ∀ n, ("edit_delay_ms", n) ∈ es → readSetting n = .ok s.editDelayMs)
    (hseed : ∀ n, ("seed", n) ∈ es → ∃ k, s.seed = some k ∧ readSetting n = .ok k) :
    readEntries settingsField a es = .ok
      ⟨if "edit_delay_ms" ∈ es.map Prod.fst then s.editDelayMs else a.editDelayMs,
        if "seed" ∈ es.map Prod.fst then s.seed else a.seed⟩ := by
  induction es generalizing a with
  | nil => rfl
  | cons e es ih =>
      obtain ⟨k, n⟩ := e
      have htail := fun a => ih a (fun n hn => hdelay n (List.mem_cons_of_mem _ hn))
        (fun n hn => hseed n (List.mem_cons_of_mem _ hn))
      rw [readEntries]
      by_cases h₁ : k = "edit_delay_ms"
      · subst h₁
        simp [-List.mem_map, settingsField, hdelay n List.mem_cons_self, Except.map, htail]
      by_cases h₂ : k = "seed"
      · subst h₂
        obtain ⟨seed, hsome, hread⟩ := hseed n List.mem_cons_self
        simp [-List.mem_map, settingsField, hread, hsome, Except.map, htail]
      · simp [-List.mem_map, settingsField, h₁, h₂, Ne.symm h₁, Ne.symm h₂, htail]

/-- Settings are read from a table that has their numbers: a default stands only for a number that
is not there. -/
theorem readSettings_of_standsIn (h : s.StandsIn es) :
    readSettings (.table .written es) = .ok s := by
  have hentries := readEntries_settingsField (s := s) {}
    (fun n hn => by
      have hfind := find?_of_mem h.nodup hn
      rcases h.editDelay with hdelay | ⟨hnone, -⟩
      · obtain rfl := Option.some.inj (hfind.symm.trans hdelay)
        exact readSetting_integer s.editDelayMs
      · cases hfind.symm.trans hnone)
    (fun n hn => by
      have hfind := (find?_of_mem h.nodup hn).symm.trans h.seed
      obtain ⟨seed, hseed, rfl⟩ := Option.map_eq_some_iff.1 hfind.symm
      exact ⟨seed, hseed, readSetting_integer seed⟩)
  have hdelay : (if "edit_delay_ms" ∈ es.map Prod.fst then s.editDelayMs else 100) =
      s.editDelayMs := by
    rcases h.editDelay with hsome | ⟨-, hdefault⟩
    · exact if_pos (mem_of_find? hsome)
    · rw [hdefault, ite_self]
  have hseed : (if "seed" ∈ es.map Prod.fst then s.seed else none) = s.seed := by
    split
    · rfl
    · next hnot =>
      have hnone := h.seed.symm.trans (Entries.find?_eq_none_iff.2 hnot)
      exact (Option.map_eq_none_iff.1 hnone).symm
  rw [hdelay, hseed] at hentries
  simp only [readSettings, Node.entries?, hentries]

theorem readSettings_of_standAs (h : SettingsStandAs (some n) s) : readSettings n = .ok s := by
  cases h with
  | table h => exact readSettings_of_standsIn h

/-! ### Configurations -/

variable {c : Config}

/-- What the entries of a configuration set, in whatever order they are. -/
theorem readEntries_configField (d : ConfigDraft)
    (hproducers : ∀ n, ("producers", n) ∈ es → readProducers n = .ok c.producers)
    (hshared : ∀ n, ("co_editor_queue_size", n) ∈ es → readSize n = .ok c.coEditorQueueSize)
    (hsettings : ∀ n, ("settings", n) ∈ es → readSettings n = .ok c.settings) :
    readEntries configField d es = .ok
      ⟨if "producers" ∈ es.map Prod.fst then c.producers else d.producers,
        if "co_editor_queue_size" ∈ es.map Prod.fst then some c.coEditorQueueSize
        else d.coEditorQueueSize,
        if "settings" ∈ es.map Prod.fst then c.settings else d.settings⟩ := by
  induction es generalizing d with
  | nil => rfl
  | cons e es ih =>
      obtain ⟨k, n⟩ := e
      have htail := fun d => ih d (fun n hn => hproducers n (List.mem_cons_of_mem _ hn))
        (fun n hn => hshared n (List.mem_cons_of_mem _ hn))
        (fun n hn => hsettings n (List.mem_cons_of_mem _ hn))
      rw [readEntries]
      by_cases h₁ : k = "producers"
      · subst h₁
        simp [-List.mem_map, configField, hproducers n List.mem_cons_self, Except.map, htail]
      by_cases h₂ : k = "co_editor_queue_size"
      · subst h₂
        simp [-List.mem_map, configField, hshared n List.mem_cons_self, Except.map, htail]
      by_cases h₃ : k = "settings"
      · subst h₃
        simp [-List.mem_map, configField, hsettings n List.mem_cons_self, Except.map, htail]
      · simp [-List.mem_map, configField, h₁, h₂, h₃, Ne.symm h₁, Ne.symm h₂, Ne.symm h₃, htail]

/-- A configuration is read from a table that has all its parts. -/
theorem ofDocument?_of_standsIn (h : c.StandsIn es) : ofDocument? es = .ok c := by
  have hentries := readEntries_configField (c := c) {}
    (fun n hn => readProducers_of_standAs (find?_of_mem h.nodup hn ▸ h.producers))
    (fun n hn => by
      obtain rfl := Option.some.inj ((find?_of_mem h.nodup hn).symm.trans h.shared)
      exact readSize_integer c.coEditorQueueSize)
    (fun n hn => readSettings_of_standAs (find?_of_mem h.nodup hn ▸ h.settings))
  have hproducers : (if "producers" ∈ es.map Prod.fst then c.producers else []) = c.producers := by
    split
    · rfl
    · next hnot =>
      have hmissing := h.producers
      rw [Entries.find?_eq_none_iff.2 hnot] at hmissing
      generalize c.producers = ps at hmissing ⊢
      cases hmissing
      rfl
  have hsettings : (if "settings" ∈ es.map Prod.fst then c.settings else {}) = c.settings := by
    split
    · rfl
    · next hnot =>
      have hmissing := h.settings
      rw [Entries.find?_eq_none_iff.2 hnot] at hmissing
      generalize c.settings = s at hmissing ⊢
      cases hmissing
      rfl
  rw [hproducers, hsettings, if_pos (mem_of_find? h.shared)] at hentries
  rw [ofDocument?, hentries]
  rfl

end Config

/-- The documents of the program keep the laws. -/
instance lawfulDocumentLibrary : LawfulDocumentLibrary where
  write_iff _ := by
    have hbound : integerBound = 2 ^ 63 := by decide
    simp only [DocumentLibrary.write, Toml.Record.write_eq_ok_iff, exists_and_left, exists_eq,
      and_true, hbound]
  tables_of_write h hwrite := by
    obtain ⟨hbound, rfl⟩ := Toml.Record.write_eq_ok_iff.1 hwrite
    exact Toml.Record.document?_lines h hbound
  configOf_of_standsIn := Config.ofDocument?_of_standsIn

end Newsroom
