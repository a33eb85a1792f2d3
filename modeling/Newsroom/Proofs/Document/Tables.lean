import Newsroom.Proofs.Document.Lines

/-!
# The tables of a written document

The statements of a record build one table after the other: the document itself, then a table or
an array of tables for each name that needs a header.

## Main Definitions

* `Toml.elementEntries` — an array of tables, which is there only if it has an element

## Main Statements

* `Toml.Entries.find?_choose` — under a name stands what is chosen of the part with this name
* `Toml.Draft.run?_assigned` — values under new names become entries of the current table
* `Toml.Draft.run?_elements` — elements become an array of tables, in their order
* `Toml.Record.run?_statements` — the statements of a record make its entries

## Implementation Notes

The current table of a draft is put in its place only when the next header comes.  What is carried
from one header to the next is therefore the document that closing the draft would give.
-/

namespace Newsroom.Toml

variable {k name : String} {v : Value}

/-! ### Entries -/

namespace Entries

variable {α β : Type} {es fs : Entries β} {b : β}

theorem find?_eq_none_iff : es.find? k = none ↔ k ∉ es.map Prod.fst := by
  induction es with
  | nil => simp [find?]
  | cons e es ih =>
      rw [find?]
      split
      · next h => simp [h]
      · next h => simp [ih, Ne.symm h]

theorem find?_append_of_eq_none (h : es.find? k = none) : (es ++ fs).find? k = fs.find? k := by
  induction es with
  | nil => rfl
  | cons e es ih =>
      rw [find?] at h
      rw [List.cons_append, find?]
      by_cases hk : e.1 = k
      · rw [if_pos hk] at h
        cases h
      · rw [if_neg hk] at h
        rw [if_neg hk, ih h]

theorem put_append_of_eq_none (h : es.find? k = none) :
    (es ++ fs).put k b = es ++ fs.put k b := by
  induction es with
  | nil => rfl
  | cons e es ih =>
      rw [find?] at h
      by_cases hk : e.1 = k
      · rw [if_pos hk] at h
        cases h
      · rw [if_neg hk] at h
        rw [List.cons_append, put, if_neg hk, ih h, List.cons_append]

/-- The names of what is chosen are among the names that there were. -/
theorem sublist_choose (f : α → Option β) (es : Entries α) :
    ((es.choose f).map Prod.fst).Sublist (es.map Prod.fst) := by
  induction es with
  | nil => exact List.Sublist.slnil
  | cons e es ih =>
      rw [choose_cons, List.map_append, List.map_cons]
      cases f e.2 with
      | none => exact ih.cons e.1
      | some b => exact ih.cons_cons e.1

/-- Under a name stands what is chosen of the entry with this name. -/
theorem find?_choose {f : α → Option β} {es : Entries α} (hnew : (es.map Prod.fst).Nodup)
    {e : String × α} (he : e ∈ es) : (es.choose f).find? e.1 = f e.2 := by
  induction es with
  | nil => cases he
  | cons g es ih =>
      obtain ⟨hhead, htail⟩ := List.nodup_cons.1 hnew
      rw [choose_cons]
      rcases List.mem_cons.1 he with rfl | he
      · cases f e.2 with
        | none => exact find?_eq_none_iff.2 fun hmem => hhead ((sublist_choose f es).subset hmem)
        | some b => exact if_pos rfl
      · have hne : g.1 ≠ e.1 := fun heq => hhead (heq ▸ List.mem_map_of_mem he)
        have hfirst : Entries.find? e.1 ((f g.2).toList.map fun b => (g.1, b)) = none := by
          cases f g.2 with
          | none => rfl
          | some b => exact if_neg hne
        rw [find?_append_of_eq_none hfirst, ih htail he]

end Entries

theorem map_fst_valueEntries (vs : Entries Value) :
    (valueEntries vs).map Prod.fst = vs.map Prod.fst := by
  simp [valueEntries]

theorem find?_valueEntries (vs : Entries Value) :
    (valueEntries vs).find? name = (vs.find? name).map .value := by
  induction vs with
  | nil => rfl
  | cons e vs ih =>
      rw [valueEntries, List.map_cons, Entries.find?, Entries.find?, ← valueEntries, ih]
      split <;> rfl

/-- The names of the numbers that are present are all different. -/
theorem Fields.WellNamed.nodup_integers {fs : Fields} (h : fs.WellNamed) :
    ((integers fs.present).map Prod.fst).Nodup := by
  have hnames : (integers fs.present).map Prod.fst = fs.present.map Prod.fst := by
    simp [integers]
  rw [hnames]
  exact h.nodup.sublist (Entries.sublist_choose id fs)

theorem Fields.WellNamed.nodup_entries {fs : Fields} (h : fs.WellNamed) :
    (fs.entries.map Prod.fst).Nodup := by
  rw [Fields.entries, map_fst_valueEntries]
  exact h.nodup_integers

/-- An array of tables, which is there only if it has an element. -/
def elementEntries (name : String) (elements : List (Entries Node)) : Entries Node :=
  if elements.isEmpty then [] else [(name, .tables elements)]

/-- What needs a header has no value. -/
theorem Part.value?_of_headed? {part : Part} (h : part.headed?.isSome) : part.value? = none := by
  cases part with
  | number n? => cases h
  | table fields => rfl
  | tables elements =>
      cases elements with
      | nil => cases h
      | cons fields elements => rfl

/-! ### Drafts -/

namespace Draft

variable {d : Draft} {root : Entries Node} {vs : Entries Value}

theorem run?_append (d : Draft) (ss ts : List Statement) :
    d.run? (ss ++ ts) = (d.run? ss).bind fun d => d.run? ts := by
  induction ss generalizing d with
  | nil => rfl
  | cons s ss ih =>
      rw [List.cons_append, run?, run?]
      cases d.step? s with
      | none => rfl
      | some e => exact ih e

theorem assign?_of_eq_none (h : d.current.find? name = none) :
    d.assign? ⟨[], name⟩ v = some { d with current := d.current ++ [(name, .value v)] } := by
  have hkind : ¬(TableKind.written = .dotted ↔ ([] : List String) = []) := by decide
  have hadd : addValue? [] name v .written d.current =
      some ((), d.current ++ [(name, .value v)]) := by
    rw [addValue?, if_neg hkind, h]
  simp only [assign?, alter?, hadd, Option.map_some]

/-- Values under new names become entries of the current table. -/
theorem run?_assigned (hnew : (vs.map Prod.fst).Nodup)
    (hfree : ∀ e ∈ vs, d.current.find? e.1 = none) :
    d.run? (assigned vs) = some { d with current := d.current ++ valueEntries vs } := by
  induction vs generalizing d with
  | nil => simp [assigned, valueEntries, run?]
  | cons e vs ih =>
      obtain ⟨hhead, htail⟩ := List.nodup_cons.1 hnew
      have hassign := assign?_of_eq_none (v := e.2) (hfree e List.mem_cons_self)
      rw [assigned, List.map_cons, run?, step?, hassign, Option.bind_some, ← assigned,
        ih htail fun g hg => ?_]
      · simp [valueEntries]
      · -- The name that was just given differs from those that are left.
        have hne : e.1 ≠ g.1 := fun heq => hhead (heq ▸ List.mem_map_of_mem hg)
        rw [Entries.find?_append_of_eq_none (hfree g (List.mem_cons_of_mem e hg)), Entries.find?,
          if_neg hne, Entries.find?]

/-! ### Tables with headers -/

variable {fields : Fields} {elements : List Fields} {done : List (Entries Node)}

/-- A table with a header of its own, between the headers around it. -/
theorem run?_table (hclose : d.close? = some root) (hfree : root.find? name = none)
    (hfields : fields.WellNamed) :
    ∃ e, d.run? (tableStatements name fields) = some e ∧
      e.close? = some (root ++ [(name, .table .written fields.entries)]) := by
  have hstep : d.step? (.table ⟨[], name⟩) = some ⟨root, [], .table ⟨[], name⟩⟩ := by
    simp only [step?, hclose, alter?, takeTable?, hfree, Option.bind_some, Option.map_some]
  refine ⟨⟨root, fields.entries, .table ⟨[], name⟩⟩, ?_, ?_⟩
  · rw [tableStatements, run?, hstep, Option.bind_some,
      run?_assigned hfields.nodup_integers fun f hf => rfl, List.nil_append]
    rfl
  · simp only [close?, alter?, addTable?, hfree, Option.map_some]

theorem addElement?_elementEntries (hfree : root.find? name = none) (sub : Entries Node) :
    addElement? name sub .written (root ++ elementEntries name done) =
      some ((), root ++ elementEntries name (done ++ [sub])) := by
  rw [addElement?, Entries.find?_append_of_eq_none hfree]
  cases done with
  | nil => simp [elementEntries, Entries.find?]
  | cons es done =>
      simp [elementEntries, Entries.find?, Entries.put_append_of_eq_none hfree, Entries.put]

/-- An element of an array of tables, between the headers around it. -/
theorem run?_element (hclose : d.close? = some (root ++ elementEntries name done))
    (hfree : root.find? name = none) (hfields : fields.WellNamed) :
    ∃ e, d.run? (elementStatements name fields) = some e ∧
      e.close? = some (root ++ elementEntries name (done ++ [fields.entries])) := by
  have hstep : d.step? (.element ⟨[], name⟩) =
      some ⟨root ++ elementEntries name done, [], .element ⟨[], name⟩⟩ := by
    simp only [step?, hclose, alter?, addElement?_elementEntries hfree, Option.bind_some,
      Option.map_some]
  refine ⟨⟨root ++ elementEntries name done, fields.entries, .element ⟨[], name⟩⟩, ?_, ?_⟩
  · rw [elementStatements, run?, hstep, Option.bind_some,
      run?_assigned hfields.nodup_integers fun f hf => rfl, List.nil_append]
    rfl
  · simp only [close?, alter?, addElement?_elementEntries hfree, Option.map_some]

/-- Elements become an array of tables, in their order. -/
theorem run?_elements (hclose : d.close? = some (root ++ elementEntries name done))
    (hfree : root.find? name = none) (helements : ∀ fields ∈ elements, fields.WellNamed) :
    ∃ e, d.run? (elements.flatMap (elementStatements name)) = some e ∧
      e.close? = some (root ++ elementEntries name (done ++ elements.map Fields.entries)) := by
  induction elements generalizing d done with
  | nil => exact ⟨d, rfl, by rw [hclose, List.map_nil, List.append_nil]⟩
  | cons fields elements ih =>
      obtain ⟨e, hrun, hclose⟩ := run?_element hclose hfree (helements fields List.mem_cons_self)
      obtain ⟨f, hrest, hlast⟩ := ih hclose fun g hg => helements g (List.mem_cons_of_mem fields hg)
      refine ⟨f, ?_, by rw [hlast, List.append_assoc, List.map_cons, List.singleton_append]⟩
      rw [List.flatMap_cons, run?_append, hrun, Option.bind_some, hrest]

/-- What a part needs headers for becomes one more entry. -/
theorem run?_part {part : Part} (hclose : d.close? = some root)
    (hfree : part.headed?.isSome → root.find? name = none)
    (hfields : ∀ fields ∈ part.fieldLists, fields.WellNamed) :
    ∃ e, d.run? (part.headedStatements name) = some e ∧
      e.close? = some (root ++ part.headed?.toList.map fun n => (name, n)) := by
  cases part with
  | number n? => exact ⟨d, rfl, by simpa [Part.headed?] using hclose⟩
  | table fields => exact run?_table hclose (hfree rfl) (hfields fields List.mem_cons_self)
  | tables elements =>
      cases elements with
      | nil => exact ⟨d, rfl, by simpa [Part.headed?] using hclose⟩
      | cons fields elements =>
          have hnone : d.close? = some (root ++ elementEntries name []) := by
            simpa [elementEntries] using hclose
          exact run?_elements hnone (hfree rfl) hfields

end Draft

/-! ### The statements of a record -/

namespace Record

variable {d : Draft} {root : Entries Node} {r : Record}

/-- The parts that need headers become entries, in their order. -/
theorem run?_headedStatements (hclose : d.close? = some root) (hnew : (r.map Prod.fst).Nodup)
    (hfree : ∀ e ∈ r, e.2.headed?.isSome → root.find? e.1 = none)
    (hfields : ∀ e ∈ r, ∀ fields ∈ e.2.fieldLists, fields.WellNamed) :
    ∃ e, d.run? (r.flatMap fun e => e.2.headedStatements e.1) = some e ∧
      e.close? = some (root ++ r.choose Part.headed?) := by
  induction r generalizing d root with
  | nil => exact ⟨d, rfl, by rw [hclose, Entries.choose, List.filterMap_nil, List.append_nil]⟩
  | cons g r ih =>
      obtain ⟨hhead, htail⟩ := List.nodup_cons.1 hnew
      obtain ⟨e, hrun, hclose⟩ := Draft.run?_part hclose (hfree g List.mem_cons_self)
        (hfields g List.mem_cons_self)
      have hstill : ∀ f ∈ r, f.2.headed?.isSome →
          Entries.find? f.1 (root ++ g.2.headed?.toList.map fun n => (g.1, n)) = none := by
        intro f hf hsome
        have hne : g.1 ≠ f.1 := fun heq => hhead (heq ▸ List.mem_map_of_mem hf)
        rw [Entries.find?_append_of_eq_none (hfree f (List.mem_cons_of_mem g hf) hsome)]
        cases g.2.headed? with
        | none => rfl
        | some n => exact if_neg hne
      obtain ⟨f, hrest, hlast⟩ := ih hclose htail hstill
        fun f hf => hfields f (List.mem_cons_of_mem g hf)
      refine ⟨f, ?_, by rw [hlast, List.append_assoc, Entries.choose_cons]⟩
      rw [List.flatMap_cons, Draft.run?_append, hrun, Option.bind_some, hrest]

/-- The statements of a record make its entries. -/
theorem run?_statements (h : r.WellNamed) :
    (Draft.empty.run? r.statements).bind Draft.close? = some r.entries := by
  have hvalues := Draft.run?_assigned (d := Draft.empty)
    (h.nodup.sublist (Entries.sublist_choose Part.value? r)) fun f hf => rfl
  rw [Draft.empty, List.nil_append] at hvalues
  have hclose : Draft.close? ⟨[], valueEntries (r.choose Part.value?), .root⟩ =
      some (valueEntries (r.choose Part.value?)) := rfl
  have hfree : ∀ e ∈ r, e.2.headed?.isSome →
      (valueEntries (r.choose Part.value?)).find? e.1 = none := by
    intro e he hsome
    rw [find?_valueEntries, Entries.find?_choose h.nodup he, Part.value?_of_headed? hsome]
    rfl
  obtain ⟨e, hrun, hlast⟩ := run?_headedStatements hclose h.nodup hfree h.fields
  rw [statements, Draft.run?_append, Draft.empty, hvalues, Option.bind_some, hrun, Option.bind_some,
    hlast, entries]

end Record

end Newsroom.Toml
