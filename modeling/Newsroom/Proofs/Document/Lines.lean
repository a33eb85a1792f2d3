import Newsroom.Proofs.Document.Words

/-!
# The lines of a written document

What is written for a record is a sequence of statements, one to a line.

## Main Definitions

* `Toml.Consists` — a text is read as these statements
* `Toml.Record.statements` — the statements that are written for a record

## Main Statements

* `Toml.Consists.assign`, `Toml.Consists.table`, `Toml.Consists.element` — one more line in
  front of a text is one more statement
* `Toml.Record.consists_lines` — the document of a record is read as its statements

## Implementation Notes

Statements are read with a budget.  `Consists` holds for every budget above the length of the
text, so that a line can be put in front of a text without counting what the rest needs.
-/

namespace Newsroom.Toml

open Text (decimal)

variable {name : String} {n : Nat} {v : Value} {c : Char} {cs rest : List Char} {s : Statement}
  {ss : List Statement}

/-- The assignments of values to names. -/
def assigned (vs : Entries Value) : List Statement :=
  vs.map fun e => .assign ⟨[], e.1⟩ e.2

/-- A text is read as these statements. -/
def Consists (cs : List Char) (ss : List Statement) : Prop :=
  ∀ budget, cs.length < budget → statementsFrom? budget cs = some ss

theorem Consists.nil : Consists [] [] := by
  intro budget hbudget
  obtain ⟨b, rfl⟩ := Nat.exists_eq_succ_of_ne_zero (Nat.ne_of_gt hbudget)
  rfl

/-- A text with an empty line in front of it is read as without. -/
theorem Consists.emptyLine (h : Consists cs ss) : Consists ('\n' :: cs) ss := by
  intro budget hbudget
  rw [List.length_cons] at hbudget
  obtain ⟨b, rfl⟩ := Nat.exists_eq_succ_of_ne_zero (Nat.ne_zero_of_lt hbudget)
  rw [← h (b + 1) (by omega)]
  rfl

/-- A statement on a line of its own is read in front of the others. -/
theorem Consists.cons (hskip : skipLines false cs = cs)
    (hstatement : statement? cs = some (s, '\n' :: rest)) (hlength : rest.length < cs.length)
    (h : Consists rest ss) : Consists cs (s :: ss) := by
  intro budget hbudget
  obtain ⟨b, rfl⟩ := Nat.exists_eq_succ_of_ne_zero (Nat.ne_zero_of_lt hbudget)
  obtain ⟨c, cs, rfl⟩ := List.exists_cons_of_length_pos (Nat.zero_lt_of_lt hlength)
  have hend : endLine? ('\n' :: rest) = some rest := rfl
  have hrest : statementsFrom? b rest = some ss := h b (by omega)
  simp only [statementsFrom?, hskip, hstatement, hend, hrest, Option.map_some]

/-! ### Assignments -/

theorem skipLines_bare (hname : Bare name) :
    skipLines false (name.toList ++ rest) = name.toList ++ rest := by
  unfold skipLines
  split
  · next heq => exact heq.symm
  · next heq => exact absurd (hname.head heq) (by decide)
  · next heq => exact absurd (hname.head heq) (by decide)
  · next d ds _ _ heq =>
      have hbare : isBareChar d = true := hname.head heq
      have hcomment : d ≠ '#' := by rintro rfl; exact absurd hbare (by decide)
      rw [heq, not_isSpace_of_isBareChar hbare]
      simp [hcomment]

theorem assignment?_bare {item? : List Char → Option (Value × List Char)} (hname : Bare name)
    (hspace : isSpace c = false) (hitem : item? (c :: cs) = some (v, rest)) :
    assignment? item? (name.toList ++ ' ' :: '=' :: ' ' :: c :: cs) =
      some ((⟨[], name⟩, v), rest) := by
  have hkey : key? (name.toList ++ ' ' :: '=' :: ' ' :: c :: cs) =
      some (⟨[], name⟩, '=' :: ' ' :: c :: cs) :=
    key?_of_bare hname rfl (by intro r heq; cases heq)
  have hskip : skipSpace (' ' :: c :: cs) = c :: cs := by
    rw [skipSpace, List.dropWhile_cons_of_pos rfl, List.dropWhile_cons_of_neg (by simp [hspace])]
  simp only [assignment?, hkey, hskip, hitem]

/-- A line that assigns a value to a bare name is a statement. -/
theorem Consists.assignValue (hname : Bare name) (hspace : isSpace c = false)
    (hvalue : value? maxNesting (c :: cs ++ '\n' :: rest) = some (v, '\n' :: rest))
    (h : Consists rest ss) :
    Consists (name.toList ++ ' ' :: '=' :: ' ' :: (c :: cs ++ '\n' :: rest))
      (.assign ⟨[], name⟩ v :: ss) := by
  refine Consists.cons (skipLines_bare hname) ?_ (by simp; omega) h
  unfold statement?
  split
  · next heq => exact absurd (hname.head heq) (by decide)
  · next heq => exact absurd (hname.head heq) (by decide)
  · have hassignment := assignment?_bare hname hspace hvalue
    exact congrArg (Option.map _) hassignment

/-- A line that assigns a number to a bare name is a statement. -/
theorem Consists.assign (hname : Bare name) (hn : n < integerBound) (h : Consists rest ss) :
    Consists (assignment name n ++ rest) (.assign ⟨[], name⟩ (.integer n) :: ss) := by
  obtain ⟨d, ds, hds⟩ := List.exists_cons_of_ne_nil (decimal_ne_nil n)
  have hdigit : d.isDigit = true := isDigit_of_mem_decimal (n := n) (hds ▸ List.mem_cons_self)
  have hspace : isSpace d = false :=
    not_isSpace_of_isBareChar (by simp [isBareChar, Char.isAlphanum, hdigit])
  have hvalue : value? maxNesting (decimal n ++ '\n' :: rest) =
      some (.integer n, '\n' :: rest) := value?_decimal maxNesting hn
  rw [hds] at hvalue
  have hline : assignment name n ++ rest =
      name.toList ++ ' ' :: '=' :: ' ' :: (d :: ds ++ '\n' :: rest) := by
    rw [assignment, hds, List.append_assoc, List.append_assoc, List.append_assoc]
    rfl
  rw [hline]
  exact Consists.assignValue hname hspace hvalue h

/-- A line that assigns the empty array to a bare name is a statement. -/
theorem Consists.assignEmpty (hname : Bare name) (h : Consists rest ss) :
    Consists (name.toList ++ " = []\n".toList ++ rest) (.assign ⟨[], name⟩ (.array []) :: ss) := by
  have hvalue : value? maxNesting ("[]".toList ++ '\n' :: rest) = some (.array [], '\n' :: rest) :=
    rfl
  rw [List.append_assoc]
  exact Consists.assignValue hname rfl hvalue h

/-! ### Headers -/

theorem key?_bracket (hname : Bare name) :
    key? (name.toList ++ ']' :: cs) = some (⟨[], name⟩, ']' :: cs) :=
  key?_of_bare hname rfl (by intro r heq; cases heq)

/-- A line that begins a table is a statement. -/
theorem Consists.table (hname : Bare name) (h : Consists rest ss) :
    Consists ('[' :: (name.toList ++ ']' :: '\n' :: rest)) (.table ⟨[], name⟩ :: ss) := by
  refine Consists.cons rfl ?_ (by simp; omega) h
  unfold statement?
  split
  · -- Two brackets would begin an element, but no bare name begins with a bracket.
    next heq => exact absurd (hname.head (List.cons.inj heq).2) (by decide)
  · next heq =>
      obtain rfl := (List.cons.inj heq).2
      simp only [key?_bracket hname]
  · next hne => exact absurd rfl (hne _)

/-- A line that begins an element of an array of tables is a statement. -/
theorem Consists.element (hname : Bare name) (h : Consists rest ss) :
    Consists ('[' :: '[' :: (name.toList ++ ']' :: ']' :: '\n' :: rest))
      (.element ⟨[], name⟩ :: ss) := by
  refine Consists.cons rfl ?_ (by simp; omega) h
  simp only [statement?, key?_bracket hname]

/-! ### The statements of a record -/

/-- The statements of a table. -/
def tableStatements (name : String) (fields : Fields) : List Statement :=
  .table ⟨[], name⟩ :: assigned (integers fields.present)

/-- The statements of an element of an array of tables. -/
def elementStatements (name : String) (fields : Fields) : List Statement :=
  .element ⟨[], name⟩ :: assigned (integers fields.present)

/-- The statements of a part that begin with a header. -/
def Part.headedStatements (name : String) : Part → List Statement
  | number _ => []
  | table fields => tableStatements name fields
  | tables elements => elements.flatMap (elementStatements name)

/-- The statements that are written for a record. -/
def Record.statements (r : Record) : List Statement :=
  assigned (r.choose Part.value?) ++ r.flatMap fun e => e.2.headedStatements e.1

/-- Numbers that can be written, under names that need no quotes. -/
def Writable (fields : Entries Nat) : Prop :=
  ∀ f ∈ fields, Bare f.1 ∧ f.2 < integerBound

theorem consists_assignments {fields : Entries Nat} (hfields : Writable fields)
    (h : Consists rest ss) :
    Consists (fields.flatMap (fun f => assignment f.1 f.2) ++ rest)
      (assigned (integers fields) ++ ss) := by
  induction fields with
  | nil => exact h
  | cons f fields ih =>
      obtain ⟨hname, hn⟩ := hfields f List.mem_cons_self
      rw [List.flatMap_cons, List.append_assoc]
      exact Consists.assign hname hn (ih fun g hg => hfields g (List.mem_cons_of_mem f hg))

/-- The numbers of a table can be written where all numbers of the record can. -/
theorem Fields.WellNamed.writable {fs : Fields} (h : fs.WellNamed)
    (hbound : ∀ f ∈ fs.present, f.2 < integerBound) : Writable fs.present := by
  intro f hf
  refine ⟨?_, hbound f hf⟩
  obtain ⟨g, hg, hpresent⟩ := List.mem_filterMap.1 hf
  obtain ⟨n, -, rfl⟩ := Option.map_eq_some_iff.1 hpresent
  exact h.bare g hg

theorem consists_tableLines {fields : Fields} (hname : Bare name)
    (hfields : Writable fields.present)
    (h : Consists rest ss) :
    Consists (tableLines name fields ++ rest) (tableStatements name fields ++ ss) := by
  have hlines : tableLines name fields ++ rest =
      '\n' :: '[' :: (name.toList ++ ']' :: '\n' :: (fields.lines ++ rest)) := by
    have hopen : "\n[".toList = ['\n', '['] := by decide
    have hclose : "]\n".toList = [']', '\n'] := by decide
    simp only [tableLines, hopen, hclose, List.append_assoc, List.cons_append, List.nil_append]
  rw [hlines]
  exact (Consists.table hname (consists_assignments hfields h)).emptyLine

theorem consists_elementLines {fields : Fields} (hname : Bare name)
    (hfields : Writable fields.present) (h : Consists rest ss) :
    Consists (elementLines name fields ++ rest) (elementStatements name fields ++ ss) := by
  have hlines : elementLines name fields ++ rest =
      '\n' :: '[' :: '[' :: (name.toList ++ ']' :: ']' :: '\n' :: (fields.lines ++ rest)) := by
    have hopen : "\n[[".toList = ['\n', '[', '['] := by decide
    have hclose : "]]\n".toList = [']', ']', '\n'] := by decide
    simp only [elementLines, hopen, hclose, List.append_assoc, List.cons_append, List.nil_append]
  rw [hlines]
  exact (Consists.element hname (consists_assignments hfields h)).emptyLine

theorem consists_elements {elements : List Fields} (hname : Bare name)
    (helements : ∀ fields ∈ elements, Writable fields.present) (h : Consists rest ss) :
    Consists (elements.flatMap (elementLines name) ++ rest)
      (elements.flatMap (elementStatements name) ++ ss) := by
  induction elements with
  | nil => exact h
  | cons fields elements ih =>
      rw [List.flatMap_cons, List.flatMap_cons, List.append_assoc, List.append_assoc]
      exact consists_elementLines hname (helements fields List.mem_cons_self)
        (ih fun g hg => helements g (List.mem_cons_of_mem fields hg))

/-- A part of which everything can be written. -/
structure Part.Fitting (name : String) (part : Part) : Prop where
  bare : Bare name
  number : ∀ n, part = .number (some n) → n < integerBound
  fields : ∀ fs ∈ part.fieldLists, Writable fs.present

theorem Part.Fitting.consists_valueLines {part : Part} (hpart : part.Fitting name)
    (h : Consists rest ss) :
    Consists (part.valueLines name ++ rest)
      (assigned (part.value?.toList.map fun v => (name, v)) ++ ss) := by
  cases part with
  | number n? =>
      cases n? with
      | none => exact h
      | some n =>
          have hline : Part.valueLines name (.number (some n)) = assignment name n :=
            List.flatMap_singleton _ _
          rw [hline]
          exact Consists.assign hpart.bare (hpart.number n rfl) h
  | table fields => exact h
  | tables elements =>
      cases elements with
      | nil => exact Consists.assignEmpty hpart.bare h
      | cons fields elements => exact h

theorem Part.Fitting.consists_headedLines {part : Part} (hpart : part.Fitting name)
    (h : Consists rest ss) :
    Consists (part.headedLines name ++ rest) (part.headedStatements name ++ ss) := by
  cases part with
  | number n? => exact h
  | table fields =>
      exact consists_tableLines hpart.bare (hpart.fields fields List.mem_cons_self) h
  | tables elements => exact consists_elements hpart.bare hpart.fields h

/-- The parts of a record whose numbers are in range can all be written. -/
theorem Record.WellNamed.fitting {r : Record} (h : r.WellNamed)
    (hbound : ∀ n ∈ r.numbers, n < integerBound) : ∀ e ∈ r, Part.Fitting e.1 e.2 := by
  intro e he
  have hpart : ∀ n ∈ e.2.numbers, n < integerBound := fun n hn =>
    hbound n (List.mem_flatMap.2 ⟨e, he, hn⟩)
  refine ⟨h.bare e he, fun n hn => hpart n ?_, fun fs hfs => ?_⟩
  · simp [hn, Part.numbers]
  · refine (h.fields e he fs hfs).writable fun f hf => hpart f.2 ?_
    have hmem := List.mem_map_of_mem (f := Prod.snd) hf
    cases hcase : e.2 with
    | number n? => simp [Part.fieldLists, hcase] at hfs
    | table fields =>
        simp only [Part.fieldLists, hcase, List.mem_singleton] at hfs
        rwa [Part.numbers, ← hfs]
    | tables elements =>
        rw [hcase] at hfs
        exact List.mem_flatMap.2 ⟨fs, hfs, hmem⟩

/-- The document of a record is read as its statements. -/
theorem Record.consists_lines {r : Record} (hr : ∀ e ∈ r, Part.Fitting e.1 e.2) :
    Consists r.lines r.statements := by
  have hheaded : Consists (r.flatMap fun e => e.2.headedLines e.1)
      (r.flatMap fun e => e.2.headedStatements e.1) := by
    induction r with
    | nil => exact Consists.nil
    | cons e r ih =>
        rw [List.flatMap_cons, List.flatMap_cons]
        exact (hr e List.mem_cons_self).consists_headedLines
          (ih fun g hg => hr g (List.mem_cons_of_mem e hg))
  rw [Record.lines, Record.statements]
  -- on the lines before the headers, which leaves what stands behind them free
  generalize (r.flatMap fun e => e.2.headedLines e.1) = rest at hheaded ⊢
  generalize (r.flatMap fun e => e.2.headedStatements e.1) = ss at hheaded ⊢
  induction r with
  | nil => exact hheaded
  | cons e r ih =>
      rw [List.flatMap_cons, Entries.choose_cons, assigned, List.map_append, List.append_assoc,
        List.append_assoc]
      exact (hr e List.mem_cons_self).consists_valueLines
        (ih fun g hg => hr g (List.mem_cons_of_mem e hg))

end Newsroom.Toml
