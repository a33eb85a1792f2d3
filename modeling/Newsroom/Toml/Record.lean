import Newsroom.Toml.Document
import Newsroom.Toml.Fault

/-!
# Records

What can be written as a document: numbers under names, tables of numbers, and
arrays of such tables.

## Main Definitions

* `Toml.Fields` — the numbers of a table under their names
* `Toml.Part`, `Toml.Record` — what stands under a name, and all of it
* `Toml.Record.WellNamed` — no name is given twice or needs quotes
* `Toml.Record.entries` — the entries of the document of a record
* `Toml.Record.lines`, `Toml.Record.write` — the text of a record

## Design Notes

What belongs to a table stands behind its header, so everything that has no header
comes first.  A number that is absent is left out.  A document holds signed 64-bit
integers only, so a greater number cannot be written.
-/

namespace Newsroom.Toml

/-- The numbers of a table under their names.  One that is absent has no value. -/
abbrev Fields := Entries (Option Nat)

/-- What stands under a name of a record. -/
inductive Part where
  | number (n? : Option Nat)
  | table (fields : Fields)
  | tables (elements : List Fields)
  deriving DecidableEq, Repr

/-- What stands under names, in the order of the names. -/
abbrev Record := Entries Part

/-! ### Names -/

/-- A name that needs no quotes as a key. -/
def Bare (name : String) : Prop :=
  name.toList ≠ [] ∧ ∀ d ∈ name.toList, isBareChar d = true

instance (name : String) : Decidable (Bare name) :=
  decidable_of_iff (name.toList ≠ [] ∧ name.toList.all isBareChar = true)
    (and_congr Iff.rfl List.all_eq_true)

/-- No name of some fields is given twice or needs quotes. -/
structure Fields.WellNamed (fs : Fields) : Prop where
  bare : ∀ f ∈ fs, Bare f.1
  nodup : (fs.map Prod.fst).Nodup

/-- The tables under a name. -/
def Part.fieldLists : Part → List Fields
  | number _ => []
  | table fields => [fields]
  | tables elements => elements

/-- No name of a record or of its tables is given twice or needs quotes. -/
structure Record.WellNamed (r : Record) : Prop where
  bare : ∀ e ∈ r, Bare e.1
  nodup : (r.map Prod.fst).Nodup
  fields : ∀ e ∈ r, ∀ fs ∈ e.2.fieldLists, Fields.WellNamed fs

/-! ### Contents -/

/-- What is chosen of the entries, under the same keys. -/
def Entries.choose {α β : Type} (f : α → Option β) (es : Entries α) : Entries β :=
  es.filterMap fun e => (f e.2).map fun b => (e.1, b)

theorem Entries.choose_cons {α β : Type} (f : α → Option β) (e : String × α) (es : Entries α) :
    Entries.choose f (e :: es) = (f e.2).toList.map (fun b => (e.1, b)) ++ es.choose f := by
  unfold Entries.choose
  cases h : f e.2 <;> simp [h]

/-- The numbers of a table that are not absent, under their names. -/
def Fields.present (fs : Fields) : Entries Nat := fs.choose id

/-- The numbers under a name. -/
def Part.numbers : Part → List Nat
  | number n? => n?.toList
  | table fields => fields.present.map Prod.snd
  | tables elements => elements.flatMap fun fields => fields.present.map Prod.snd

/-- The numbers of a record. -/
def Record.numbers (r : Record) : List Nat := r.flatMap fun e => e.2.numbers

/-- Values as the entries of a table. -/
def valueEntries (vs : Entries Value) : Entries Node := vs.map fun e => (e.1, .value e.2)

/-- Numbers as values. -/
def integers (fields : Entries Nat) : Entries Value := fields.map fun f => (f.1, .integer f.2)

/-- The entries of a table of numbers. -/
def Fields.entries (fs : Fields) : Entries Node := valueEntries (integers fs.present)

/-- What can be written without a header, if that is possible. -/
def Part.value? : Part → Option Value
  | number n? => n?.map fun n => .integer n
  | table _ => none
  | tables elements => if elements.isEmpty then some (.array []) else none

/-- What is written with headers, if it needs them. -/
def Part.headed? : Part → Option Node
  | number _ => none
  | table fields => some (.table .written fields.entries)
  | tables elements =>
      if elements.isEmpty then none else some (.tables (elements.map Fields.entries))

/-- The entries of the document of a record: what is absent is left out, and all
values come before the tables. -/
def Record.entries (r : Record) : Entries Node :=
  valueEntries (r.choose Part.value?) ++ r.choose Part.headed?

/-! ### Writing -/

/-- An assignment of a number, on a line of its own. -/
def assignment (name : String) (n : Nat) : List Char :=
  name.toList ++ " = ".toList ++ Text.decimal n ++ ['\n']

/-- The assignments of a table. -/
def Fields.lines (fs : Fields) : List Char :=
  fs.present.flatMap fun f => assignment f.1 f.2

/-- The lines of a part that stand before all headers. -/
def Part.valueLines (name : String) : Part → List Char
  | number n? => n?.toList.flatMap (assignment name)
  | table _ => []
  | tables elements => if elements.isEmpty then name.toList ++ " = []\n".toList else []

/-- A table behind its header, after an empty line. -/
def tableLines (name : String) (fields : Fields) : List Char :=
  "\n[".toList ++ name.toList ++ "]\n".toList ++ fields.lines

/-- An element of an array of tables behind its header, after an empty line. -/
def elementLines (name : String) (fields : Fields) : List Char :=
  "\n[[".toList ++ name.toList ++ "]]\n".toList ++ fields.lines

/-- The lines of a part that begin with a header. -/
def Part.headedLines (name : String) : Part → List Char
  | number _ => []
  | table fields => tableLines name fields
  | tables elements => elements.flatMap (elementLines name)

/-- The document of a record. -/
def Record.lines (r : Record) : List Char :=
  (r.flatMap fun e => e.2.valueLines e.1) ++ r.flatMap fun e => e.2.headedLines e.1

/-- The document of a record, if all its numbers can be written. -/
def Record.write (r : Record) : Except WriteFault String :=
  if r.numbers.all (· < integerBound) then .ok (String.ofList r.lines) else .error .outOfRange

example : (Record.write [("b", .tables []), ("a", .number (some 7)),
    ("t", .table [("x", some 1), ("y", none)])]).toOption =
      some "b = []\na = 7\n\n[t]\nx = 1\n" := by
  decide +kernel

end Newsroom.Toml
