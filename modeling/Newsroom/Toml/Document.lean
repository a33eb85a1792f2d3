import Newsroom.Toml.Statement

/-!
# Documents

The tables that the statements of a document describe.

## Main Definitions

* `Toml.Node` — a value, a table or an array of tables
* `Toml.alter?` — a change of the table that a path leads to
* `Toml.Draft` — a document that is being built, with its current table
* `Toml.Draft.assign?`, `Toml.Draft.close?`, `Toml.Draft.step?` — the steps
* `Toml.document?` — the tables of a text

## Design Notes

A table can be mentioned before it is written: on the way to another table by a
header, or by a key of several segments.  `TableKind` records which of these
happened, as it decides what may still be added.  A table is removed from the
document while it is the current one and put back behind all others when the
next header comes, which fixes the order of the entries.
-/

namespace Newsroom.Toml

/-- How a table came to be. -/
inductive TableKind where
  /-- It has a header, or is the document itself or an element of an array. -/
  | written
  /-- A header of another table leads through it. -/
  | implied
  /-- A key of several segments leads through it. -/
  | dotted
  deriving DecidableEq, Repr

/-- What a key of a document stands for. -/
inductive Node where
  | value (v : Value)
  | table (kind : TableKind) (entries : List (String × Node))
  /-- The elements of an array of tables, each with a header. -/
  | tables (elements : List (List (String × Node)))

/-- A table on the way of a path, if it did not exist. -/
def newKind (byKey : Bool) : TableKind :=
  if byKey then .dotted else .implied

/-- The entries of a table after a change of the table that a path leads to,
with what the change finds there.  A path leads through the last element of an
array of tables, and through no value; that of a key also through no table with
a header. -/
def alter? {α : Type} (byKey : Bool)
    (change? : TableKind → Entries Node → Option (α × Entries Node)) :
    List String → TableKind → Entries Node → Option (α × Entries Node)
  | [], kind, es => change? kind es
  | k :: ks, _, es =>
      match es.find? k with
      | none =>
          (alter? byKey change? ks (newKind byKey) []).map fun r =>
            (r.1, es ++ [(k, .table (newKind byKey) r.2)])
      | some (.value _) => none
      | some (.table kind sub) =>
          if byKey && kind = .written then none
          else
            (alter? byKey change? ks kind sub).map fun r => (r.1, es.put k (.table kind r.2))
      | some (.tables elements) =>
          match elements.getLast? with
          | none => none
          | some last =>
              (alter? byKey change? ks .written last).map fun r =>
                (r.1, es.put k (.tables (elements.dropLast ++ [r.2])))

/-! ### Single changes -/

/-- A value for a key that the table does not have.  A path of a key must end in
a table that such a key made, and only there. -/
def addValue? (path : List String) (last : String) (v : Value) (kind : TableKind)
    (es : Entries Node) : Option (Unit × Entries Node) :=
  if kind = .dotted ↔ path = [] then none
  else
    match es.find? last with
    | some _ => none
    | none => some ((), es ++ [(last, .value v)])

/-- The entries of a table that a header begins, which leave their place.  Only
a table that other headers led through may already exist. -/
def takeTable? (last : String) (_ : TableKind) (es : Entries Node) :
    Option (Entries Node × Entries Node) :=
  match es.find? last with
  | none => some ([], es)
  | some (.table .implied sub) => some (sub, es.erase last)
  | some _ => none

/-- A written table behind all other entries. -/
def addTable? (last : String) (sub : Entries Node) (_ : TableKind) (es : Entries Node) :
    Option (Unit × Entries Node) :=
  match es.find? last with
  | none => some ((), es ++ [(last, .table .written sub)])
  | some _ => none

/-- An element behind those of an array of tables, which may be new. -/
def addElement? (last : String) (sub : Entries Node) (_ : TableKind) (es : Entries Node) :
    Option (Unit × Entries Node) :=
  match es.find? last with
  | none => some ((), es ++ [(last, .tables [sub])])
  | some (.tables elements) => some ((), es.put last (.tables (elements ++ [sub])))
  | some _ => none

/-! ### Statements -/

/-- Where the current table belongs. -/
inductive Place where
  | root
  | table (key : Key)
  | element (key : Key)
  deriving DecidableEq, Repr

/-- A document that is being built: what has been finished, and the table that
assignments go to. -/
structure Draft where
  root : Entries Node
  current : Entries Node
  place : Place

namespace Draft

/-- The document before its first statement. -/
def empty : Draft := ⟨[], [], .root⟩

/-- An assignment to the current table. -/
def assign? (d : Draft) (k : Key) (v : Value) : Option Draft :=
  (alter? true (addValue? k.path k.last v) k.path .written d.current).map fun r =>
    { d with current := r.2 }

/-- The document with the current table in its place. -/
def close? (d : Draft) : Option (Entries Node) :=
  match d.place with
  | .root => some d.current
  | .table k => (alter? false (addTable? k.last d.current) k.path .written d.root).map Prod.snd
  | .element k => (alter? false (addElement? k.last d.current) k.path .written d.root).map Prod.snd

/-- The document at a statement. -/
def step? (d : Draft) : Statement → Option Draft
  | .assign k v => d.assign? k v
  | .table k =>
      d.close?.bind fun root =>
        (alter? false (takeTable? k.last) k.path .written root).map fun r => ⟨r.2, r.1, .table k⟩
  | .element k =>
      d.close?.bind fun root =>
        (alter? false (addElement? k.last []) k.path .written root).map
          fun _ => ⟨root, [], .element k⟩

/-- The document after statements. -/
def run? (d : Draft) : List Statement → Option Draft
  | [] => some d
  | s :: ss => (d.step? s).bind fun d => run? d ss

end Draft

/-- The tables of a text. -/
def document? (text : String) : Option (Entries Node) :=
  (statements? text).bind fun ss => (Draft.empty.run? ss).bind Draft.close?

end Newsroom.Toml
