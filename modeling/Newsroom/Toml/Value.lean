import Newsroom.Decimal.Binary64

/-!
# Values of a document

What can stand behind a key.

## Main Definitions

* `Toml.Value` — scalars, arrays and inline tables
* `Toml.Entries` — keys with what belongs to them, in order of appearance
* `Toml.insertInline?` — another entry of an inline table

## Design Notes

Moments in time are recognised but not computed with, so a value only records
that one stood there.  A key of several segments creates the tables on its way;
these may be extended by later keys, which `extensible` records, whereas a table
that was written out is complete.
-/

namespace Newsroom.Toml

/-- Keys with what belongs to them, in order of appearance. -/
abbrev Entries (β : Type) := List (String × β)

namespace Entries

variable {β : Type}

/-- What belongs to a key. -/
def find? (k : String) : Entries β → Option β
  | [] => none
  | e :: es => if e.1 = k then some e.2 else find? k es

/-- The entries with something else for a key that they have. -/
def put (k : String) (b : β) : Entries β → Entries β
  | [] => []
  | e :: es => if e.1 = k then (k, b) :: es else e :: put k b es

/-- The entries without a key. -/
def erase (k : String) : Entries β → Entries β
  | [] => []
  | e :: es => if e.1 = k then es else e :: erase k es

end Entries

/-- A value. -/
inductive Value where
  | string (s : String)
  | integer (n : Int)
  | float (x : Binary64)
  | boolean (b : Bool)
  | dateTime
  | array (items : List Value)
  | table (extensible : Bool) (entries : List (String × Value))

/-- A key with all its segments: those of the tables it leads through, and the
last one. -/
structure Key where
  path : List String
  last : String
  deriving DecidableEq, Repr, Inhabited

/-- The entries of an inline table with a value for another key.  No key may be
given twice, and a key may lead through extensible tables only. -/
def insertInline? (last : String) (v : Value) : List String → Entries Value → Option (Entries Value)
  | [], es =>
      match es.find? last with
      | some _ => none
      | none => some (es ++ [(last, v)])
  | k :: ks, es =>
      match es.find? k with
      | none => (insertInline? last v ks []).map fun sub => es ++ [(k, .table true sub)]
      | some (.table true sub) =>
          (insertInline? last v ks sub).map fun s => es.put k (.table true s)
      | some _ => none

end Newsroom.Toml
