import Newsroom.Toml.DateTime
import Newsroom.Toml.Number
import Newsroom.Toml.Quotation
import Newsroom.Toml.Value

/-!
# Statements of a document

A document is a sequence of statements: an assignment to a key, or a header that
says which table the assignments after it belong to.

## Main Definitions

* `Toml.scalar?` — a value that is a single word
* `Toml.value?` — any value
* `Toml.key?` — a key of one or more segments
* `Toml.Statement` — the statements
* `Toml.statements?` — those of a whole document

## Design Notes

A reader returns what it has read with the text behind it.  Values are nested at
most `maxNesting` deep; a reader of nested values recurses on the depth that is
left.  Loops recurse on a budget that is greater than the length of the text,
each round consuming at least one character.
-/

namespace Newsroom.Toml

/-- The number of segments that is too many for a key. -/
def keyLimit : Nat := 80

/-- How deep arrays and inline tables may be nested. -/
def maxNesting : Nat := 79

/-! ### Scalars -/

/-- The characters of words: numbers, moments in time and truth values. -/
def isWordChar (c : Char) : Bool :=
  c.isAlphanum || c = '_' || c = '-' || c = '+' || c = '.' || c = ':'

/-- A number as a value. -/
def number? (w : List Char) : Option Value :=
  match float? w with
  | some x => some (.float x)
  | none => (integer? w).map .integer

/-- The value of a word. -/
def scalar? (w : List Char) : Option Value :=
  if w = "true".toList then some (.boolean true)
  else if w = "false".toList then some (.boolean false)
  else if isDate w || isTime w || isMoment w then some .dateTime
  else number? w

/-- The value of the word in front of a text.  A date may be followed by a space
and a time. -/
def word? (cs : List Char) : Option (Value × List Char) :=
  let w := cs.takeWhile isWordChar
  let rest := cs.dropWhile isWordChar
  let joined :=
    match rest with
    | ' ' :: r =>
        if isDate w && isTimeWithOffset (r.takeWhile isWordChar) then some (r.dropWhile isWordChar)
        else none
    | _ => none
  match joined with
  | some r => some (.dateTime, r)
  | none => (scalar? w).map fun v => (v, rest)

/-! ### Keys -/

/-- The characters of a key without quotes. -/
def isBareChar (c : Char) : Bool :=
  c.isAlphanum || c = '_' || c = '-'

/-- One segment of a key. -/
def segment? (cs : List Char) : Option (String × List Char) :=
  match cs with
  | '"' :: r => (basic? none r).map fun q => (String.ofList q.1, q.2)
  | '\x27' :: r => (literal? r).map fun q => (String.ofList q.1, q.2)
  | _ =>
      let w := cs.takeWhile isBareChar
      if w.isEmpty then none else some (String.ofList w, cs.dropWhile isBareChar)

/-- The segments of a key, joined by points, with space around each of them. -/
def segments? : Nat → List Char → Option (List String × List Char)
  | 0, _ => none
  | budget + 1, cs =>
      match segment? (skipSpace cs) with
      | none => none
      | some (s, r) =>
          match skipSpace r with
          | '.' :: r => (segments? budget r).map fun k => (s :: k.1, k.2)
          | r => some ([s], r)

/-- A key. -/
def key? (cs : List Char) : Option (Key × List Char) :=
  match segments? keyLimit cs with
  | none => none
  | some (ss, r) =>
      match ss.getLast? with
      | some last => if ss.length < keyLimit then some (⟨ss.dropLast, last⟩, r) else none
      | none => none

/-! ### Values -/

/-- The elements of an array from behind its opening bracket or a comma. -/
def elements? (item? : List Char → Option (Value × List Char)) :
    Nat → List Char → Option (List Value × List Char)
  | 0, _ => none
  | budget + 1, cs =>
      match skipLines false cs with
      | ']' :: r => some ([], r)
      | cs =>
          match item? cs with
          | none => none
          | some (v, r) =>
              match skipLines false r with
              | ',' :: r => (elements? item? budget r).map fun vs => (v :: vs.1, vs.2)
              | ']' :: r => some ([v], r)
              | _ => none

/-- A key and its value, with space around the value. -/
def assignment? (item? : List Char → Option (Value × List Char)) (cs : List Char) :
    Option ((Key × Value) × List Char) :=
  match key? cs with
  | some (k, '=' :: r) =>
      match item? (skipSpace r) with
      | some (v, r) => some ((k, v), r)
      | none => none
  | _ => none

/-- The assignments of an inline table, with the entries found before. -/
def inlineEntries? (item? : List Char → Option (Value × List Char)) :
    Nat → Entries Value → List Char → Option (Entries Value × List Char)
  | 0, _, _ => none
  | budget + 1, es, cs =>
      match assignment? item? cs with
      | none => none
      | some ((k, v), r) =>
          match insertInline? k.last v k.path es, skipSpace r with
          | some es, ',' :: r => inlineEntries? item? budget es r
          | some es, '}' :: r => some (es, r)
          | _, _ => none

/-- An inline table from behind its opening brace. -/
def inlineTable? (item? : List Char → Option (Value × List Char)) (cs : List Char) :
    Option (Value × List Char) :=
  match skipSpace cs with
  | '}' :: r => some (.table false [], r)
  | _ => (inlineEntries? item? (cs.length + 1) [] cs).map fun es => (.table false es.1, es.2)

/-- A value in which arrays and inline tables are nested at most `depth` deep. -/
def value? (depth : Nat) (cs : List Char) : Option (Value × List Char) :=
  match cs with
  | '[' :: r =>
      match depth with
      | 0 => none
      | d + 1 => (elements? (value? d) (r.length + 1) r).map fun vs => (.array vs.1, vs.2)
  | '{' :: r =>
      match depth with
      | 0 => none
      | d + 1 => inlineTable? (value? d) r
  | '"' :: _ => (quotation? cs).map fun q => (.string (String.ofList q.1), q.2)
  | '\x27' :: _ => (quotation? cs).map fun q => (.string (String.ofList q.1), q.2)
  | _ => word? cs

/-! ### Statements -/

/-- A statement. -/
inductive Statement where
  | assign (key : Key) (value : Value)
  /-- What follows belongs to a table. -/
  | table (key : Key)
  /-- What follows belongs to a new element of an array of tables. -/
  | element (key : Key)

/-- The statement in front of a text, with the text behind it. -/
def statement? (cs : List Char) : Option (Statement × List Char) :=
  match cs with
  | '[' :: '[' :: r =>
      match key? r with
      | some (k, ']' :: ']' :: r) => some (.element k, r)
      | _ => none
  | '[' :: r =>
      match key? r with
      | some (k, ']' :: r) => some (.table k, r)
      | _ => none
  | _ => (assignment? (value? maxNesting) cs).map fun a => (.assign a.1.1 a.1.2, a.2)

/-- The statements of a text, each with the end of its line. -/
def statementsFrom? : Nat → List Char → Option (List Statement)
  | 0, _ => none
  | budget + 1, cs =>
      match skipLines false cs with
      | [] => some []
      | cs =>
          match statement? cs with
          | none => none
          | some (s, r) =>
              match endLine? r with
              | none => none
              | some r => (statementsFrom? budget r).map (s :: ·)

/-- A text without the byte order mark that it may begin with. -/
def dropMark : List Char → List Char
  | '\ufeff' :: cs => cs
  | cs => cs

/-- The statements of a document. -/
def statements? (text : String) : Option (List Statement) :=
  let cs := dropMark text.toList
  statementsFrom? (cs.length + 1) cs

end Newsroom.Toml
