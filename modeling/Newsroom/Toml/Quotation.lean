import Newsroom.Toml.Blank

/-!
# Strings of a document

Strings are written between double quotes, where a backslash begins an escape,
or between single quotes, where it does not.  Three quotes enclose a string of
several lines.

## Main Definitions

* `Toml.Escape` — how far the escape being read has come
* `Toml.basic?`, `Toml.literal?` — a string of one line
* `Toml.multiline?` — a string of several lines
* `Toml.quotation?` — a string of any of the four forms

## Design Notes

Each reader is given the text behind the opening quotes and returns the
characters of the string with the text behind the closing quotes.  It looks at
one character at a time and keeps in a state what it needs to remember.
-/

namespace Newsroom.Toml

/-- A character with a special meaning in an escape. -/
def escapeLetter? : Char → Option Char
  | 'b' => some '\x08'
  | 't' => some '\t'
  | 'n' => some '\n'
  | 'f' => some '\x0c'
  | 'r' => some '\r'
  | '"' => some '"'
  | '\\' => some '\\'
  | _ => none

/-- The value of a hexadecimal digit. -/
def hexDigit? (c : Char) : Option Nat :=
  if '0' ≤ c ∧ c ≤ '9' then some (c.toNat - '0'.toNat)
  else if 'a' ≤ c ∧ c ≤ 'f' then some (c.toNat - 'a'.toNat + 10)
  else if 'A' ≤ c ∧ c ≤ 'F' then some (c.toNat - 'A'.toNat + 10)
  else none

/-- The character with a number. -/
def charOf? (n : Nat) : Option Char :=
  if n.isValidChar then some (Char.ofNat n) else none

/-- How far an escape has been read. -/
inductive Escape where
  /-- Behind the backslash. -/
  | letter
  /-- Before `digits + 1` more digits of the number of a character. -/
  | number (digits value : Nat)
  deriving DecidableEq, Repr

/-- What a character does to an escape. -/
inductive EscapeStep where
  | finished (c : Char)
  | continues (e : Escape)
  | invalid

/-- An escape read one character further. -/
def Escape.step : Escape → Char → EscapeStep
  | letter, c =>
      if c = 'u' then .continues (.number 3 0)
      else if c = 'U' then .continues (.number 7 0)
      else
        match escapeLetter? c with
        | some d => .finished d
        | none => .invalid
  | number digits value, c =>
      match hexDigit? c with
      | none => .invalid
      | some d =>
          match digits with
          | n + 1 => .continues (.number n (value * 16 + d))
          | 0 =>
              match charOf? (value * 16 + d) with
              | some e => .finished e
              | none => .invalid

/-- Characters of a string with the text behind it. -/
abbrev Quoted := Option (List Char × List Char)

/-- Another character in front. -/
def Quoted.cons (c : Char) (q : Quoted) : Quoted :=
  q.map fun r => (c :: r.1, r.2)

/-! ### One line -/

/-- A string between double quotes, from within an escape or not. -/
def basic? : Option Escape → List Char → Quoted
  | _, [] => none
  | none, c :: cs =>
      if c = '"' then some ([], cs)
      else if c = '\\' then basic? (some .letter) cs
      else if isText c then (basic? none cs).cons c
      else none
  | some e, c :: cs =>
      match e.step c with
      | .finished d => (basic? none cs).cons d
      | .continues e => basic? (some e) cs
      | .invalid => none

/-- A string between single quotes. -/
def literal? : List Char → Quoted
  | [] => none
  | c :: cs =>
      if c = '\x27' then some ([], cs)
      else if isText c then (literal? cs).cons c
      else none

/-! ### Several lines -/

/-- What a reader of several lines remembers. -/
inductive Multiline where
  | plain
  /-- After one or two quotes that may be the first of three. -/
  | quotes (n : Nat)
  /-- After three closing quotes and `n` more, which belong to the string. -/
  | closed (n : Nat)
  /-- After a carriage return that begins a line end. -/
  | newline
  | escape (e : Escape)
  /-- After a backslash and space, before the line end that it hides. -/
  | hiding
  /-- After a backslash and a line end, where space and line ends are dropped. -/
  | hidden
  /-- After a carriage return among what is dropped. -/
  | hiddenNewline
  deriving DecidableEq, Repr

/-- Characters in front of a string. -/
def Quoted.prepend (ds : List Char) (q : Quoted) : Quoted :=
  q.map fun r => (ds ++ r.1, r.2)

/-- What a character means where a string of several lines is plain, and what
comes before it. -/
def Multiline.read (quote : Char) (escapes : Bool) (c : Char) : Option (List Char × Multiline) :=
  if c = quote then some ([], .quotes 1)
  else if escapes && c = '\\' then some ([], .escape .letter)
  else if c = '\n' then some (['\n'], .plain)
  else if c = '\r' then some ([], .newline)
  else if isText c then some ([c], .plain)
  else none

/-- A string of several lines, between quotes of one kind, with escapes or
not. -/
def multiline? (quote : Char) (escapes : Bool) : Multiline → List Char → Quoted
  | .closed n, [] => some (List.replicate n quote, [])
  | _, [] => none
  | .plain, c :: cs =>
      match Multiline.read quote escapes c with
      | some (ds, s) => (multiline? quote escapes s cs).prepend ds
      | none => none
  | .quotes n, c :: cs =>
      if c = quote then
        if n = 2 then multiline? quote escapes (.closed 0) cs
        else multiline? quote escapes (.quotes (n + 1)) cs
      else
        match Multiline.read quote escapes c with
        | some (ds, s) => (multiline? quote escapes s cs).prepend (List.replicate n quote ++ ds)
        | none => none
  | .closed n, c :: cs =>
      if c = quote ∧ n < 2 then multiline? quote escapes (.closed (n + 1)) cs
      else some (List.replicate n quote, c :: cs)
  | .newline, c :: cs =>
      if c = '\n' then (multiline? quote escapes .plain cs).cons '\n' else none
  | .escape e, c :: cs =>
      match e.step c with
      | .finished d => (multiline? quote escapes .plain cs).cons d
      | .continues e => multiline? quote escapes (.escape e) cs
      | .invalid =>
          if e = .letter then
            if isSpace c then multiline? quote escapes .hiding cs
            else if c = '\n' then multiline? quote escapes .hidden cs
            else if c = '\r' then multiline? quote escapes .hiddenNewline cs
            else none
          else none
  | .hiding, c :: cs =>
      if isSpace c then multiline? quote escapes .hiding cs
      else if c = '\n' then multiline? quote escapes .hidden cs
      else if c = '\r' then multiline? quote escapes .hiddenNewline cs
      else none
  | .hiddenNewline, c :: cs =>
      if c = '\n' then multiline? quote escapes .hidden cs else none
  | .hidden, c :: cs =>
      if isSpace c || c = '\n' then multiline? quote escapes .hidden cs
      else if c = '\r' then multiline? quote escapes .hiddenNewline cs
      else
        match Multiline.read quote escapes c with
        | some (ds, s) => (multiline? quote escapes s cs).prepend ds
        | none => none

/-- A text without the line end that may follow three opening quotes. -/
def dropFirstLineEnd : List Char → List Char
  | '\n' :: cs => cs
  | '\r' :: '\n' :: cs => cs
  | cs => cs

/-- A string of any form. -/
def quotation? : List Char → Quoted
  | '"' :: '"' :: '"' :: cs => multiline? '"' true .plain (dropFirstLineEnd cs)
  | '"' :: cs => basic? none cs
  | '\x27' :: '\x27' :: '\x27' :: cs => multiline? '\x27' false .plain (dropFirstLineEnd cs)
  | '\x27' :: cs => literal? cs
  | _ => none

example : quotation? "\"a\\u00e9\" x".toList = some ("aé".toList, " x".toList) := by
  decide +kernel
example : quotation? "\"\"\"\na\"\"\"\"\"".toList = some ("a\"\"".toList, []) := by
  decide +kernel
example : quotation? "\"\"\"a \\  \n  b\"\"\"".toList = some ("a b".toList, []) := by
  decide +kernel

end Newsroom.Toml
