/-!
# Space, comments and line ends of a document

## Main Definitions

* `Toml.skipSpace` — drops spaces and tabs
* `Toml.skipLines` — drops spaces, comments and line ends
* `Toml.endLine?` — the rest of a line that has nothing more to say
-/

namespace Newsroom.Toml

/-- Space within a line. -/
def isSpace (c : Char) : Bool :=
  c = ' ' || c = '\t'

/-- The characters that text may consist of: all but the control characters,
the tab excepted. -/
def isText (c : Char) : Bool :=
  c = '\t' || (0x20 ≤ c.toNat && c.toNat ≠ 0x7F)

/-- A text without its leading spaces and tabs. -/
def skipSpace (cs : List Char) : List Char :=
  cs.dropWhile isSpace

/-- A text without the spaces, comments and line ends in front, from within a
comment or not. -/
def skipLines (comment : Bool) : List Char → List Char
  | [] => []
  | '\n' :: cs => skipLines false cs
  | '\r' :: '\n' :: cs => skipLines false cs
  | c :: cs =>
      if comment then
        if isText c then skipLines true cs else c :: cs
      else if isSpace c then skipLines false cs
      else if c = '#' then skipLines true cs
      else c :: cs

/-- What follows a line end, or nothing at the end of the text. -/
def lineEnd? : List Char → Option (List Char)
  | [] => some []
  | '\n' :: cs => some cs
  | '\r' :: '\n' :: cs => some cs
  | _ => none

/-- What follows the line, if there is nothing before its end but space and a
comment. -/
def endLine? (cs : List Char) : Option (List Char) :=
  match skipSpace cs with
  | '#' :: r => lineEnd? (r.dropWhile isText)
  | r => lineEnd? r

end Newsroom.Toml
