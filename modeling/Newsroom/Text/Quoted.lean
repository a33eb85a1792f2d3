import Newsroom.Text.Hidden

/-!
# Quoted text

A text between double quotes in which every character can be told apart.

## Main Definitions

* `escaped` — one character as it stands between the quotes
* `quoted` — a whole text, quotes included
-/

namespace Newsroom.Text

/-- The hexadecimal numeral of a code point between braces. -/
def codePoint (c : Char) : List Char :=
  ['\\', 'u', '\x7b'] ++ Nat.toDigits 16 c.toNat ++ ['\x7d']

/-- A character between quotes: quote and backslash follow a backslash, four
control characters have a letter, and hidden ones are shown by number. -/
def escaped (c : Char) : List Char :=
  if c = '"' then ['\\', '"']
  else if c = '\\' then ['\\', '\\']
  else if c = '\n' then ['\\', 'n']
  else if c = '\t' then ['\\', 't']
  else if c = '\r' then ['\\', 'r']
  else if c = '\x00' then ['\\', '0']
  else if isHidden c then codePoint c
  else [c]

/-- A text between double quotes. -/
def quoted (s : String) : String :=
  String.ofList ('"' :: s.toList.flatMap escaped ++ ['"'])

example : quoted "a\"b\n" = "\"a\\\"b\\n\"" := by decide +kernel
example : quoted "\u0301" = "\"\\u\x7b301\x7d\"" := by decide +kernel

end Newsroom.Text
