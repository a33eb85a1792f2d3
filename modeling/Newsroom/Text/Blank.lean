/-!
# Blank characters, words and lines

How a text falls into lines and words.  Everything here works on the list of
characters of a text, so that each function is a recursion on that list.

## Main Definitions

* `isBlank` — the characters with the Unicode property `White_Space`
* `trim` — a text without the blanks at its two ends
* `words` — the maximal runs of non-blank characters
* `lines` — the pieces between line ends, a line end being `\n` or `\r\n`
-/

namespace Newsroom.Text

/-- The twenty-five characters with the Unicode property `White_Space`. -/
def isBlank (c : Char) : Bool :=
  (0x9 ≤ c.toNat && c.toNat ≤ 0xD) || c.toNat == 0x20 || c.toNat == 0x85 || c.toNat == 0xA0 ||
  c.toNat == 0x1680 || (0x2000 ≤ c.toNat && c.toNat ≤ 0x200A) || c.toNat == 0x2028 ||
  c.toNat == 0x2029 || c.toNat == 0x202F || c.toNat == 0x205F || c.toNat == 0x3000

/-- A text without its leading blanks. -/
def trimStart (cs : List Char) : List Char :=
  cs.dropWhile isBlank

/-- A text without its trailing blanks. -/
def trimEnd : List Char → List Char
  | [] => []
  | c :: cs =>
      match trimEnd cs with
      | [] => if isBlank c then [] else [c]
      | d :: ds => c :: d :: ds

/-- A text without the blanks at its two ends. -/
def trim (cs : List Char) : List Char :=
  trimEnd (trimStart cs)

/-- The maximal runs of non-blank characters of a text. -/
def words : List Char → List (List Char)
  | [] => []
  | c :: cs =>
      if isBlank c then words cs
      else if (cs.head?.map isBlank).getD true then [c] :: words cs
      else
        match words cs with
        | [] => [[c]]
        | w :: ws => (c :: w) :: ws

/-- The lines of a text.  A line ends before `\n` or `\r\n`; what follows the
last line end is a line only if it is not empty. -/
def lines : List Char → List (List Char)
  | [] => []
  | '\n' :: cs => [] :: lines cs
  | '\r' :: '\n' :: cs => [] :: lines cs
  | c :: cs =>
      match lines cs with
      | [] => [[c]]
      | l :: ls => (c :: l) :: ls

example : words "  a\tbc ".toList = ["a".toList, "bc".toList] := by decide
example : lines "a\r\n\nb\r".toList = ["a".toList, [], "b\r".toList] := by decide
example : trim " a b\u00a0".toList = "a b".toList := by decide

end Newsroom.Text
