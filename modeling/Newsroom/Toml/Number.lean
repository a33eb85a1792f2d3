import Newsroom.Decimal.Binary64

/-!
# Numbers of a document

## Main Definitions

* `Toml.separated?` — digits among which single underscores may stand
* `Toml.integer?` — an integer, in decimal or with the base in front
* `Toml.float?` — a number with a fraction, an exponent or a name

## Design Notes

A number is judged as a whole word.  Integers must be signed 64-bit words.  A
positive number too great for double precision is refused; a negative one is
infinite.
-/

namespace Newsroom.Toml

/-- The digits of a word in which an underscore may stand between two digits;
`after` tells whether a digit stands before the word. -/
def separatedFrom? (isDigit : Char → Bool) (after : Bool) : List Char → Option (List Char)
  | [] => if after then some [] else none
  | c :: cs =>
      if isDigit c then (separatedFrom? isDigit true cs).map (c :: ·)
      else if c = '_' && after then separatedFrom? isDigit false cs
      else none

/-- The digits of a word in which an underscore may stand between two digits. -/
def separated? (isDigit : Char → Bool) (cs : List Char) : Option (List Char) :=
  separatedFrom? isDigit false cs

/-- The sign in front of a word, and the word behind it. -/
def sign : List Char → Bool × List Char
  | '-' :: cs => (true, cs)
  | '+' :: cs => (false, cs)
  | cs => (false, cs)

/-- The digits of a decimal integer, which begin with a zero only if there is no
other. -/
def wholeDigits? (cs : List Char) : Option (List Char) :=
  match separated? Char.isDigit cs with
  | some ['0'] => some ['0']
  | some ('0' :: _) => none
  | r => r

/-! ### Integers -/

/-- The bound of a signed 64-bit word, `2 ^ 63`. -/
def integerBound : Nat := 0x8000000000000000

/-- A signed 64-bit word. -/
def signed? (negative : Bool) (n : Nat) : Option Int :=
  if negative then
    if n ≤ integerBound then some (-(n : Int)) else none
  else
    if n < integerBound then some (n : Int) else none

/-- A digit of a base up to sixteen. -/
def isBaseDigit (base : Nat) (c : Char) : Bool :=
  if c.isDigit then c.toNat - '0'.toNat < base
  else base = 16 && ('a' ≤ c && c ≤ 'f' || 'A' ≤ c && c ≤ 'F')

/-- The value of a digit of a base up to sixteen. -/
def baseDigit (c : Char) : Nat :=
  if c.isDigit then c.toNat - '0'.toNat
  else if 'a' ≤ c then c.toNat - 'a'.toNat + 10
  else c.toNat - 'A'.toNat + 10

/-- The digits of a base as a signed 64-bit word. -/
def based? (base : Nat) (cs : List Char) : Option Int :=
  (separated? (isBaseDigit base) cs).bind fun digits =>
    signed? false (digits.foldl (fun n c => n * base + baseDigit c) 0)

/-- An integer. -/
def integer? : List Char → Option Int
  | '0' :: 'x' :: cs => based? 16 cs
  | '0' :: 'o' :: cs => based? 8 cs
  | '0' :: 'b' :: cs => based? 2 cs
  | cs =>
      (wholeDigits? (sign cs).2).bind fun digits =>
        signed? (sign cs).1 (Nat.ofDigitChars 10 digits 0)

/-! ### Floating point -/

/-- The exponent of a number, from behind its mark. -/
def exponent? (cs : List Char) : Option Int :=
  (separated? Char.isDigit (sign cs).2).map fun digits =>
    let n := Nat.ofDigitChars 10 digits 0
    if (sign cs).1 then -(n : Int) else n

/-- A number with these digits before and behind its point. -/
def decimalFloat? (negative : Bool) (whole fraction : List Char) (exponent : Int) :
    Option Binary64 :=
  match Binary64.ofDecimal negative (Nat.ofDigitChars 10 (whole ++ fraction) 0)
      (exponent - fraction.length) with
  | .infinite false => none
  | x => some x

/-- Whether a character begins the exponent of a number. -/
def isExponentMark (c : Char) : Bool :=
  c = 'e' || c = 'E'

/-- A number in digits with a fraction, an exponent or both. -/
def digitFloat? (cs : List Char) : Option Binary64 :=
  let (negative, cs) := sign cs
  let whole := cs.takeWhile fun c => c != '.' && !isExponentMark c
  let rest := cs.drop whole.length
  (wholeDigits? whole).bind fun whole =>
    match rest with
    | '.' :: r =>
        let fraction := r.takeWhile fun c => !isExponentMark c
        (separated? Char.isDigit fraction).bind fun digits =>
          match r.drop fraction.length with
          | [] => decimalFloat? negative whole digits 0
          | _ :: e => (exponent? e).bind (decimalFloat? negative whole digits)
    | _ :: e => (exponent? e).bind (decimalFloat? negative whole [])
    | [] => none

/-- A number with a fraction, an exponent or a name. -/
def float? (cs : List Char) : Option Binary64 :=
  if (sign cs).2 = "inf".toList then some (.infinite (sign cs).1)
  else if (sign cs).2 = "nan".toList then some .nan
  else digitFloat? cs

example : integer? "-1_000".toList = some (-1000) := by decide
example : integer? "0xfF".toList = some 255 := by decide
example : integer? "01".toList = none := by decide
example : float? "1_0.5e-1".toList = some (Binary64.ofDecimal false 105 (-2)) := by decide +kernel
example : float? "1e400".toList = none := by decide +kernel

end Newsroom.Toml
