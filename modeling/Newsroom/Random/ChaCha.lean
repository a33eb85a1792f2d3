/-!
# ChaCha with eight rounds

A stream of words that is determined by a key of eight words.

## Main Definitions

* `ChaCha.Block` — sixteen words
* `ChaCha.doubleRound` — a column round and a diagonal round
* `ChaCha.block` — the words of the stream for one value of the counter

## Design Notes

The counter takes the words 12 and 13, the low word first.  The words 14 and 15
number the stream and are zero.
-/

namespace Newsroom.ChaCha

/-- Four words that a quarter round mixes. -/
structure Quarter where
  a : UInt32
  b : UInt32
  c : UInt32
  d : UInt32
  deriving DecidableEq, Repr

/-- A word rotated to the left. -/
def rotate (w : UInt32) (n : UInt32) : UInt32 :=
  (w <<< n) ||| (w >>> (32 - n))

/-- A quarter round. -/
def Quarter.mix (q : Quarter) : Quarter :=
  let a := q.a + q.b
  let d := rotate (q.d ^^^ a) 16
  let c := q.c + d
  let b := rotate (q.b ^^^ c) 12
  let a := a + b
  let d := rotate (d ^^^ a) 8
  let c := c + d
  let b := rotate (b ^^^ c) 7
  ⟨a, b, c, d⟩

/-- Sixteen words, as four columns. -/
structure Block where
  first : Quarter
  second : Quarter
  third : Quarter
  fourth : Quarter
  deriving DecidableEq, Repr

/-- A quarter round of each column. -/
def Block.columns (x : Block) : Block :=
  ⟨x.first.mix, x.second.mix, x.third.mix, x.fourth.mix⟩

/-- The columns that the diagonals of a block are. -/
def Block.toDiagonals (x : Block) : Block :=
  ⟨⟨x.first.a, x.second.b, x.third.c, x.fourth.d⟩,
   ⟨x.second.a, x.third.b, x.fourth.c, x.first.d⟩,
   ⟨x.third.a, x.fourth.b, x.first.c, x.second.d⟩,
   ⟨x.fourth.a, x.first.b, x.second.c, x.third.d⟩⟩

/-- The block that has given diagonals. -/
def Block.ofDiagonals (x : Block) : Block :=
  ⟨⟨x.first.a, x.fourth.b, x.third.c, x.second.d⟩,
   ⟨x.second.a, x.first.b, x.fourth.c, x.third.d⟩,
   ⟨x.third.a, x.second.b, x.first.c, x.fourth.d⟩,
   ⟨x.fourth.a, x.third.b, x.second.c, x.first.d⟩⟩

/-- A round of the columns and a round of the diagonals. -/
def doubleRound (x : Block) : Block :=
  x.columns.toDiagonals.columns.ofDiagonals

/-- The sums of the words of two blocks. -/
def Block.add (x y : Block) : Block :=
  let plus (p q : Quarter) : Quarter := ⟨p.a + q.a, p.b + q.b, p.c + q.c, p.d + q.d⟩
  ⟨plus x.first y.first, plus x.second y.second, plus x.third y.third, plus x.fourth y.fourth⟩

/-- The words in order, row after row. -/
def Block.words (x : Block) : List UInt32 :=
  [x.first.a, x.second.a, x.third.a, x.fourth.a,
   x.first.b, x.second.b, x.third.b, x.fourth.b,
   x.first.c, x.second.c, x.third.c, x.fourth.c,
   x.first.d, x.second.d, x.third.d, x.fourth.d]

/-- A key of eight words. -/
structure Key where
  k₀ : UInt32
  k₁ : UInt32
  k₂ : UInt32
  k₃ : UInt32
  k₄ : UInt32
  k₅ : UInt32
  k₆ : UInt32
  k₇ : UInt32
  deriving DecidableEq, Repr, Inhabited

/-- The block that is mixed for a value of the counter. -/
def initial (key : Key) (counter : UInt64) : Block :=
  ⟨⟨0x61707865, key.k₀, key.k₄, counter.toUInt32⟩,
   ⟨0x3320646e, key.k₁, key.k₅, (counter >>> 32).toUInt32⟩,
   ⟨0x79622d32, key.k₂, key.k₆, 0⟩,
   ⟨0x6b206574, key.k₃, key.k₇, 0⟩⟩

/-- The words of the stream for a value of the counter. -/
def block (key : Key) (counter : UInt64) : List UInt32 :=
  let x := initial key counter
  ((doubleRound (doubleRound (doubleRound (doubleRound x)))).add x).words

end Newsroom.ChaCha
