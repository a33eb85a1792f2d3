import Newsroom.Random.ChaCha
import Newsroom.Random.Source
import Newsroom.Word

/-!
# Drawing categories

A generator that is determined by its seed and draws one category after the
other.

## Main Definitions

* `Generator` — a place in the stream of a key
* `Generator.ofSeed` — the beginning of the stream of a seed
* `Generator.draw` — the next category

## Design Notes

A draw multiplies the next 64-bit word by the number of categories.  The high
word of the product is the result and is evenly distributed if the low word is
at most `drawZone`; otherwise the next word is tried.  The stream repeats after
`period` words, so a draw that has tried them all would never end.
-/

namespace Newsroom

/-- A place in the stream of a key. -/
structure Generator where
  key : ChaCha.Key
  /-- The counter of the next block. -/
  counter : UInt64
  /-- The words of the current block that have not been used. -/
  pending : List UInt32
  deriving DecidableEq, Repr, Inhabited

namespace Generator

/-! ### Seeds -/

/-- The next state of the generator that spreads a seed over a key. -/
def spread (s : UInt64) : UInt64 :=
  s * 6364136223846793005 + 11634580027462260723

/-- The word of the key that belongs to a state: its mixed high bits, rotated to
the right by its five highest ones. -/
def keyWord (s : UInt64) : UInt32 :=
  let x := (((s >>> 18) ^^^ s) >>> 27).toUInt32
  let n := (s >>> 59).toUInt32
  (x >>> n) ||| (x <<< ((32 - n) % 32))

/-- The key of a seed. -/
def keyOfSeed (seed : UInt64) : ChaCha.Key :=
  let s₀ := spread seed
  let s₁ := spread s₀
  let s₂ := spread s₁
  let s₃ := spread s₂
  let s₄ := spread s₃
  let s₅ := spread s₄
  let s₆ := spread s₅
  let s₇ := spread s₆
  ⟨keyWord s₀, keyWord s₁, keyWord s₂, keyWord s₃, keyWord s₄, keyWord s₅, keyWord s₆, keyWord s₇⟩

/-- The beginning of the stream of a seed. -/
def ofSeed (seed : UInt64) : Generator :=
  ⟨keyOfSeed seed, 0, []⟩

/-! ### Draws -/

/-- Two words as one, the low one first. -/
def joinWords (low high : UInt32) : UInt64 :=
  low.toUInt64 ||| (high.toUInt64 <<< 32)

/-- The next 64-bit word of the stream. -/
def next (g : Generator) : UInt64 × Generator :=
  match g.pending with
  | low :: high :: rest => (joinWords low high, { g with pending := rest })
  | _ =>
      match ChaCha.block g.key g.counter with
      | low :: high :: rest =>
          (joinWords low high, { g with counter := g.counter + 1, pending := rest })
      | _ => (0, g)

/-- The greatest low word of a product that gives an even distribution. -/
def drawZone : Nat := 0xBFFFFFFFFFFFFFFF

/-- The number of 64-bit words after which a stream repeats. -/
def period : Nat := Nat.pow 2 67

/-- The category that a word decides on, if it does. -/
def categoryOf? (w : UInt64) : Option Category :=
  let product := w.toNat * Category.count
  if product % Word.limit ≤ drawZone then Category.ofIndex? (product / Word.limit) else none

/-- The first category that one of the next words decides on. -/
def drawWithin : Nat → Generator → Category × Generator
  | 0, g => (.sports, g)
  | budget + 1, g =>
      let (w, g') := g.next
      match categoryOf? w with
      | some c => (c, g')
      | none => drawWithin budget g'

/-- The next category of a stream. -/
def draw (g : Generator) : Category × Generator :=
  drawWithin period g

@[default_instance]
instance : SeededSource Generator where
  draw := draw
  ofSeed := ofSeed

end Generator

end Newsroom
