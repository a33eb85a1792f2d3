import Newsroom.Category

/-!
# Sources of categories

What producers draw the categories of their articles from.

## Main Definitions

* `CategorySource` — what categories can be drawn from
* `SeededSource` — a source that is determined by a seed
* `draws`, `afterDraws` — the first categories of a source, and what is left of it
-/

namespace Newsroom

/-- What categories can be drawn from. -/
class CategorySource (ρ : Type) where
  draw : ρ → Category × ρ

/-- A source of categories for each seed. -/
class SeededSource (ρ : Type) extends CategorySource ρ where
  ofSeed : UInt64 → ρ

/-- The first `n` categories of a source. -/
def draws {ρ : Type} [CategorySource ρ] : Nat → ρ → List Category
  | 0, _ => []
  | n + 1, g => (CategorySource.draw g).1 :: draws n (CategorySource.draw g).2

/-- A source after `n` draws. -/
def afterDraws {ρ : Type} [CategorySource ρ] : Nat → ρ → ρ
  | 0, g => g
  | n + 1, g => afterDraws n (CategorySource.draw g).2

end Newsroom
