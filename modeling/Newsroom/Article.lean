import Newsroom.Category
import Newsroom.Text.Numeral

/-!
# Articles

What a producer writes.  An article is told apart by its producer, its category
and its place among the producer's articles of that category.

## Main Definitions

* `Article` — an article with the producer that wrote it
* `Article.line` — its text, `producer <id> <category> <number>`
* `Payload` — what can stand for an article on its way to the screen

## Design Notes

The stages never look at more of an article than its text.  They are therefore
written for any `Payload`: plain strings, or articles that still know which
producer made them.
-/

namespace Newsroom

/-- An article.  Producers may share an `id`, so an article also keeps the place
of its producer, which its text does not show. -/
structure Article where
  /-- The place of the producer in the configuration. -/
  origin : Nat
  /-- The number the producer carries. -/
  id : UInt32
  /-- The category drawn for the article. -/
  category : Category
  /-- How many articles of this category the producer wrote before. -/
  seq : Nat
  deriving DecidableEq, Repr, Inhabited

namespace Article

/-- The text of an article up to and without its last space. -/
def stem (id : UInt32) (category : Category) : List Char :=
  "producer ".toList ++ Text.decimal id.toNat ++ ' ' :: category.tag.toList

/-- The text of an article. -/
def line (id : UInt32) (category : Category) (seq : Nat) : String :=
  String.ofList (stem id category ++ ' ' :: Text.decimal seq)

/-- The text of an article. -/
def text (a : Article) : String := line a.id a.category a.seq

example : line 3 .news 12 = "producer 3 NEWS 12" := by decide +kernel

end Article

/-- What can stand for an article on its way to the screen. -/
class Payload (α : Type) where
  /-- The line that is shown. -/
  text : α → String
  /-- An article on its way. -/
  ofArticle : Article → α
  /-- Articles are shown as their text. -/
  text_ofArticle : ∀ a, text (ofArticle a) = a.text

instance : Payload String where
  text s := s
  ofArticle a := a.text
  text_ofArticle _ := rfl

instance : Payload Article where
  text a := a.text
  ofArticle a := a
  text_ofArticle _ := rfl

end Newsroom
