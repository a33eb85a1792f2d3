import Newsroom.Text.Search

/-!
# Categories

The three kinds of article, and values held once for each of them.

## Main Definitions

* `Category` — sports, news and weather, in routing order
* `Category.classify` — the category of a text: the first whose tag occurs in it
* `ByCategory` — one value for each category

## Design Notes

`ByCategory` is a structure with one field for each category and not a function
on categories, so that a state built from it is plain data.
-/

namespace Newsroom

/-- The kind of an article. -/
inductive Category where
  | sports
  | news
  | weather
  deriving DecidableEq, Repr, Inhabited

namespace Category

/-- All categories in routing order. -/
def all : List Category := [sports, news, weather]

/-- The number of categories. -/
def count : Nat := 3

/-- The place of a category in the routing order. -/
def index : Category → Nat
  | sports => 0
  | news => 1
  | weather => 2

/-- The category at a place of the routing order. -/
def ofIndex? : Nat → Option Category
  | 0 => some sports
  | 1 => some news
  | 2 => some weather
  | _ => none

/-- The name of a category, which also marks its articles. -/
def tag : Category → String
  | sports => "SPORTS"
  | news => "NEWS"
  | weather => "WEATHER"

/-- The category with a given tag. -/
def ofTag? (s : String) : Option Category :=
  all.find? fun c => c.tag == s

/-- The first category in routing order whose tag occurs in a text. -/
def classify (text : String) : Option Category :=
  all.find? fun c => Text.occursIn c.tag.toList text.toList

theorem mem_all (c : Category) : c ∈ all := by
  cases c <;> decide

theorem index_lt (c : Category) : c.index < count := by
  cases c <;> decide

end Category

/-- One value for each category. -/
structure ByCategory (β : Type) where
  /-- The value for sports. -/
  sports : β
  /-- The value for news. -/
  news : β
  /-- The value for weather. -/
  weather : β
  deriving DecidableEq, Repr, Inhabited

namespace ByCategory

variable {β γ : Type}

/-- The value for a category. -/
def get (t : ByCategory β) : Category → β
  | .sports => t.sports
  | .news => t.news
  | .weather => t.weather

/-- The same values with another one for a category. -/
def set (t : ByCategory β) (c : Category) (b : β) : ByCategory β :=
  match c with
  | .sports => { t with sports := b }
  | .news => { t with news := b }
  | .weather => { t with weather := b }

/-- The values of a function. -/
def ofFn (f : Category → β) : ByCategory β :=
  ⟨f .sports, f .news, f .weather⟩

/-- The same value for every category. -/
def const (b : β) : ByCategory β :=
  ⟨b, b, b⟩

/-- The values in routing order. -/
def toList (t : ByCategory β) : List β :=
  [t.sports, t.news, t.weather]

/-- A function applied to each value. -/
def map (f : β → γ) (t : ByCategory β) : ByCategory γ :=
  ⟨f t.sports, f t.news, f t.weather⟩

@[simp] theorem get_ofFn (f : Category → β) (c : Category) : (ofFn f).get c = f c := by
  cases c <;> rfl

@[simp] theorem get_const (b : β) (c : Category) : (const b).get c = b := by
  cases c <;> rfl

@[simp] theorem get_map (f : β → γ) (t : ByCategory β) (c : Category) :
    (t.map f).get c = f (t.get c) := by
  cases c <;> rfl

theorem get_set (t : ByCategory β) (c d : Category) (b : β) :
    (t.set c b).get d = if d = c then b else t.get d := by
  cases c <;> cases d <;> rfl

@[simp] theorem get_set_self (t : ByCategory β) (c : Category) (b : β) :
    (t.set c b).get c = b := by
  cases c <;> rfl

theorem get_set_of_ne (t : ByCategory β) {c d : Category} (h : d ≠ c) (b : β) :
    (t.set c b).get d = t.get d := by
  rw [get_set, if_neg h]

/-- Two tables with the same value for each category are equal. -/
theorem ext_get {s t : ByCategory β} (h : ∀ c, s.get c = t.get c) : s = t := by
  obtain ⟨a, b, c⟩ := s
  obtain ⟨a', b', c'⟩ := t
  have h₁ : a = a' := h .sports
  have h₂ : b = b' := h .news
  have h₃ : c = c' := h .weather
  rw [h₁, h₂, h₃]

end ByCategory

end Newsroom
