import Newsroom.Article

/-!
# The category of an article's text

The text of an article is filed under the category of the article, so that the
dispatcher drops none.

## Main Definitions

* `Category.marker` — a letter that only the tag of a category contains

## Main Statements

* `occursIn_tag_line` — of all tags, only that of its category occurs in an article
* `classify_text` — an article is filed under its own category

## Design Notes

A tag that occurs in a text brings its marker with it.  Numerals have no letters,
and the word before the number of a producer is in lower case.
-/

namespace Newsroom

/-- A letter of the tag of a category that no other tag contains. -/
def Category.marker : Category → Char
  | .sports => 'P'
  | .news => 'N'
  | .weather => 'H'

namespace Category

theorem marker_mem_tag (c : Category) : c.marker ∈ c.tag.toList := by
  cases c <;> decide

theorem eq_of_marker_mem_tag {c d : Category} (h : c.marker ∈ d.tag.toList) : c = d := by
  cases c <;> cases d <;> first | rfl | exact absurd h (by decide)

theorem isDigit_marker (c : Category) : c.marker.isDigit = false := by
  cases c <;> decide

theorem marker_not_mem_prefix (c : Category) : c.marker ∉ "producer ".toList := by
  cases c <;> decide

end Category

namespace Article

/-- The text of an article is its stem and its number. -/
theorem toList_line (id : UInt32) (c : Category) (seq : Nat) :
    (line id c seq).toList = stem id c ++ ' ' :: Text.decimal seq :=
  String.toList_ofList

theorem mem_stem {id : UInt32} {c : Category} {x : Char} (h : x ∈ stem id c) :
    x ∈ "producer ".toList ∨ x.isDigit = true ∨ x ∈ c.tag.toList := by
  rcases List.mem_append.1 h with hword | htag
  · rcases List.mem_append.1 hword with hprefix | hid
    · exact .inl hprefix
    · exact .inr (.inl (List.all_eq_true.1 (Text.all_isDigit_decimal _) x hid))
  · rcases List.mem_cons.1 htag with rfl | hx
    · exact .inl (by decide)
    · exact .inr (.inr hx)

/-- The characters of an article's text. -/
theorem mem_line {id : UInt32} {c : Category} {seq : Nat} {x : Char}
    (h : x ∈ (line id c seq).toList) :
    x ∈ "producer ".toList ∨ x.isDigit = true ∨ x ∈ c.tag.toList := by
  rw [toList_line] at h
  rcases List.mem_append.1 h with hstem | hseq
  · exact mem_stem hstem
  · rcases List.mem_cons.1 hseq with rfl | hx
    · exact .inl (by decide)
    · exact .inr (.inl (List.all_eq_true.1 (Text.all_isDigit_decimal _) x hx))

theorem tag_infix_line (id : UInt32) (c : Category) (seq : Nat) :
    c.tag.toList <:+: (line id c seq).toList := by
  have htag : c.tag.toList <:+ stem id c :=
    (List.suffix_cons ' ' _).trans (List.suffix_append _ _)
  have hstem : stem id c <+: (line id c seq).toList := by
    rw [toList_line]
    exact List.prefix_append _ _
  exact htag.isInfix.trans hstem.isInfix

/-- Only the tag of its category occurs in an article. -/
theorem occursIn_tag_line (d : Category) (id : UInt32) (c : Category) (seq : Nat) :
    Text.occursIn d.tag.toList (line id c seq).toList = decide (d = c) := by
  by_cases hdc : d = c
  · subst hdc
    simpa using Text.occursIn_iff.2 (tag_infix_line id d seq)
  -- another tag would bring a letter that nothing in the line contains
  · have hnot : ¬ d.tag.toList <:+: (line id c seq).toList := by
      intro hwithin
      rcases mem_line (hwithin.subset d.marker_mem_tag) with hprefix | hdigit | htag
      · exact d.marker_not_mem_prefix hprefix
      · rw [d.isDigit_marker] at hdigit
        cases hdigit
      · exact hdc (Category.eq_of_marker_mem_tag htag)
    simpa [hdc] using fun hoccurs => hnot (Text.occursIn_iff.1 hoccurs)

/-- An article is filed under its own category. -/
theorem classify_text (a : Article) : Category.classify a.text = some a.category := by
  simp only [Category.classify, Category.all, text, occursIn_tag_line, List.find?_cons]
  cases a.category <;> rfl

end Article

end Newsroom
