import Newsroom.Proofs.Classification

/-!
# The text of an article tells the article

The text of an article is written from its producer, its category and its number, and all three
can be read off it again.

## Main Statements

* `cutAtLast?_line`, `cutAtLast?_stem` — the text cut at its last space, and once more
* `stem_inj`, `line_inj` — different articles have different texts, and different kinds of article
  have different stems
* `line_unambiguous` — an article is filed under its category, shows no other tag, and is told by
  its text

## Design Notes

Neither a numeral nor a tag has a space, so that the last two spaces of a text are those before
the number and before the tag.  Reading from the right avoids any look at the word in front.
-/

namespace Newsroom

theorem Category.tag_inj {c d : Category} : c.tag.toList = d.tag.toList ↔ c = d := by
  cases c <;> cases d <;> decide

namespace Article

variable {id id' : UInt32} {c c' : Category} {seq seq' : Nat}

/-! ### Spaces -/

theorem space_not_mem_decimal (n : Nat) : ' ' ∉ Text.decimal n := by
  intro hmem
  have hdigit := List.all_eq_true.1 (Text.all_isDigit_decimal n) ' ' hmem
  cases hdigit

theorem space_not_mem_tag (c : Category) : ' ' ∉ c.tag.toList := by
  cases c <;> decide

/-- The last space of an article's text stands before its number. -/
theorem cutAtLast?_line (id : UInt32) (c : Category) (seq : Nat) :
    Text.cutAtLast? ' ' (line id c seq).toList = some (stem id c, Text.decimal seq) :=
  Text.cutAtLast?_eq_some_iff.2 ⟨space_not_mem_decimal seq, toList_line id c seq⟩

/-- The last space of its stem stands before the tag. -/
theorem cutAtLast?_stem (id : UInt32) (c : Category) :
    Text.cutAtLast? ' ' (stem id c) =
      some ("producer ".toList ++ Text.decimal id.toNat, c.tag.toList) :=
  Text.cutAtLast?_eq_some_iff.2 ⟨space_not_mem_tag c, rfl⟩

/-! ### Parts -/

/-- Articles agree before their number exactly if they are of one kind. -/
theorem stem_inj : stem id c = stem id' c' ↔ id = id' ∧ c = c' := by
  constructor
  · intro h
    have hcut := cutAtLast?_stem id c
    rw [h, cutAtLast?_stem, Option.some.injEq, Prod.mk.injEq, List.append_cancel_left_eq,
      Text.decimal_inj, UInt32.toNat_inj, Category.tag_inj] at hcut
    exact ⟨hcut.1.symm, hcut.2.symm⟩
  · rintro ⟨rfl, rfl⟩
    rfl

/-- Articles have the same text exactly if they agree in all three parts. -/
theorem line_inj : line id c seq = line id' c' seq' ↔ id = id' ∧ c = c' ∧ seq = seq' := by
  constructor
  · intro h
    have hcut := cutAtLast?_line id c seq
    rw [h, cutAtLast?_line, Option.some.injEq, Prod.mk.injEq, stem_inj, Text.decimal_inj] at hcut
    exact ⟨hcut.1.1.symm, hcut.1.2.symm, hcut.2.symm⟩
  · rintro ⟨rfl, rfl, rfl⟩
    rfl

theorem tag_infix_line_iff (d : Category) :
    d.tag.toList <:+: (line id c seq).toList ↔ d = c := by
  rw [← Text.occursIn_iff, occursIn_tag_line, decide_eq_true_iff]

/-- An article is filed under its category and shows the tag of no other.  Its text tells its
producer, its category and its number, and what stands before the last space tells the first
two. -/
theorem line_unambiguous (id id' : UInt32) (c c' : Category) (seq seq' : Nat) :
    Category.classify (line id c seq) = some c ∧
      (∀ d : Category, d.tag.toList <:+: (line id c seq).toList ↔ d = c) ∧
      (line id c seq = line id' c' seq' ↔ id = id' ∧ c = c' ∧ seq = seq') ∧
      ∃ before before',
        Text.cutAtLast? ' ' (line id c seq).toList = some (before, Text.decimal seq) ∧
          Text.cutAtLast? ' ' (line id' c' seq').toList = some (before', Text.decimal seq') ∧
          (before = before' ↔ id = id' ∧ c = c') := by
  refine ⟨classify_text ⟨0, id, c, seq⟩, tag_infix_line_iff, line_inj, ?_⟩
  exact ⟨stem id c, stem id' c', cutAtLast?_line id c seq, cutAtLast?_line id' c' seq', stem_inj⟩

end Article

end Newsroom
