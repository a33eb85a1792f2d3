import Newsroom.Pipeline.Report
import Newsroom.Proofs.ArticleText
import Newsroom.Proofs.Text.Numeral
import Newsroom.Proofs.Traffic

/-!
# The numbers of the lines

When lines are in sequence, and why the lines of articles are.

## Main Definitions

* `numbered?` — a line up to its last space, with the number behind it
* `numbersOf` — the numbers of the lines that agree before their last space

## Main Statements

* `inSequence_iff` — lines are in sequence if all of them are numbered and the numbers of those
  that agree are `0`, `1`, `2` and so on
* `inSequence_text` — the lines of articles are in sequence if the articles of each producer and
  category are its first ones, in order, and no two producers have one number
-/

namespace Newsroom

variable {due : Due} {lines : List String}

/-! ### Lines -/

/-- A line up to and without its last space, with the number behind it. -/
def numbered? (line : String) : Option (List Char × Nat) :=
  (Text.cutAtLast? ' ' line.toList).bind fun r => (Text.digits? r.2).map fun n => (r.1, n)

/-- The numbers that stand behind a stem, in order. -/
def numbersOf (stem : List Char) (es : List (List Char × Nat)) : List Nat :=
  (es.filter fun e => e.1 = stem).map Prod.snd

theorem numbersOf_cons (stem : List Char) (e : List Char × Nat) (es : List (List Char × Nat)) :
    numbersOf stem (e :: es) =
      if e.1 = stem then e.2 :: numbersOf stem es else numbersOf stem es := by
  unfold numbersOf
  split <;> simp [*]

theorem Due.find_advance (due : Due) (stem k : List Char) :
    (due.advance stem).find k = due.find k + if stem = k then 1 else 0 := by
  induction due with
  | nil => simp [advance, find]
  | cons e due ih =>
      rw [advance]
      by_cases hstem : e.1 = stem
      · rw [if_pos hstem, find, find, hstem]
        split <;> rfl
      · rw [if_neg hstem, find, find, ih]
        by_cases hk : e.1 = k
        · rw [if_pos hk, if_pos hk, if_neg fun h => hstem (hk.trans h.symm), Nat.add_zero]
        · rw [if_neg hk, if_neg hk]

/-- What makes a numbered line continue the sequences that are under way. -/
theorem inSequenceFrom_cons {line : String} {e : List Char × Nat} (h : numbered? line = some e) :
    inSequenceFrom due (line :: lines) = true ↔
      e.2 = due.find e.1 ∧ inSequenceFrom (due.advance e.1) lines = true := by
  obtain ⟨⟨stem, digits⟩, hcut, hdigits⟩ := Option.bind_eq_some_iff.1 h
  obtain ⟨n, hn, rfl⟩ := Option.map_eq_some_iff.1 hdigits
  simp [inSequenceFrom, hcut, hn]

theorem exists_numbered?_of_inSequenceFrom {line : String}
    (h : inSequenceFrom due (line :: lines) = true) : ∃ e, numbered? line = some e := by
  rw [inSequenceFrom] at h
  split at h
  · next stem digits hcut =>
    have hn := of_decide_eq_true (Bool.and_eq_true_iff.1 h).1
    exact ⟨(stem, due.find stem), by simp [numbered?, hcut, hn]⟩
  · cases h

/-- Lines continue the sequences that are under way if all of them are numbered and the numbers
of those that agree follow on what is due. -/
theorem inSequenceFrom_iff :
    inSequenceFrom due lines = true ↔
      ∃ es, lines.map numbered? = es.map some ∧
        ∀ stem, numbersOf stem es = List.range' (due.find stem) (numbersOf stem es).length := by
  induction lines generalizing due with
  | nil =>
      refine ⟨fun _ => ⟨[], rfl, fun stem => rfl⟩, fun _ => rfl⟩
  | cons line lines ih =>
      constructor
      · intro h
        obtain ⟨e, he⟩ := exists_numbered?_of_inSequenceFrom h
        obtain ⟨hnumber, hrest⟩ := (inSequenceFrom_cons he).1 h
        obtain ⟨es, hes, hnumbers⟩ := ih.1 hrest
        refine ⟨e :: es, by rw [List.map_cons, List.map_cons, he, hes], fun stem => ?_⟩
        have hstem := hnumbers stem
        rw [Due.find_advance] at hstem
        rw [numbersOf_cons]
        split
        · next heq =>
          rw [if_pos heq] at hstem
          rw [List.length_cons, List.range'_succ, ← hstem, hnumber, heq]
        · next hne =>
          rwa [if_neg hne] at hstem
      · rintro ⟨es, hes, hnumbers⟩
        cases es with
        | nil => cases hes
        | cons e es =>
            rw [List.map_cons, List.map_cons, List.cons.injEq] at hes
            obtain ⟨he, hes⟩ := hes
            have hown := hnumbers e.1
            rw [numbersOf_cons, if_pos rfl, List.length_cons, List.range'_succ,
              List.cons.injEq] at hown
            refine (inSequenceFrom_cons he).2 ⟨hown.1, ih.2 ⟨es, hes, fun stem => ?_⟩⟩
            rw [Due.find_advance]
            split
            · next heq =>
              subst heq
              exact hown.2
            · next hne =>
              have hstem := hnumbers stem
              rwa [numbersOf_cons, if_neg hne] at hstem

/-- Lines are in sequence if all of them are numbered and the numbers of those that agree before
their last space are `0`, `1`, `2` and so on. -/
theorem inSequence_iff :
    inSequence lines = true ↔
      ∃ es, lines.map numbered? = es.map some ∧
        ∀ stem, numbersOf stem es = List.range (numbersOf stem es).length := by
  simp only [inSequence, inSequenceFrom_iff, Due.find, List.range_eq_range']

/-! ### Articles -/

/-- The line of an article is numbered by its place among the articles of its kind. -/
theorem numbered?_text (a : Article) :
    numbered? a.text = some (Article.stem a.id a.category, a.seq) := by
  have hdigits : Text.digits? (Text.decimal a.seq) = some a.seq :=
    Text.digits?_eq_some_iff.2 ⟨0, rfl⟩
  simp [numbered?, Article.text, Article.cutAtLast?_line, hdigits]

/-- The lines of articles are in sequence if the articles of each producer and category are its
first ones, in order, and no two producers have one number. -/
theorem inSequence_text {as : List Article}
    (hkinds : ∀ i d, ∃ id n, as.filter (Article.isOf i d) = firstArticles i id d n)
    (hids : ∀ a ∈ as, ∀ b ∈ as, a.id = b.id → a.origin = b.origin) :
    inSequence (as.map Article.text) = true := by
  refine inSequence_iff.2
    ⟨as.map fun a => (Article.stem a.id a.category, a.seq), ?_, fun stem => ?_⟩
  · simp [numbered?_text]
  have hnumbers : numbersOf stem (as.map fun a => (Article.stem a.id a.category, a.seq)) =
      (as.filter fun a => Article.stem a.id a.category = stem).map Article.seq := by
    rw [numbersOf, List.filter_map, List.map_map]
    rfl
  rw [hnumbers]
  by_cases hnone : as.filter (fun a => Article.stem a.id a.category = stem) = []
  · rw [hnone]
    rfl
  -- some article has this stem, and those that have it are the articles of its kind
  obtain ⟨a, ha⟩ := List.exists_mem_of_ne_nil _ hnone
  obtain ⟨ha, hstem⟩ := List.mem_filter.1 ha
  obtain ⟨id, n, hkind⟩ := hkinds a.origin a.category
  have hid : ∀ b ∈ as, Article.isOf a.origin a.category b = true → b.id = id := by
    intro b hb hof
    have hmem := List.mem_filter.2 ⟨hb, hof⟩
    rw [hkind] at hmem
    obtain ⟨k, -, rfl⟩ := List.mem_map.1 hmem
    rfl
  have hsame : as.filter (fun b => Article.stem b.id b.category = stem) =
      as.filter (Article.isOf a.origin a.category) := by
    refine List.filter_congr fun b hb => ?_
    rw [Article.isOf, decide_eq_decide, ← of_decide_eq_true hstem, Article.stem_inj]
    refine and_congr_left fun hcategory => ⟨hids b hb a ha, fun horigin => ?_⟩
    rw [hid b hb (by simp [Article.isOf, horigin, hcategory]),
      hid a ha (by simp [Article.isOf])]
  have hnumbered : (firstArticles a.origin id a.category n).map Article.seq = List.range n := by
    rw [firstArticles, List.map_map]
    exact List.map_id _
  rw [hsame, hkind, hnumbered, List.length_range]

end Newsroom
