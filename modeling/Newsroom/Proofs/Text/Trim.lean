import Newsroom.Text.Blank

/-!
# Blanks around a text

What is left of a text without the blanks at its ends, and the words that it falls into.

## Main Definitions

* `AllBlank`, `Solid` — texts of blanks alone, and texts without blanks
* `Trimmed` — a text with no blank at either end

## Main Statements

* `trim_append_append` — blanks on either side of a trimmed text are taken away
* `exists_trim` — nothing else is
* `words_eq_pair_iff` — a trimmed text of two words
-/

namespace Newsroom.Text

variable {a b cs core v w : List Char}

/-- A text of blanks alone. -/
def AllBlank (cs : List Char) : Prop :=
  ∀ c ∈ cs, isBlank c = true

/-- A text without blanks, of at least one character. -/
structure Solid (cs : List Char) : Prop where
  ne_nil : cs ≠ []
  solid : ∀ c ∈ cs, isBlank c = false

/-- A text with no blank at either end. -/
structure Trimmed (cs : List Char) : Prop where
  head : ∀ c ∈ cs.head?, isBlank c = false
  last : ∀ c ∈ cs.getLast?, isBlank c = false

instance : Decidable (AllBlank cs) :=
  decidable_of_iff (cs.all isBlank = true) List.all_eq_true

instance : Decidable (Solid cs) :=
  decidable_of_iff (cs ≠ [] ∧ cs.all (!isBlank ·) = true)
    ⟨fun h => ⟨h.1, by simpa using h.2⟩, fun h => ⟨h.ne_nil, by simpa using h.solid⟩⟩

instance : Decidable (Trimmed cs) :=
  decidable_of_iff (cs.head?.all (!isBlank ·) = true ∧ cs.getLast?.all (!isBlank ·) = true)
    (by
      simp only [Option.all_eq_true, Bool.not_eq_true']
      exact ⟨fun h => ⟨h.1, h.2⟩, fun h => ⟨h.head, h.last⟩⟩)

theorem allBlank_nil : AllBlank [] := by
  simp [AllBlank]

theorem Solid.trimmed (h : Solid cs) : Trimmed cs where
  head c hc := h.solid c (List.mem_of_mem_head? hc)
  last c hc := h.solid c (List.mem_of_mem_getLast? hc)

/-- A text that is not empty is trimmed if two trimmed texts are its ends. -/
theorem Trimmed.append (ha : Trimmed a) (hb : Trimmed b) (hane : a ≠ []) (hbne : b ≠ [])
    (cs : List Char) : Trimmed (a ++ cs ++ b) where
  head c hc := by
    obtain ⟨x, rest, rfl⟩ := List.exists_cons_of_ne_nil hane
    exact ha.head c hc
  last c hc := by
    rw [List.getLast?_append, List.getLast?_eq_some_getLast hbne, Option.some_or,
      ← List.getLast?_eq_some_getLast hbne] at hc
    exact hb.last c hc

theorem Trimmed.eq_nil_of_blank_prefix (h : Trimmed (a ++ cs)) (ha : AllBlank a) : a = [] := by
  cases a with
  | nil => rfl
  | cons c a =>
      have hblank := ha c List.mem_cons_self
      rw [h.head c rfl] at hblank
      cases hblank

theorem Trimmed.eq_nil_of_blank_suffix (h : Trimmed (cs ++ b)) (hb : AllBlank b) : b = [] := by
  cases hlast : b.getLast? with
  | none => exact List.getLast?_eq_none_iff.1 hlast
  | some c =>
      have hblank := hb c (List.mem_of_getLast? hlast)
      rw [h.last c (by simp [hlast])] at hblank
      cases hblank

/-- Every text begins with all its first blanks. -/
theorem exists_blank_append (cs : List Char) :
    ∃ a, AllBlank a ∧ cs = a ++ trimStart cs ∧ ∀ c ∈ (trimStart cs).head?, isBlank c = false := by
  refine ⟨cs.takeWhile isBlank, List.all_eq_true.1 List.all_takeWhile,
    List.takeWhile_append_dropWhile.symm, fun c hc => ?_⟩
  have hnot := List.head?_dropWhile_not isBlank cs
  rw [show (cs.dropWhile isBlank).head? = some c from hc] at hnot
  simpa using hnot

/-! ### The end of a text -/

/-- The end of a text is trimmed as the beginning of the text read backwards. -/
theorem reverse_trimEnd (cs : List Char) : (trimEnd cs).reverse = cs.reverse.dropWhile isBlank := by
  induction cs with
  | nil => rfl
  | cons c cs ih =>
      rw [List.reverse_cons, List.dropWhile_append, ← ih]
      cases hrest : trimEnd cs with
      | nil =>
          by_cases hc : isBlank c <;> simp [trimEnd, hrest, hc]
      | cons d ds => simp [trimEnd, hrest]

theorem trimEnd_append (hb : AllBlank b) (cs : List Char) : trimEnd (cs ++ b) = trimEnd cs := by
  rw [← List.reverse_inj, reverse_trimEnd, reverse_trimEnd, List.reverse_append]
  exact List.dropWhile_append_of_pos fun c hc => hb c (List.mem_reverse.1 hc)

theorem trimEnd_eq_self (h : ∀ c ∈ cs.getLast?, isBlank c = false) : trimEnd cs = cs := by
  rw [← List.reverse_inj, reverse_trimEnd]
  rw [← List.head?_reverse] at h
  cases hcs : cs.reverse with
  | nil => rfl
  | cons c rest => exact List.dropWhile_cons_of_neg (by simp [h c (by simp [hcs])])

theorem exists_trimEnd (cs : List Char) : ∃ b, AllBlank b ∧ cs = trimEnd cs ++ b := by
  refine ⟨(cs.reverse.takeWhile isBlank).reverse, fun c hc => ?_, ?_⟩
  · exact List.all_eq_true.1 List.all_takeWhile c (List.mem_reverse.1 hc)
  · rw [← List.reverse_inj, List.reverse_append, List.reverse_reverse, reverse_trimEnd,
      List.takeWhile_append_dropWhile]

theorem last_trimEnd (cs : List Char) : ∀ c ∈ (trimEnd cs).getLast?, isBlank c = false := by
  intro c hc
  rw [← List.head?_reverse, reverse_trimEnd] at hc
  have hnot := List.head?_dropWhile_not isBlank cs.reverse
  rw [hc] at hnot
  simpa using hnot

/-! ### Both ends of a text -/

/-- Blanks on either side of a trimmed text are taken away. -/
theorem trim_append_append (h : Trimmed core) (ha : AllBlank a) (hb : AllBlank b) :
    trim (a ++ core ++ b) = core := by
  have hstart : ∀ cs, trimStart (a ++ cs) = trimStart cs :=
    fun cs => List.dropWhile_append_of_pos ha
  rw [trim, List.append_assoc, hstart]
  cases core with
  | nil =>
      have hnone : trimStart b = [] := by
        have hall : trimStart (b ++ []) = trimStart [] := List.dropWhile_append_of_pos hb
        rwa [List.append_nil] at hall
      rw [List.nil_append, hnone]
      rfl
  | cons c core =>
      have hc := h.head c rfl
      rw [trimStart, List.cons_append, List.dropWhile_cons_of_neg (by simp [hc]),
        ← List.cons_append, trimEnd_append hb, trimEnd_eq_self h.last]

/-- Only blanks are taken away, and all those at the ends. -/
theorem exists_trim (cs : List Char) :
    Trimmed (trim cs) ∧ ∃ a b, AllBlank a ∧ AllBlank b ∧ cs = a ++ trim cs ++ b := by
  obtain ⟨a, ha, hstart, hhead⟩ := exists_blank_append cs
  obtain ⟨b, hb, hrest⟩ := exists_trimEnd (trimStart cs)
  refine ⟨⟨fun c hc => hhead c ?_, last_trimEnd _⟩, a, b, ha, hb, ?_⟩
  · -- what is left begins as the text without its first blanks does
    rw [hrest, List.head?_append, show (trimEnd (trimStart cs)).head? = some c from hc]
    rfl
  · rw [List.append_assoc, trim, ← hrest, ← hstart]

theorem trimmed_trim (cs : List Char) : Trimmed (trim cs) :=
  (exists_trim cs).1

theorem trim_eq_self (h : Trimmed cs) : trim cs = cs := by
  simpa using trim_append_append h allBlank_nil allBlank_nil

/-- Blanks behind a text are trimmed with those that it ends with. -/
theorem trim_append (hb : AllBlank b) (cs : List Char) : trim (cs ++ b) = trim cs := by
  obtain ⟨h, a, b', ha, hb', hcs⟩ := exists_trim cs
  have hblank : AllBlank (b' ++ b) := by
    intro c hc
    exact (List.mem_append.1 hc).elim (hb' c) (hb c)
  have htrim := trim_append_append h ha hblank
  rwa [← List.append_assoc, ← hcs] at htrim

theorem trim_eq_nil_iff : trim cs = [] ↔ AllBlank cs := by
  constructor
  · intro h
    obtain ⟨-, a, b, ha, hb, hcs⟩ := exists_trim cs
    rw [h, List.append_nil] at hcs
    intro c hc
    rw [hcs] at hc
    exact (List.mem_append.1 hc).elim (ha c) (hb c)
  · intro h
    have htrim : trim (cs ++ [] ++ []) = [] :=
      trim_append_append ⟨by simp, by simp⟩ h allBlank_nil
    rwa [List.append_nil, List.append_nil] at htrim

/-! ### Words -/

theorem words_append_of_blank (ha : AllBlank a) (cs : List Char) : words (a ++ cs) = words cs := by
  induction a with
  | nil => rfl
  | cons c a ih =>
      have hc := ha c List.mem_cons_self
      rw [List.cons_append, words, if_pos hc, ih fun d hd => ha d (List.mem_cons_of_mem c hd)]

/-- The first word of a text, up to a blank or to the end. -/
theorem words_append_of_solid (hw : Solid w) (hrest : ∀ c ∈ cs.head?, isBlank c = true) :
    words (w ++ cs) = w :: words cs := by
  induction w with
  | nil => exact absurd rfl hw.ne_nil
  | cons c w ih =>
      have hc := hw.solid c List.mem_cons_self
      cases w with
      | nil =>
          have hend : (cs.head?.map isBlank).getD true = true := by
            cases hhead : cs.head? with
            | none => rfl
            | some d => exact hrest d hhead
          rw [List.cons_append, List.nil_append, words, if_neg (by simp [hc]), if_pos hend]
      | cons d w =>
          have hd := hw.solid d (by simp)
          have hmore := ih ⟨by simp, fun x hx => hw.solid x (List.mem_cons_of_mem c hx)⟩
          rw [List.cons_append, words, if_neg (by simp [hc]), if_neg (by simp [hd]), hmore]

/-- A text that begins with no blank begins with a word. -/
theorem exists_solid_append (h : ∀ c ∈ cs.head?, isBlank c = false) (hne : cs ≠ []) :
    ∃ w rest, Solid w ∧ cs = w ++ rest ∧ ∀ c ∈ rest.head?, isBlank c = true := by
  let solid : Char → Bool := fun c => !isBlank c
  obtain ⟨d, ds, rfl⟩ := List.exists_cons_of_ne_nil hne
  refine ⟨(d :: ds).takeWhile solid, (d :: ds).dropWhile solid, ⟨?_, fun c hc => ?_⟩,
    List.takeWhile_append_dropWhile.symm, fun c hc => ?_⟩
  · rw [List.takeWhile_cons_of_pos (by simp [solid, h d rfl])]
    exact List.cons_ne_nil _ _
  · have hall := List.all_eq_true.1 List.all_takeWhile c hc
    simpa [solid] using hall
  · have hnot := List.head?_dropWhile_not solid (d :: ds)
    rw [Option.mem_def.1 hc] at hnot
    simpa [solid] using hnot

/-- A text that has a word begins with blanks and this word, and its other words are those
of the rest. -/
theorem exists_of_words_eq_cons {ws : List (List Char)} (h : words cs = w :: ws) :
    ∃ a rest, AllBlank a ∧ Solid w ∧ cs = a ++ (w ++ rest) ∧ words rest = ws ∧
      ∀ c ∈ rest.head?, isBlank c = true := by
  obtain ⟨a, ha, hcs, hnot⟩ := exists_blank_append cs
  rw [hcs, words_append_of_blank ha] at h
  have hne : trimStart cs ≠ [] := by
    intro hnil
    rw [hnil] at h
    cases h
  obtain ⟨w', rest, hw', hrest, hhead⟩ := exists_solid_append hnot hne
  rw [hrest, words_append_of_solid hw' hhead] at h
  cases h
  exact ⟨a, rest, ha, hw', by rw [← hrest, ← hcs], rfl, hhead⟩

/-- Only a text of blanks has no words. -/
theorem allBlank_of_words_eq_nil (h : words cs = []) : AllBlank cs := by
  obtain ⟨a, ha, hcs, hnot⟩ := exists_blank_append cs
  rw [hcs, words_append_of_blank ha] at h
  by_cases hne : trimStart cs = []
  · rwa [hcs, hne, List.append_nil]
  · obtain ⟨w, rest, hw, hrest, hhead⟩ := exists_solid_append hnot hne
    rw [hrest, words_append_of_solid hw hhead] at h
    cases h

/-- A trimmed text of two words is these words with blanks in between. -/
theorem words_eq_pair_iff (h : Trimmed cs) :
    words cs = [v, w] ↔
      Solid v ∧ Solid w ∧ ∃ gap, gap ≠ [] ∧ AllBlank gap ∧ cs = v ++ gap ++ w := by
  constructor
  · intro hwords
    obtain ⟨a, rest, ha, hv, rfl, hrest, hhead⟩ := exists_of_words_eq_cons hwords
    obtain ⟨gap, b, hgap, hw, rfl, hnone, -⟩ := exists_of_words_eq_cons hrest
    -- the text has no blanks at its ends, so none stand before the first word or after the last
    obtain rfl := h.eq_nil_of_blank_prefix ha
    have hends : Trimmed (v ++ gap ++ w ++ b) := by simpa [List.append_assoc] using h
    obtain rfl := hends.eq_nil_of_blank_suffix (allBlank_of_words_eq_nil hnone)
    refine ⟨hv, hw, gap, ?_, hgap, by simp⟩
    rintro rfl
    obtain ⟨c, w', rfl⟩ := List.exists_cons_of_ne_nil hw.ne_nil
    have hblank := hhead c rfl
    rw [hw.solid c List.mem_cons_self] at hblank
    cases hblank
  · rintro ⟨hv, hw, gap, hne, hgap, rfl⟩
    have hhead : ∀ c ∈ (gap ++ w).head?, isBlank c = true := by
      obtain ⟨g, gap', rfl⟩ := List.exists_cons_of_ne_nil hne
      simpa using hgap g List.mem_cons_self
    have hsingle : words (w ++ []) = w :: words [] := words_append_of_solid hw (by simp)
    rw [List.append_nil] at hsingle
    rw [List.append_assoc, words_append_of_solid hv hhead, words_append_of_blank hgap, hsingle]
    rfl

end Newsroom.Text
