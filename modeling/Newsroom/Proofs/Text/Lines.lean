import Newsroom.Proofs.Text.Trim

/-!
# Lines of a text

What the lines of a text are when it was put together from lines.

## Main Definitions

* `LineEnd` — the two ways to end a line
* `unlines` — the text of lines with their ends
* `endLast` — a text whose last line is ended

## Main Statements

* `trim_lines_append` — a line with either end, up to the blanks around it
* `lines_unlines` — lines that are ended by `\r\n` are read back as they are
* `exists_lines_eq_append` — any lines can be written behind a text

## Design Notes

A carriage return before a line end belongs to the line end.  So a line that ends with one is
read back as it is only before `\r\n`; as a carriage return is a blank, this makes no
difference to the line without its blanks.
-/

namespace Newsroom.Text

variable {c : Char} {l cs rest : List Char} {ls : List (List Char)}

/-- The two ways to end a line. -/
inductive LineEnd where
  | lf
  | crlf
  deriving DecidableEq, Repr

/-- The characters of a line end. -/
def LineEnd.chars : LineEnd → List Char
  | lf => ['\n']
  | crlf => ['\r', '\n']

/-- The text of lines with their ends, the last of which may be left out. -/
def unlines (final : Bool) : List (List Char × LineEnd) → List Char
  | [] => []
  | (l, e) :: rows =>
      l ++ (if rows.isEmpty && !final then [] else e.chars) ++ unlines final rows

/-- A text whose last line is ended. -/
def endLast (cs : List Char) : List Char :=
  if cs.getLast?.all (· = '\n') then cs else cs ++ LineEnd.crlf.chars

/-! ### One line -/

/-- A character that ends no line goes before the first line of the rest. -/
theorem lines_cons (hc : c ≠ '\n') (hcr : c = '\r' → cs.head? ≠ some '\n') :
    lines (c :: cs) = match lines cs with
      | [] => [[c]]
      | l :: ls => (c :: l) :: ls := by
  rw [lines.eq_def]
  split
  · next h => cases h
  · next h =>
    cases h
    exact absurd rfl hc
  · next h =>
    cases h
    exact absurd rfl (hcr rfl)
  · next h =>
    cases h
    rfl

theorem lines_eq_nil_iff : lines cs = [] ↔ cs = [] := by
  constructor
  · intro h
    unfold lines at h
    split at h
    · rfl
    · cases h
    · cases h
    · split at h <;> cases h
  · rintro rfl
    rfl

/-- No line of a text has a line end in it. -/
theorem newline_not_mem_of_mem_lines (h : l ∈ lines cs) : '\n' ∉ l := by
  fun_induction lines cs generalizing l with
  | case1 => cases h
  | case2 cs ih =>
      rcases List.mem_cons.1 h with rfl | h
      · simp
      · exact ih h
  | case3 cs ih =>
      rcases List.mem_cons.1 h with rfl | h
      · simp
      · exact ih h
  | case4 c cs hc hcr hnil ih =>
      obtain rfl := List.mem_singleton.1 h
      simpa using Ne.symm hc
  | case5 c cs hc hcr l' ls hcs ih =>
      rw [hcs] at ih
      rcases List.mem_cons.1 h with rfl | h
      · simpa using ⟨Ne.symm hc, ih List.mem_cons_self⟩
      · exact ih (List.mem_cons_of_mem l' h)

/-- The character before the rest of a line is no beginning of a line end. -/
private theorem head?_append_ne (h : '\n' ∉ l) (hrest : rest.head? ≠ some '\n') :
    (l ++ rest).head? ≠ some '\n' := by
  cases l with
  | nil => exact hrest
  | cons d l => simpa using Ne.symm (List.ne_of_not_mem_cons h)

theorem lines_append_crlf (h : '\n' ∉ l) (rest : List Char) :
    lines (l ++ '\r' :: '\n' :: rest) = l :: lines rest := by
  induction l with
  | nil => rfl
  | cons c l ih =>
      rw [List.mem_cons, not_or] at h
      rw [List.cons_append, lines_cons (Ne.symm h.1) fun _ => head?_append_ne h.2 (by simp), ih h.2]

theorem lines_append_lf (h : '\n' ∉ l) (hcr : l.getLast? ≠ some '\r') (rest : List Char) :
    lines (l ++ '\n' :: rest) = l :: lines rest := by
  induction l with
  | nil => rfl
  | cons c l ih =>
      rw [List.mem_cons, not_or] at h
      cases l with
      | nil =>
          have hc : c ≠ '\r' := by
            rintro rfl
            exact hcr rfl
          rw [List.cons_append, lines_cons (Ne.symm h.1) fun heq => absurd heq hc]
          rfl
      | cons d l =>
          have hd : (d :: l ++ '\n' :: rest).head? ≠ some '\n' := by
            simpa using Ne.symm (List.ne_of_not_mem_cons h.2)
          rw [List.cons_append, lines_cons (Ne.symm h.1) fun _ => hd, ih h.2 hcr]

theorem lines_eq_singleton (h : '\n' ∉ l) (hne : l ≠ []) : lines l = [l] := by
  induction l with
  | nil => exact absurd rfl hne
  | cons c l ih =>
      rw [List.mem_cons, not_or] at h
      have hhead : (l ++ []).head? ≠ some '\n' := head?_append_ne h.2 (by simp)
      rw [List.append_nil] at hhead
      rw [lines_cons (Ne.symm h.1) fun _ => hhead]
      cases l with
      | nil => rfl
      | cons d l => rw [ih h.2 (List.cons_ne_nil d l)]

/-- A line with either end, up to the blanks around it. -/
theorem trim_lines_append (h : '\n' ∉ l) (e : LineEnd) (rest : List Char) :
    ∃ l', trim l' = trim l ∧ lines (l ++ e.chars ++ rest) = l' :: lines rest := by
  have hcrlf : ∀ l, '\n' ∉ l → lines (l ++ LineEnd.crlf.chars ++ rest) = l :: lines rest := by
    intro l hl
    rw [List.append_assoc]
    exact lines_append_crlf hl rest
  cases e with
  | crlf => exact ⟨l, rfl, hcrlf l h⟩
  | lf =>
      by_cases hcr : l.getLast? = some '\r'
      · -- the carriage return belongs to the line end, and is a blank
        obtain ⟨l', rfl⟩ := List.getLast?_eq_some_iff.1 hcr
        rw [List.mem_append, not_or] at h
        refine ⟨l', (trim_append (by decide) l').symm, ?_⟩
        have hline := hcrlf l' h.1
        simpa [LineEnd.chars] using hline
      · rw [List.append_assoc]
        exact ⟨l, rfl, lines_append_lf h hcr rest⟩

/-! ### All lines -/

/-- Lines that are ended by `\r\n` are read back as they are. -/
theorem lines_unlines (h : ∀ l ∈ ls, '\n' ∉ l) :
    lines (unlines true (ls.map fun l => (l, .crlf))) = ls := by
  induction ls with
  | nil => rfl
  | cons l ls ih =>
      obtain ⟨hl, hls⟩ := List.forall_mem_cons.1 h
      rw [List.map_cons, unlines, Bool.not_true, Bool.and_false, List.append_assoc]
      exact (lines_append_crlf hl _).trans (congrArg (l :: ·) (ih hls))

theorem prefix_endLast (cs : List Char) : cs <+: endLast cs := by
  unfold endLast
  split
  · exact List.prefix_rfl
  · exact List.prefix_append cs _

theorem endLast_cons (h : cs ≠ [] ∨ c = '\n') : endLast (c :: cs) = c :: endLast cs := by
  by_cases hcs : cs = []
  · subst hcs
    rw [h.resolve_left (fun hne => hne rfl)]
    rfl
  · simp only [endLast, List.getLast?_cons_of_ne_nil hcs]
    split <;> rfl

/-- What is written behind a text whose last line is ended adds its own lines. -/
theorem lines_endLast_append (cs rest : List Char) :
    lines (endLast cs ++ rest) = lines cs ++ lines rest := by
  fun_induction lines cs with
  | case1 => rfl
  | case2 cs ih =>
      rw [endLast_cons (.inr rfl), List.cons_append, lines, ih]
      rfl
  | case3 cs ih =>
      rw [endLast_cons (.inl (List.cons_ne_nil _ _)), endLast_cons (.inr rfl), List.cons_append,
        List.cons_append, lines, ih]
      rfl
  | case4 c cs hc hcr hnil ih =>
      obtain rfl := lines_eq_nil_iff.1 hnil
      have hend : endLast [c] = [c] ++ LineEnd.crlf.chars := by
        rw [endLast, if_neg]
        simpa using hc
      rw [hend]
      exact lines_append_crlf (l := [c]) (by simpa using Ne.symm hc) rest
  | case5 c cs hc hcr l ls hcs ih =>
      have hne : cs ≠ [] := by
        rintro rfl
        cases hcs
      have hhead : c = '\r' → (endLast cs ++ rest).head? ≠ some '\n' := by
        rintro rfl
        obtain ⟨d, ds, rfl⟩ := List.exists_cons_of_ne_nil hne
        obtain ⟨e, he⟩ := prefix_endLast (d :: ds)
        rw [← he]
        rintro hd
        cases hd
        exact hcr ds rfl rfl
      rw [endLast_cons (.inl hne), List.cons_append, lines_cons hc hhead, ih, hcs]
      rfl

/-- Any lines can be written behind a text. -/
theorem exists_lines_eq_append (cs : List Char) (h : ∀ l ∈ ls, '\n' ∉ l) :
    ∃ cs', cs <+: cs' ∧ lines cs' = lines cs ++ ls := by
  refine ⟨endLast cs ++ unlines true (ls.map fun l => (l, .crlf)), ?_, ?_⟩
  · exact (prefix_endLast cs).trans (List.prefix_append _ _)
  · rw [lines_endLast_append, lines_unlines h]

end Newsroom.Text
