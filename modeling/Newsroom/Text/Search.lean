/-!
# Searching in a text

## Main Definitions

* `occursIn` — whether a text occurs somewhere inside another
* `afterFirst?` — what follows the first occurrence of a character
* `cutAtLast?` — what stands around the last occurrence of a character
-/

namespace Newsroom.Text

/-- Whether `needle` occurs somewhere in a text. -/
def occursIn (needle : List Char) : List Char → Bool
  | [] => needle.isEmpty
  | c :: cs => needle.isPrefixOf (c :: cs) || occursIn needle cs

/-- What follows the first occurrence of `mark`. -/
def afterFirst? (mark : Char) : List Char → Option (List Char)
  | [] => none
  | c :: cs => if c = mark then some cs else afterFirst? mark cs

/-- What stands before and after the last occurrence of `mark`. -/
def cutAtLast? (mark : Char) : List Char → Option (List Char × List Char)
  | [] => none
  | c :: cs =>
      match cutAtLast? mark cs with
      | some (before, after) => some (c :: before, after)
      | none => if c = mark then some ([], cs) else none

/-- A text occurs in another exactly if it is an infix of it. -/
theorem occursIn_iff {needle cs : List Char} : occursIn needle cs = true ↔ needle <:+: cs := by
  induction cs with
  | nil => simp [occursIn]
  | cons c cs ih =>
      simp only [occursIn, Bool.or_eq_true, ih, List.isPrefixOf_iff_prefix, List.infix_cons_iff]

/-- What follows the first occurrence of a character. -/
theorem afterFirst?_eq_some_iff {mark : Char} {cs after : List Char} :
    afterFirst? mark cs = some after ↔ ∃ before, mark ∉ before ∧ cs = before ++ mark :: after := by
  induction cs with
  | nil => simp [afterFirst?]
  | cons c cs ih =>
      rw [afterFirst?]
      split
      · next hc =>
        subst hc
        constructor
        · intro h
          cases h
          exact ⟨[], by simp, rfl⟩
        · rintro ⟨before, hbefore, heq⟩
          cases before with
          | nil => rw [(List.cons.inj heq).2]
          | cons d before =>
              rw [(List.cons.inj heq).1] at hbefore
              exact absurd List.mem_cons_self hbefore
      · next hc =>
        rw [ih]
        constructor
        · rintro ⟨before, hbefore, rfl⟩
          exact ⟨c :: before, by simpa using ⟨Ne.symm hc, hbefore⟩, rfl⟩
        · rintro ⟨before, hbefore, heq⟩
          cases before with
          | nil => exact absurd (List.cons.inj heq).1 hc
          | cons d before =>
              exact ⟨before, List.not_mem_of_not_mem_cons hbefore, (List.cons.inj heq).2⟩

/-- A text without the character cannot be cut at it. -/
theorem cutAtLast?_eq_none_iff {mark : Char} {cs : List Char} :
    cutAtLast? mark cs = none ↔ mark ∉ cs := by
  induction cs with
  | nil => simp [cutAtLast?]
  | cons c cs ih =>
      rw [cutAtLast?]
      split
      · next before after hcut =>
        have hmem : ¬ mark ∉ cs := fun hnot => by simp [ih.2 hnot] at hcut
        simpa using fun _ => Classical.not_not.1 hmem
      · next hcut =>
        have hnot := ih.1 hcut
        by_cases hc : c = mark <;> simp [hc, hnot, Ne.symm]

/-- What stands around the last occurrence of a character. -/
theorem cutAtLast?_eq_some_iff {mark : Char} {cs before after : List Char} :
    cutAtLast? mark cs = some (before, after) ↔ mark ∉ after ∧ cs = before ++ mark :: after := by
  induction cs generalizing before with
  | nil => simp [cutAtLast?]
  | cons c cs ih =>
      cases before with
      | nil =>
          rw [cutAtLast?]
          split
          · next b a hcut =>
            -- the character stands further right as well
            have hmem : mark ∈ cs := Classical.not_not.1 fun hnot => by
              simp [cutAtLast?_eq_none_iff.2 hnot] at hcut
            constructor
            · intro h
              cases h
            · rintro ⟨hafter, heq⟩
              rw [(List.cons.inj heq).2] at hmem
              exact absurd hmem hafter
          · next hcut =>
            have hnot := cutAtLast?_eq_none_iff.1 hcut
            by_cases hc : c = mark
            · subst hc
              rw [if_pos rfl]
              constructor
              · intro h
                cases h
                exact ⟨hnot, rfl⟩
              · rintro ⟨-, heq⟩
                rw [(List.cons.inj heq).2]
            · simp [hc]
      | cons d before =>
          rw [List.cons_append, List.cons.injEq, and_left_comm, ← ih, cutAtLast?]
          split
          · next b a hcut => simp [hcut, and_assoc]
          · next hcut => by_cases hc : c = mark <;> simp [hc, hcut]

example : occursIn "NEWS".toList "a NEWSPAPER".toList = true := by decide
example : afterFirst? '=' "a = b = c".toList = some " b = c".toList := by decide
example : cutAtLast? '.' "a.b.c".toList = some ("a.b".toList, "c".toList) := by decide

end Newsroom.Text
