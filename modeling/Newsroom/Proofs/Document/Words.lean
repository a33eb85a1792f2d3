import Newsroom.Proofs.Text.Numeral
import Newsroom.Toml.Record

/-!
# Words and keys of a document

How the numerals and the bare keys that are written are read back, whatever text stands behind
them.

## Main Statements

* `integer?_decimal`, `float?_of_isDigit` — a numeral is an integer below the bound of signed
  words, and never a floating-point number
* `scalar?_decimal`, `value?_decimal` — as a value it is this integer
* `key?_of_bare` — a bare name is a key of one segment

## Implementation Notes

A reader stops at the first character that cannot belong to what it reads.  The lemmas ask of the
text behind a word or a key only that it begins with such a character.
-/

namespace Newsroom.Toml

open Text (decimal)

variable {n : Nat} {c : Char} {cs ds rest : List Char} {name : String}

/-! ### Digits -/

theorem isWordChar_of_isDigit (h : c.isDigit = true) : isWordChar c = true := by
  simp [isWordChar, Char.isAlphanum, h]

theorem not_isDigit_head (h : ∀ d ∈ c :: cs, d.isDigit = true) (hc : c.isDigit = false) : False :=
  absurd (h c List.mem_cons_self) (by simp [hc])

theorem sign_of_isDigit (h : ∀ d ∈ ds, d.isDigit = true) : sign ds = (false, ds) := by
  unfold sign
  split
  · exact (not_isDigit_head h rfl).elim
  · exact (not_isDigit_head h rfl).elim
  · rfl

theorem separatedFrom?_of_isDigit (h : ∀ d ∈ ds, d.isDigit = true) :
    separatedFrom? Char.isDigit true ds = some ds := by
  induction ds with
  | nil => rfl
  | cons d ds ih =>
      rw [separatedFrom?, if_pos (h d List.mem_cons_self),
        ih fun e he => h e (List.mem_cons_of_mem d he), Option.map_some]

theorem separated?_of_isDigit (hne : ds ≠ []) (h : ∀ d ∈ ds, d.isDigit = true) :
    separated? Char.isDigit ds = some ds := by
  cases ds with
  | nil => exact absurd rfl hne
  | cons d ds =>
      rw [separated?, separatedFrom?, if_pos (h d List.mem_cons_self),
        separatedFrom?_of_isDigit fun e he => h e (List.mem_cons_of_mem d he), Option.map_some]

/-! ### Numerals -/

theorem decimal_ne_nil (n : Nat) : decimal n ≠ [] := by
  simp [decimal]

theorem isDigit_of_mem_decimal {d : Char} (h : d ∈ decimal n) : d.isDigit = true :=
  List.all_eq_true.1 (Text.all_isDigit_decimal n) d h

theorem ofDigitChars_decimal (n : Nat) : Nat.ofDigitChars 10 (decimal n) 0 = n :=
  Nat.ofDigitChars_toDigits (by decide) (by decide)

/-- A shortest numeral begins with a zero only if there is no other digit. -/
theorem eq_nil_of_decimal_eq_zero_cons (h : decimal n = '0' :: ds) : ds = [] := by
  have hdigits : ∀ d ∈ ds, d.isDigit = true := fun d hd =>
    isDigit_of_mem_decimal (n := n) (h ▸ List.mem_cons_of_mem '0' hd)
  have hvalue : Nat.ofDigitChars 10 ds 0 = n := by
    rw [← ofDigitChars_decimal n, h, Nat.ofDigitChars_cons]
    rfl
  -- The digits behind the zero spell the same number, so they are no shorter.
  by_cases hne : ds = []
  · exact hne
  obtain ⟨k, hk⟩ := Text.exists_replicate_of_isDigit hne hdigits
  rw [hvalue, h] at hk
  have hlength := congrArg List.length hk
  rw [List.length_append, List.length_replicate, List.length_cons] at hlength
  omega

theorem wholeDigits?_decimal (n : Nat) : wholeDigits? (decimal n) = some (decimal n) := by
  have hdigits : separated? Char.isDigit (decimal n) = some (decimal n) :=
    separated?_of_isDigit (decimal_ne_nil n) fun d hd => isDigit_of_mem_decimal hd
  rw [wholeDigits?, hdigits]
  split
  · next h => exact h.symm
  · next ds hzero h =>
    have hnil : ds = [] := eq_nil_of_decimal_eq_zero_cons (Option.some.inj h)
    exact absurd (by rw [hnil]) hzero
  · rfl

theorem integer?_decimal (h : n < integerBound) : integer? (decimal n) = some (n : Int) := by
  have hdigits : ∀ d ∈ decimal n, d.isDigit = true := fun d hd => isDigit_of_mem_decimal hd
  -- No letter of a base stands behind the first digit.
  have hbase : ∀ x ds, decimal n = '0' :: x :: ds → x.isDigit = true := fun x ds heq =>
    hdigits x (heq ▸ List.mem_cons_of_mem '0' List.mem_cons_self)
  unfold integer?
  split
  · next heq => exact absurd (hbase _ _ heq) (by decide)
  · next heq => exact absurd (hbase _ _ heq) (by decide)
  · next heq => exact absurd (hbase _ _ heq) (by decide)
  · rw [sign_of_isDigit hdigits, wholeDigits?_decimal, Option.bind_some, ofDigitChars_decimal]
    exact if_pos h

theorem float?_of_isDigit (h : ∀ d ∈ ds, d.isDigit = true) : float? ds = none := by
  have hname : ∀ w : List Char, w.any (fun d => !d.isDigit) = true → ds ≠ w := by
    rintro w hw rfl
    obtain ⟨d, hd, hdigit⟩ := List.any_eq_true.1 hw
    simp [h d hd] at hdigit
  have hwhole : ∀ d ∈ ds, (d != '.' && !isExponentMark d) = true := by
    intro d hd
    have hdigit := h d hd
    have hpoint : d ≠ '.' := by rintro rfl; cases hdigit
    have hlower : d ≠ 'e' := by rintro rfl; cases hdigit
    have hupper : d ≠ 'E' := by rintro rfl; cases hdigit
    simp [isExponentMark, hpoint, hlower, hupper]
  have htake : ds.takeWhile (fun d => d != '.' && !isExponentMark d) = ds := by
    rw [← List.append_nil ds, List.takeWhile_append_of_pos hwhole, List.takeWhile_nil]
  rw [float?, sign_of_isDigit h, if_neg (hname _ rfl), if_neg (hname _ rfl), digitFloat?,
    sign_of_isDigit h]
  simp only [htake, List.drop_length]
  cases wholeDigits? ds <;> rfl

/-! ### Values -/

theorem isDate_of_isDigit (h : ∀ d ∈ ds, d.isDigit = true) : isDate ds = false := by
  unfold isDate
  split
  · exact absurd (h '-' (by simp)) (by decide)
  · rfl

theorem isTime_of_isDigit (h : ∀ d ∈ ds, d.isDigit = true) : isTime ds = false := by
  have hclock : afterClock? ds = none := by
    unfold afterClock?
    split
    · exact absurd (h ':' (by simp)) (by decide)
    · rfl
  simp [isTime, afterTime?, hclock]

theorem isMoment_of_isDigit (h : ∀ d ∈ ds, d.isDigit = true) : isMoment ds = false := by
  rw [isMoment, isDate_of_isDigit fun d hd => h d (List.mem_of_mem_take hd), Bool.false_and]

theorem scalar?_decimal (h : n < integerBound) : scalar? (decimal n) = some (.integer n) := by
  have hdigits : ∀ d ∈ decimal n, d.isDigit = true := fun d hd => isDigit_of_mem_decimal hd
  have htrue : decimal n ≠ "true".toList := fun heq =>
    absurd (hdigits 't' (by simp [heq])) (by decide)
  have hfalse : decimal n ≠ "false".toList := fun heq =>
    absurd (hdigits 'f' (by simp [heq])) (by decide)
  have hnumber : number? (decimal n) = some (.integer n) := by
    rw [number?, float?_of_isDigit hdigits, integer?_decimal h, Option.map_some]
  rw [scalar?, if_neg htrue, if_neg hfalse, isDate_of_isDigit hdigits, isTime_of_isDigit hdigits,
    isMoment_of_isDigit hdigits, if_neg (by decide), hnumber]

theorem word?_decimal (h : n < integerBound) :
    word? (decimal n ++ '\n' :: rest) = some (.integer n, '\n' :: rest) := by
  have hword : ∀ d ∈ decimal n, isWordChar d = true := fun d hd =>
    isWordChar_of_isDigit (isDigit_of_mem_decimal hd)
  have hend : ¬isWordChar '\n' = true := by decide
  have htake : (decimal n ++ '\n' :: rest).takeWhile isWordChar = decimal n := by
    rw [List.takeWhile_append_of_pos hword, List.takeWhile_cons_of_neg hend, List.append_nil]
  have hdrop : (decimal n ++ '\n' :: rest).dropWhile isWordChar = '\n' :: rest := by
    rw [List.dropWhile_append_of_pos hword, List.dropWhile_cons_of_neg hend]
  simp only [word?, htake, hdrop, scalar?_decimal h, Option.map_some]
  rfl

/-- A numeral at the end of a line is read as its number. -/
theorem value?_decimal (depth : Nat) (h : n < integerBound) :
    value? depth (decimal n ++ '\n' :: rest) = some (.integer n, '\n' :: rest) := by
  have hhead : ∀ d ds, decimal n ++ '\n' :: rest = d :: ds → d.isDigit = true := by
    intro d ds heq
    obtain ⟨e, es, hes⟩ := List.exists_cons_of_ne_nil (decimal_ne_nil n)
    rw [hes, List.cons_append, List.cons.injEq] at heq
    exact heq.1 ▸ isDigit_of_mem_decimal (n := n) (hes ▸ List.mem_cons_self)
  unfold value?
  split
  · next heq => exact absurd (hhead _ _ heq) (by decide)
  · next heq => exact absurd (hhead _ _ heq) (by decide)
  · next heq => exact absurd (hhead _ _ heq) (by decide)
  · next heq => exact absurd (hhead _ _ heq) (by decide)
  · exact word?_decimal h

/-! ### Keys -/

theorem Bare.head (h : Bare name) (heq : name.toList ++ rest = c :: cs) : isBareChar c = true := by
  obtain ⟨d, ds, hds⟩ := List.exists_cons_of_ne_nil h.1
  rw [hds, List.cons_append, List.cons.injEq] at heq
  exact heq.1 ▸ h.2 d (hds ▸ List.mem_cons_self)

theorem not_isSpace_of_isBareChar (h : isBareChar c = true) : isSpace c = false := by
  have hspace : c ≠ ' ' := by rintro rfl; exact absurd h (by decide)
  have htab : c ≠ '\t' := by rintro rfl; exact absurd h (by decide)
  simp [isSpace, hspace, htab]

theorem skipSpace_bare (h : Bare name) :
    skipSpace (name.toList ++ rest) = name.toList ++ rest := by
  obtain ⟨d, ds, hds⟩ := List.exists_cons_of_ne_nil h.1
  rw [hds, List.cons_append, skipSpace, List.dropWhile_cons_of_neg]
  simp [not_isSpace_of_isBareChar (h.2 d (hds ▸ List.mem_cons_self))]

theorem segment?_of_bare (h : Bare name) (hrest : isBareChar c = false) :
    segment? (name.toList ++ c :: rest) = some (name, c :: rest) := by
  have hend : ¬isBareChar c = true := by simp [hrest]
  have htake : (name.toList ++ c :: rest).takeWhile isBareChar = name.toList := by
    rw [List.takeWhile_append_of_pos h.2, List.takeWhile_cons_of_neg hend, List.append_nil]
  have hdrop : (name.toList ++ c :: rest).dropWhile isBareChar = c :: rest := by
    rw [List.dropWhile_append_of_pos h.2, List.dropWhile_cons_of_neg hend]
  unfold segment?
  split
  · next heq => exact absurd (h.head heq) (by decide)
  · next heq => exact absurd (h.head heq) (by decide)
  · simp only [htake, hdrop, List.isEmpty_iff, if_neg h.1, String.ofList_toList]

/-- A bare name is a key of one segment where neither more of it nor a point follows. -/
theorem key?_of_bare (h : Bare name) (hrest : isBareChar c = false)
    (hpoint : ∀ r, skipSpace (c :: rest) ≠ '.' :: r) :
    key? (name.toList ++ c :: rest) = some (⟨[], name⟩, skipSpace (c :: rest)) := by
  have hsegments : segments? keyLimit (name.toList ++ c :: rest) =
      some ([name], skipSpace (c :: rest)) := by
    rw [keyLimit, segments?, skipSpace_bare h, segment?_of_bare h hrest]
    dsimp only
    split
    · next r heq => exact absurd heq (hpoint r)
    · rfl
  rw [key?, hsegments]
  rfl

end Newsroom.Toml
