import Newsroom.Proofs.Text.Trim
import Newsroom.Text.Numeral

/-!
# Spellings of numbers

The texts that are read as a number.

## Main Definitions

* `Numeral` — a text that spells a number

## Main Statements

* `digits?_eq_some_iff` — what digits spell
* `word32?_eq_some_iff`, `word64?_eq_some_iff` — a word is read from its spellings, and from
  nothing else
* `Numeral.solid` — a numeral has no blanks
-/

namespace Newsroom.Text

variable {n acc bound : Nat} {cs ds : List Char}

/-- A text that spells a number: perhaps a sign, any number of zeros and the shortest numeral. -/
def Numeral (n : Nat) (cs : List Char) : Prop :=
  ∃ sign k, (sign = [] ∨ sign = ['+']) ∧ cs = sign ++ List.replicate k '0' ++ decimal n

theorem numeral_decimal (n : Nat) : Numeral n (decimal n) :=
  ⟨[], 0, .inl rfl, rfl⟩

/-! ### Digits -/

theorem toNat_of_isDigit {c : Char} (h : c.isDigit = true) : 48 ≤ c.toNat ∧ c.toNat ≤ 57 := by
  simp only [Char.isDigit, Bool.and_eq_true, decide_eq_true_eq, ge_iff_le,
    UInt32.le_iff_toNat_le] at h
  exact h

theorem decimal_of_isDigit {c : Char} (h : c.isDigit = true) :
    c.toNat - '0'.toNat < 10 ∧ decimal (c.toNat - '0'.toNat) = [c] := by
  obtain ⟨hle, hge⟩ := toNat_of_isDigit h
  have hlt : c.toNat - '0'.toNat < 10 := by
    change c.toNat - 48 < 10
    omega
  refine ⟨hlt, ?_⟩
  rw [decimal, Nat.toDigits_of_lt_base hlt, List.cons.injEq]
  refine ⟨Char.toNat_inj.1 ?_, rfl⟩
  rw [Nat.toNat_digitChar_of_lt_ten hlt]
  change 48 + (c.toNat - 48) = c.toNat
  omega

/-- Digits behind a numeral that does not begin with a zero make a longer one. -/
theorem decimal_append (hacc : 0 < acc) (hds : ∀ c ∈ ds, c.isDigit = true) :
    decimal acc ++ ds = decimal (Nat.ofDigitChars 10 ds acc) := by
  induction ds generalizing acc with
  | nil => simp
  | cons c ds ih =>
      obtain ⟨hlt, hc⟩ := decimal_of_isDigit (hds c List.mem_cons_self)
      have hlonger : decimal acc ++ [c] = decimal (10 * acc + (c.toNat - '0'.toNat)) := by
        rw [← hc]
        exact Nat.toDigits_append_toDigits (by decide) hacc hlt
      rw [Nat.ofDigitChars_cons, ← ih (by omega) fun d hd => hds d (List.mem_cons_of_mem c hd),
        ← hlonger, List.append_assoc, List.singleton_append]

/-- Digits are zeros and a shortest numeral. -/
theorem exists_replicate_of_isDigit (hne : ds ≠ []) (hds : ∀ c ∈ ds, c.isDigit = true) :
    ∃ k, ds = List.replicate k '0' ++ decimal (Nat.ofDigitChars 10 ds 0) := by
  induction ds with
  | nil => exact absurd rfl hne
  | cons c ds ih =>
      obtain ⟨hlt, hc⟩ := decimal_of_isDigit (hds c List.mem_cons_self)
      have hrest : ∀ d ∈ ds, d.isDigit = true := fun d hd => hds d (List.mem_cons_of_mem c hd)
      rw [Nat.ofDigitChars_cons, Nat.mul_zero, Nat.zero_add]
      by_cases hzero : c.toNat - '0'.toNat = 0
      · obtain rfl : c = '0' := by
          rw [hzero] at hc
          exact (List.cons.inj hc).1.symm
        by_cases hend : ds = []
        · exact ⟨0, by rw [hend]; rfl⟩
        · obtain ⟨k, hk⟩ := ih hend hrest
          refine ⟨k + 1, ?_⟩
          rw [hzero, List.replicate_succ, List.cons_append, ← hk]
      · refine ⟨0, ?_⟩
        rw [← decimal_append (Nat.pos_of_ne_zero hzero) hrest, hc]
        rfl

theorem isDigit_of_mem {c : Char} {k : Nat} (h : c ∈ List.replicate k '0' ++ decimal n) :
    c.isDigit = true := by
  rcases List.mem_append.1 h with hzero | hdigit
  · rw [(List.mem_replicate.1 hzero).2]
    rfl
  · exact List.all_eq_true.1 (all_isDigit_decimal n) c hdigit

/-- What digits spell. -/
theorem digits?_eq_some_iff :
    digits? cs = some n ↔ ∃ k, cs = List.replicate k '0' ++ decimal n := by
  constructor
  · intro h
    simp only [digits?, List.isEmpty_iff, List.all_eq_true] at h
    split at h
    · cases h
    · next hne =>
      split at h
      · next hds =>
        cases h
        exact exists_replicate_of_isDigit hne hds
      · cases h
  · rintro ⟨k, rfl⟩
    have hne : (List.replicate k '0' ++ decimal n).isEmpty = false := by simp [decimal]
    have hds : (List.replicate k '0' ++ decimal n).all Char.isDigit = true :=
      List.all_eq_true.2 fun c hc => isDigit_of_mem hc
    rw [digits?, hne, hds]
    simp [Nat.ofDigitChars_append, decimal]

theorem dropPlus_of_isDigit (h : ∀ c ∈ cs, c.isDigit = true) : dropPlus cs = cs := by
  unfold dropPlus
  split
  · cases h '+' List.mem_cons_self
  · rfl

theorem digits?_dropPlus_eq_some_iff : digits? (dropPlus cs) = some n ↔ Numeral n cs := by
  rw [digits?_eq_some_iff]
  constructor
  · rintro ⟨k, hk⟩
    unfold dropPlus at hk
    split at hk
    · exact ⟨['+'], k, .inr rfl, by rw [hk]; rfl⟩
    · exact ⟨[], k, .inl rfl, hk⟩
  · rintro ⟨sign, k, rfl | rfl, rfl⟩
    · rw [List.nil_append, dropPlus_of_isDigit fun c hc => isDigit_of_mem hc]
      exact ⟨k, rfl⟩
    · exact ⟨k, rfl⟩

/-- A number is read from its spellings, and from nothing else. -/
theorem unsigned?_eq_some_iff : unsigned? bound cs = some n ↔ Numeral n cs ∧ n < bound := by
  rw [unsigned?, Option.filter_eq_some_iff, digits?_dropPlus_eq_some_iff, decide_eq_true_eq]

theorem word32?_eq_some_iff {w : UInt32} : word32? cs = some w ↔ Numeral w.toNat cs := by
  simp only [word32?, Option.map_eq_some_iff, unsigned?_eq_some_iff]
  constructor
  · rintro ⟨n, ⟨hn, hlt⟩, rfl⟩
    rwa [UInt32.toNat_ofNat_of_lt' hlt]
  · exact fun h => ⟨w.toNat, ⟨h, w.toNat_lt⟩, UInt32.ofNat_toNat⟩

theorem word64?_eq_some_iff {w : UInt64} : word64? cs = some w ↔ Numeral w.toNat cs := by
  simp only [word64?, Option.map_eq_some_iff, unsigned?_eq_some_iff]
  constructor
  · rintro ⟨n, ⟨hn, hlt⟩, rfl⟩
    rwa [UInt64.toNat_ofNat_of_lt' hlt]
  · exact fun h => ⟨w.toNat, ⟨h, w.toNat_lt⟩, UInt64.ofNat_toNat⟩

/-! ### The characters of a numeral -/

theorem isBlank_of_isDigit {c : Char} (h : c.isDigit = true) : isBlank c = false := by
  obtain ⟨hle, hge⟩ := toNat_of_isDigit h
  simp [isBlank]
  omega

theorem Numeral.eq_plus_or_isDigit (h : Numeral n cs) : ∀ c ∈ cs, c = '+' ∨ c.isDigit = true := by
  obtain ⟨sign, k, hsign, rfl⟩ := h
  intro c hc
  rw [List.append_assoc] at hc
  rcases List.mem_append.1 hc with hc | hc
  · rcases hsign with rfl | rfl
    · cases hc
    · exact .inl (List.mem_singleton.1 hc)
  · exact .inr (isDigit_of_mem hc)

/-- A numeral has no blanks. -/
theorem Numeral.solid (h : Numeral n cs) : Solid cs where
  ne_nil := by
    obtain ⟨sign, k, -, rfl⟩ := h
    simp [decimal]
  solid c hc := by
    rcases h.eq_plus_or_isDigit c hc with rfl | hdigit
    · rfl
    · exact isBlank_of_isDigit hdigit

end Newsroom.Text
