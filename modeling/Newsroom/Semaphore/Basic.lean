import Newsroom.Word

/-!
# Semaphores

A count of permits that are handed out and given back.

## Main Definitions

* `Semaphore` — the permits that are left
* `Semaphore.acquire?` — one permit fewer, if one is left
* `Semaphore.release` — one permit more, if the count stays a word

## Main Statements

* `Semaphore.acquire?_eq_some_iff`, `Semaphore.release_eq_ok_iff` — when a permit is taken or
  given back, and what is left
-/

namespace Newsroom

/-- A count of permits. -/
structure Semaphore where
  permits : Nat
  deriving DecidableEq, Repr, Inhabited

namespace Semaphore

/-- One permit is taken, if one is left. -/
def acquire? (s : Semaphore) : Option Semaphore :=
  if s.permits = 0 then none else some ⟨s.permits - 1⟩

/-- One permit is given back.  At the greatest count this fails. -/
def release (s : Semaphore) : Except Overflow Semaphore :=
  (Word.add s.permits 1).map Semaphore.mk

theorem acquire?_eq_none_iff {s : Semaphore} : s.acquire? = none ↔ s.permits = 0 := by
  simp [acquire?]

theorem acquire?_eq_some_iff {s s' : Semaphore} :
    s.acquire? = some s' ↔ s.permits = s'.permits + 1 := by
  obtain ⟨n⟩ := s
  obtain ⟨n'⟩ := s'
  cases n with
  | zero => simp [acquire?]
  | succ n => simp [acquire?]

theorem release_eq_ok_iff {s s' : Semaphore} :
    s.release = .ok s' ↔ s.permits + 1 < Word.limit ∧ s' = ⟨s.permits + 1⟩ := by
  unfold release Word.add
  by_cases h : s.permits + 1 < Word.limit
  · rw [if_pos h]
    constructor
    · intro hs
      exact ⟨h, (Except.ok.inj hs).symm⟩
    · rintro ⟨-, rfl⟩
      rfl
  · rw [if_neg h]
    constructor
    · intro hs
      cases hs
    · exact fun hs => absurd hs.1 h

/-- Giving a permit back fails at the greatest count, and only there. -/
theorem release_eq_error_iff {s : Semaphore} {e : Overflow} :
    s.release = .error e ↔ Word.limit ≤ s.permits + 1 := by
  cases e
  unfold release Word.add
  by_cases h : s.permits + 1 < Word.limit
  · simpa [if_pos h, Except.map] using h
  · simpa [if_neg h, Except.map] using h

end Semaphore

end Newsroom
