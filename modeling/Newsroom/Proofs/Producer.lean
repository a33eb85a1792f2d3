import Newsroom.Stage.Producer

/-!
# A producer between two steps

What a producer holds and has handed over, and how far it has come since it began.

## Main Definitions

* `Producer.sent` — the end marks that it has put into its queue
* `Producer.held` — the message in its hands
* `Producer.Since` — what a producer has become after some draws

## Main Statements

* `Since.write`, `Since.handedOver` — each step of a producer goes on with its draws
-/

namespace Newsroom

/-! ### Draws -/

variable {ρ α : Type}

theorem draws_succ [CategorySource ρ] (n : Nat) (g : ρ) :
    draws (n + 1) g = draws n g ++ [(CategorySource.draw (afterDraws n g)).1] := by
  induction n generalizing g with
  | zero => rfl
  | succ n ih =>
      rw [draws, ih]
      rfl

theorem afterDraws_succ [CategorySource ρ] (n : Nat) (g : ρ) :
    afterDraws (n + 1) g = (CategorySource.draw (afterDraws n g)).2 := by
  induction n generalizing g with
  | zero => rfl
  | succ n ih => exact ih _

theorem length_draws [CategorySource ρ] (n : Nat) (g : ρ) : (draws n g).length = n := by
  induction n generalizing g with
  | zero => rfl
  | succ n ih => rw [draws, List.length_cons, ih]

theorem Tally.ofList_concat (cs : List Category) (c : Category) :
    Tally.ofList (cs ++ [c]) = (Tally.ofList cs).bump c := by
  simp [Tally.ofList]

/-- As many are counted as there are. -/
theorem Tally.sum_ofList (cs : List Category) : (Tally.ofList cs).sum = cs.length := by
  rw [← List.reverse_reverse cs]
  induction cs.reverse with
  | nil => rfl
  | cons c cs ih => simp [Tally.ofList_concat, ih]

/-- As many of a category are counted as there are. -/
theorem Tally.get_ofList (cs : List Category) (c : Category) :
    (Tally.ofList cs).get c = cs.countP fun d => d = c := by
  rw [← List.reverse_reverse cs]
  induction cs.reverse with
  | nil => exact Tally.get_zero c
  | cons d ds ih =>
      rw [List.reverse_cons, Tally.ofList_concat, Tally.get_bump, ih, List.countP_append,
        List.countP_singleton]
      simp [eq_comm]

namespace Producer

/-! ### Messages -/

/-- The end marks that a producer has put into its queue. -/
def sent (p : Producer ρ) : Nat :=
  match p.phase with
  | .finished => 1
  | _ => 0

/-- The messages in the hands of a producer. -/
def held [Payload α] (p : Producer ρ) : List (Message α) :=
  (p.held? : Option (Message α)).toList

theorem sent_write [CategorySource ρ] (p : Producer ρ) : p.write.sent = 0 := by
  unfold write sent
  cases p.remaining <;> rfl

/-- What a producer holds and what it has sent, before and after it is handed
over. -/
theorem held?_cases [Payload α] {p : Producer ρ} {m : Message α} (h : p.held? = some m) :
    (∃ a, p.phase = .holding a ∧ m = .item (Payload.ofArticle a) ∧ p.sent = 0 ∧
        p.handedOver.sent = 0) ∨
      (p.phase = .closing ∧ m = .done ∧ p.sent = 0 ∧ p.handedOver.sent = 1) := by
  unfold held? at h
  cases hphase : p.phase with
  | holding a =>
      simp only [hphase, Option.some.injEq] at h
      exact .inl ⟨a, rfl, h.symm, by simp [sent, hphase], by simp [sent, handedOver, hphase]⟩
  | closing =>
      simp only [hphase, Option.some.injEq] at h
      exact .inr ⟨rfl, h.symm, by simp [sent, hphase], by simp [sent, handedOver, hphase]⟩
  | writing => simp [hphase] at h
  | finished => simp [hphase] at h

/-- A message that is handed over is no longer held. -/
theorem held_handedOver [Payload α] {p : Producer ρ} {m : Message α} (h : p.held? = some m) :
    p.held = [m] ∧ (p.handedOver.held : List (Message α)) = [] := by
  refine ⟨by simp [held, h], ?_⟩
  unfold held? at h
  cases hphase : p.phase <;> simp_all [held, held?, handedOver]

/-- What identifies a producer and what it has counted stay when its message is
handed over. -/
theorem handedOver_kept (p : Producer ρ) :
    p.handedOver.id = p.id ∧ p.handedOver.emitted = p.emitted ∧ p.handedOver.origin = p.origin := by
  unfold handedOver
  cases p.phase <;> exact ⟨rfl, rfl, rfl⟩

theorem write_kept [CategorySource ρ] (p : Producer ρ) :
    p.write.id = p.id ∧ p.write.origin = p.origin := by
  unfold write
  cases p.remaining <;> exact ⟨rfl, rfl⟩

/-! ### Progress -/

/-- What a producer has become: it has written some of its articles, and it ends
only after the last of them. -/
structure Since [CategorySource ρ] (p₀ p : Producer ρ) : Prop where
  id : p.id = p₀.id
  remaining_le : p.remaining ≤ p₀.remaining
  source : p.source = afterDraws (p₀.remaining - p.remaining) p₀.source
  emitted : p.emitted = Tally.ofList (draws (p₀.remaining - p.remaining) p₀.source)
  ending : p.phase = .closing ∨ p.phase = .finished → p.remaining = 0

variable [CategorySource ρ] {p₀ p : Producer ρ}

/-- A producer before its first article. -/
theorem Since.start (hemitted : p.emitted = Tally.zero) (hphase : p.phase = .writing) :
    Since p p where
  id := rfl
  remaining_le := Nat.le_refl _
  source := by
    rw [Nat.sub_self]
    rfl
  emitted := by
    rw [Nat.sub_self]
    exact hemitted
  ending := by simp [hphase]

theorem write_of_zero (h : p.remaining = 0) : p.write = { p with phase := .closing } := by
  rw [write, h]

/-- Writing an article takes one more draw. -/
theorem Since.write (h : Since p₀ p) : Since p₀ p.write := by
  have hremaining := h.remaining_le
  cases hn : p.remaining with
  | zero =>
      rw [write_of_zero hn]
      exact { h with ending := fun _ => hn }
  | succ n =>
      rw [Producer.write, hn]
      -- what remains counts down, so the draws that were made count up
      have hdraws : p₀.remaining - n = p₀.remaining - p.remaining + 1 := by omega
      have hsource := h.source
      have hemitted := h.emitted
      exact
        { id := h.id
          remaining_le := by
            show n ≤ p₀.remaining
            omega
          source := by
            show (CategorySource.draw p.source).2 = afterDraws (p₀.remaining - n) p₀.source
            rw [hdraws, afterDraws_succ, ← hsource]
          emitted := by
            show p.emitted.bump (CategorySource.draw p.source).1 =
              Tally.ofList (draws (p₀.remaining - n) p₀.source)
            rw [hdraws, draws_succ, Tally.ofList_concat, ← hsource, ← hemitted]
          ending := by simp }

theorem Since.handedOver (h : Since p₀ p) : Since p₀ p.handedOver := by
  unfold Producer.handedOver
  cases hphase : p.phase with
  | holding a => exact { h with ending := by simp }
  | closing => exact { h with ending := fun _ => h.ending (.inl hphase) }
  | writing => exact h
  | finished => exact h

/-- A finished producer has made all its draws. -/
theorem Since.emitted_of_finished (h : Since p₀ p) (hphase : p.phase = .finished) :
    p.emitted = Tally.ofList (draws p₀.remaining p₀.source) := by
  have hzero := h.ending (.inr hphase)
  rw [h.emitted, hzero, Nat.sub_zero]

end Producer

end Newsroom
