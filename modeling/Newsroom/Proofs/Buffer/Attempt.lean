import Newsroom.Proofs.Buffer.Completion

/-!
# One operation among other threads

A caller that does one operation at a buffer at rest, while other threads do what is no
hindrance to it: they put messages in while it removes, and take messages out while it inserts.

## Main Definitions

* `Operation.Leaves` — what the others leave in the ring before the caller changes it
* `Thread.Does` — how far the caller has come, by the messages before and after
* `Attempt` — the caller and the other threads

## Main Statements

* `Step.does` — a step of the caller goes on with its operation, or completes it as a queue does
* `Step.leaves` — a step of another thread leaves what it has to
* `Attempt.step`, `Attempt.of_reachable` — the caller is always at its operation or has
  completed it
-/

namespace Newsroom.Buffer

variable {α : Type} {capacity : Nat} {before now now' : List α} {op : Operation α}
  {b b' : Buffer α} {s u : State α} {t t' : Thread α} {x : Act α}

/-! ### The caller -/

/-- What is in the ring before a thread changes it.  While the thread would remove, others have
put messages in behind those of the beginning, and none if there was none; while it would insert,
they have taken messages out. -/
def Operation.Leaves (op : Operation α) (before now : List α) : Prop :=
  if op.isRemoval then before <+: now ∧ (before = [] → now = []) else now <:+ before

/-- A thread that has not changed the ring for the only operation that it does, or has completed
it. -/
def Thread.Outside (t : Thread α) (op : Operation α) (before now : List α) : Prop :=
  (t.program = [op] ∧ t.effects = [] ∧ op.Leaves before now) ∨
  (t.program = [] ∧ ∃ e rest, t.effects = [e] ∧ Completes before rest op e)

/-- How far a thread has come with the only operation that it does, by what was in the ring
before it.  What it removes was the first of that. -/
def Thread.Does (t : Thread α) (op : Operation α) (before now : List α) : Prop :=
  match t.phase with
  | .pushed => t.program = [op] ∧ t.effects = []
  | .popped a => t.program = [op] ∧ t.effects = [] ∧ ∃ rest, before = a :: rest
  | _ => t.Outside op before now

/-- A thread that has something to do has its only operation to do. -/
theorem Thread.Outside.of_cons {op' : Operation α} {ops : List (Operation α)}
    (h : t.Outside op before now) (hprogram : t.program = op' :: ops) :
    op' :: ops = [op] ∧ t.effects = [] ∧ op.Leaves before now := by
  rw [Thread.Outside, hprogram] at h
  exact h.resolve_right fun hended => List.cons_ne_nil _ _ hended.1

/-- A thread that has nothing to do has completed its operation. -/
theorem Thread.Outside.of_nil (h : t.Outside op before now) (hprogram : t.program = []) :
    ∃ e rest, t.effects = [e] ∧ Completes before rest op e := by
  rw [Thread.Outside, hprogram] at h
  exact (h.resolve_left fun hbegun => List.cons_ne_nil _ _ hbegun.1.symm).2

/-- A step of the thread goes on with the operation, or completes it. -/
theorem Step.does (h : Step b t x b' t') (hdoes : t.Does op before now) (hfits : t.Fits)
    (hflow : now ++ x.pushed = x.popped ++ now')
    (hempty : op = .tryRemove → t.phase = .ready → b.readSlots.permits = 0 → now = []) :
    t'.Does op before now' := by
  cases h with
  | permitPush hphase hprogram hpermits =>
      have hkept : now = now' := (List.append_nil now).symm.trans hflow
      simp only [Thread.Does, Thread.Outside, hphase, hprogram] at hdoes ⊢
      simpa [hkept] using hdoes
  | permitPop hphase hprogram hremoval hpermits =>
      have hkept : now = now' := (List.append_nil now).symm.trans hflow
      simp only [Thread.Does, Thread.Outside, hphase, hprogram] at hdoes ⊢
      simpa [hkept] using hdoes
  | refuse hphase hprogram hnone =>
      simp only [Thread.Does, hphase] at hdoes
      obtain ⟨hop, heffects, hkept⟩ := hdoes.of_cons hprogram
      cases hop
      have hnow := hempty rfl hphase hnone
      have hbefore : before = [] := List.prefix_nil.1 (hnow ▸ hkept.1)
      exact .inr ⟨by simp [Thread.done, hprogram], .empty, before,
        by simp [Thread.done, heffects], .empty hbefore rfl⟩
  | push hphase hprogram hpush =>
      simp only [Thread.Does, hphase] at hdoes
      obtain ⟨hop, heffects, -⟩ := hdoes.of_cons hprogram
      exact ⟨hprogram.trans hop, heffects⟩
  | @pop op' ops a r hphase hprogram hremoval hpop =>
      have hfront : now = a :: now' := (List.append_nil now).symm.trans hflow
      simp only [Thread.Does, hphase] at hdoes
      obtain ⟨hop, heffects, hkept⟩ := hdoes.of_cons hprogram
      cases hop
      simp only [Operation.Leaves, hremoval, if_true] at hkept
      obtain ⟨hpre, hnil⟩ := hkept
      refine ⟨hprogram, heffects, ?_⟩
      cases before with
      | nil => cases (hnil rfl).symm.trans hfront
      | cons c rest =>
          rw [hfront] at hpre
          obtain ⟨rfl, -⟩ := List.cons_prefix_cons.1 hpre
          exact ⟨rest, rfl⟩
  | returnInsert hphase hprogram hword =>
      have hinsert := hfits
      simp only [Thread.Fits, hphase, hprogram] at hinsert
      simp only [Thread.Does, hphase, hprogram] at hdoes
      obtain ⟨hop, heffects⟩ := hdoes
      cases hop
      cases op with
      | insert a =>
          exact .inr ⟨by simp [Thread.done, hprogram], .inserted, before ++ [a],
            by simp [Thread.done, heffects], .inserted rfl⟩
      | remove => cases hinsert
      | tryRemove => cases hinsert
  | @returnRemove op' ops a hphase hprogram hword =>
      have hremoval := hfits
      simp only [Thread.Fits, hphase, hprogram] at hremoval
      simp only [Thread.Does, hphase, hprogram] at hdoes
      obtain ⟨hop, heffects, rest, hbefore⟩ := hdoes
      cases hop
      exact .inr ⟨by simp [Thread.done, hprogram], .removed a, rest,
        by simp [Thread.done, heffects], .removed hremoval hbefore⟩

/-! ### The caller among other threads -/

/-- A caller with one operation, the first thread of a machine.  The others do what is no
hindrance to it, and there are none while it removes without waiting. -/
structure Attempt (capacity : Nat) (op : Operation α) (before now : List α) (s : State α) :
    Prop where
  accounted : Accounted capacity now s
  caller : ∃ t, s.threads[0]? = some t ∧ t.Does op before now
  others : ∀ i t, s.threads[i + 1]? = some t →
    (∀ op' ∈ t.program, op'.isRemoval = !op.isRemoval) ∧
      (op.isRemoval = true → before = [] → t.program = [])
  alone : op = .tryRemove → s.threads.length = 1

/-- A step of another thread leaves what it has to. -/
theorem Step.leaves (h : Step b t x b' t') (hflow : now ++ x.pushed = x.popped ++ now')
    (hother : (∀ op' ∈ t.program, op'.isRemoval = !op.isRemoval) ∧
      (op.isRemoval = true → before = [] → t.program = []))
    (hleaves : op.Leaves before now) : op.Leaves before now' := by
  obtain ⟨hkind, hnil⟩ := hother
  cases hremoval : op.isRemoval with
  | true =>
      simp only [Operation.Leaves, hremoval, if_true] at hleaves ⊢
      rw [h.popped_eq_nil (by simpa [hremoval] using hkind), List.nil_append] at hflow
      exact ⟨hleaves.1.trans ⟨_, hflow⟩, fun hb => absurd (hnil hremoval hb) h.program_ne_nil⟩
  | false =>
      simp only [Operation.Leaves, hremoval, Bool.false_eq_true, if_false] at hleaves ⊢
      rw [h.pushed_eq_nil (by simpa [hremoval] using hkind), List.append_nil] at hflow
      exact List.IsSuffix.trans ⟨_, hflow.symm⟩ hleaves

/-- The caller stays as far as it has come while another thread takes a step. -/
theorem Thread.Does.of_leaves (h : t.Does op before now)
    (hleaves : op.Leaves before now → op.Leaves before now') : t.Does op before now' := by
  have houtside : t.Outside op before now → t.Outside op before now' :=
    Or.imp_left fun ⟨hprogram, heffects, hbefore⟩ => ⟨hprogram, heffects, hleaves hbefore⟩
  cases hphase : t.phase with
  | ready =>
      simp only [Thread.Does, hphase] at h ⊢
      exact houtside h
  | permitted =>
      simp only [Thread.Does, hphase] at h ⊢
      exact houtside h
  | pushed => simpa only [Thread.Does, hphase] using h
  | popped a => simpa only [Thread.Does, hphase] using h

/-- Every step keeps the caller at its operation, or completes it. -/
theorem Attempt.step {i : Nat} {s' : State α} (h : Attempt capacity op before now s)
    (hstep : step? s i = some s') : ∃ now', Attempt capacity op before now' s' := by
  obtain ⟨x, hact⟩ := step?_eq_some_iff.1 hstep
  obtain ⟨now', haccounted, hflow⟩ := h.accounted.step hact
  obtain ⟨t, b', t', ht, hthread, rfl⟩ := act?_eq_some_iff.1 hact
  obtain ⟨c, hc, hdoes⟩ := h.caller
  refine ⟨now',
    { accounted := haccounted
      caller := ?_
      others := fun j u hu => ?_
      alone := fun htry => (List.length_set ..).trans (h.alone htry) }⟩
  · cases i with
    | zero =>
        cases hc.symm.trans ht
        refine ⟨t', by rw [getElem?_set_of_some ht, if_pos rfl], ?_⟩
        refine hthread.does hdoes (h.accounted.fits t (List.mem_of_getElem? ht)) hflow ?_
        intro htry hphase
        obtain ⟨c', hlone⟩ := List.length_eq_one_iff.1 (h.alone htry)
        have hsame : c' = t := by simpa [hlone] using ht
        exact (h.accounted.atRest_of_lone (hsame ▸ hlone) hphase).eq_nil
    | succ j =>
        refine ⟨c, by rw [getElem?_set_of_some ht, if_neg (by omega), hc], ?_⟩
        exact hdoes.of_leaves (hthread.leaves hflow (h.others j t ht))
  · rw [getElem?_set_of_some ht] at hu
    split at hu
    · next heq =>
      cases hu
      obtain ⟨hkind, hnil⟩ := h.others j t (heq ▸ ht)
      have hsuffix := hthread.program_suffix
      refine ⟨fun op' hop' => hkind op' (hsuffix.subset hop'), fun hremoval hb => ?_⟩
      exact List.suffix_nil.1 (hnil hremoval hb ▸ hsuffix)
    · exact h.others j u hu

/-- Wherever the threads come to, the caller is at its operation or has completed it. -/
theorem Attempt.of_reachable (h : Attempt capacity op before now s)
    (hreach : Schedule.Reachable step? s u) : ∃ now', Attempt capacity op before now' u := by
  apply hreach.invariant (P := fun u => ∃ now', Attempt capacity op before now' u) ⟨now, h⟩
  rintro v i v' ⟨now, h⟩ hstep
  exact h.step hstep

end Newsroom.Buffer
