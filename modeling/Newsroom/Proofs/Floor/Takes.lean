import Newsroom.Proofs.Floor.Order

/-!
# What the stages take

The messages that the stages take out of the queues, and the end marks among them.

## Main Definitions

* `Floor.take?` — what a stage takes out of a queue with its next step
* `marksFrom` — the end marks that were taken from a queue, of all that was taken
* `Floor.Receipts` — the stages have counted the end marks that they took

## Main Statements

* `Receipts.step` — every step counts the end mark that it takes
-/

namespace Newsroom

/-- The end marks that were taken from a queue, of all that was taken. -/
def marksFrom {α : Type} (p : Place) (taken : List (Place × Message α)) : Nat :=
  taken.countP fun e => e.1 = p ∧ e.2.isDone

theorem marksFrom_concat {α : Type} (p p' : Place) (taken : List (Place × Message α))
    (m : Message α) :
    marksFrom p (taken ++ [(p', m)]) =
      marksFrom p taken + if p' = p ∧ m.isDone then 1 else 0 := by
  simp [marksFrom, List.countP_append, List.countP_cons]

namespace Floor

variable {ρ α : Type}

/-- What a stage takes out of a queue with its next step. -/
def take? (f : Floor ρ α) : Actor → Option (Place × Message α)
  | .screen =>
      match f.screen.phase with
      | .waiting => (f.remove? .screen).map fun r => (.screen, r.1)
      | _ => none
  | .coEditor c =>
      match (f.coEditors.get c).phase with
      | .waiting => (f.remove? (.category c)).map fun r => (.category c, r.1)
      | _ => none
  | .dispatcher =>
      match f.dispatcher.phase with
      | .polling i => (f.remove? (.source i)).map fun r => (.source i, r.1)
      | _ => none
  | .producer _ => none

/-- The screen manager and the dispatcher have counted the end marks that they took, the
dispatcher for each of its sources. -/
structure Receipts (f : Floor ρ α) (taken : List (Place × Message α)) : Prop where
  screen : marksFrom .screen taken = f.screen.report.sentinelsReceived
  sources : ∀ (i : Nat) (s : SourceStatus), f.dispatcher.sources[i]? = some s →
    marksFrom (.source i) taken = s.received

variable {sink : Sink} {f f' : Floor ρ α} {taken : List (Place × Message α)}

theorem take?_of_remove? {p : Place} {q r : Queue (Message α)} {m : Message α}
    (hq : f.queue? p = some q) (hm : q.remove? = some (m, r)) :
    (f.remove? p).map (fun r => (p, r.1)) = some (p, m) := by
  simp [remove?, hq, hm]

/-- Texts, and what the co-editors take, are not counted. -/
theorem Receipts.concat (h : f.Receipts taken) {p : Place} {m : Message α}
    (hother : m.isDone = true → ∃ c, p = .category c)
    (hscreen : f'.screen.report.sentinelsReceived = f.screen.report.sentinelsReceived)
    (hsources : f'.dispatcher.sources = f.dispatcher.sources) :
    f'.Receipts (taken ++ [(p, m)]) := by
  refine ⟨?_, fun i s hs => ?_⟩
  · rw [marksFrom_concat, hscreen, h.screen, if_neg, Nat.add_zero]
    rintro ⟨rfl, hdone⟩
    obtain ⟨c, hc⟩ := hother hdone
    cases hc
  · rw [hsources] at hs
    rw [marksFrom_concat, h.sources i s hs, if_neg, Nat.add_zero]
    rintro ⟨rfl, hdone⟩
    obtain ⟨c, hc⟩ := hother hdone
    cases hc

/-- A step that takes nothing leaves what was counted. -/
theorem Receipts.keep (h : f.Receipts taken) {sent : Option (Place × Message α)}
    (hnone : sent = none)
    (hscreen : f'.screen.report.sentinelsReceived = f.screen.report.sentinelsReceived)
    (hsources : f'.dispatcher.sources = f.dispatcher.sources) :
    f'.Receipts (taken ++ sent.toList) := by
  rw [hnone, Option.toList_none, List.append_nil]
  refine ⟨hscreen ▸ h.screen, fun i s hs => ?_⟩
  rw [hsources] at hs
  exact h.sources i s hs

variable [CategorySource ρ] [Payload α]

private theorem receipts_dispatcher (h : f.Receipts taken) (hsteady : f.dispatcher.Steady)
    (hprompt : f.dispatcher.Prompt) (hstep : Step sink f .dispatcher f') :
    f'.Receipts (taken ++ (f.take? .dispatcher).toList) := by
  cases hstep with
  | @miss i q hphase hq hempty =>
      have hnone : f.take? .dispatcher = none := by
        simp [take?, hphase, remove?, queue?, hq, Queue.remove?, hempty]
      exact h.keep hnone rfl (Dispatcher.sources_afterPoll _ _)
  | @takeDone i q r hphase hq hm =>
      have htake : f.take? .dispatcher = some (.source i, .done) := by
        simp only [take?, hphase]
        exact take?_of_remove? hq hm
      have hactive := hsteady.active_of_polling hprompt hphase
      rw [htake]
      refine ⟨?_, fun j s hs => ?_⟩
      · rw [Option.toList_some, marksFrom_concat, h.screen, if_neg (by simp)]
        rfl
      · rw [Dispatcher.sources_afterPoll, Dispatcher.receiveDone,
          getElem?_set_of_some hactive] at hs
        rw [Option.toList_some, marksFrom_concat]
        by_cases hji : j = i
        · rw [if_pos hji] at hs
          cases hs
          rw [hji, h.sources i _ hactive]
          simp [SourceStatus.received]
        · rw [if_neg hji] at hs
          rw [h.sources j s hs, if_neg (by simp [Ne.symm hji])]
          rfl
  | @takeItem i q r body c hphase hq hm hc =>
      have htake : f.take? .dispatcher = some (.source i, .item body) := by
        simp only [take?, hphase]
        exact take?_of_remove? hq hm
      rw [htake]
      exact h.concat (fun hdone => by cases hdone) rfl rfl
  | @drop i q r body hphase hq hm hc =>
      have htake : f.take? .dispatcher = some (.source i, .item body) := by
        simp only [take?, hphase]
        exact take?_of_remove? hq hm
      rw [htake]
      exact h.concat (fun hdone => by cases hdone) rfl (Dispatcher.sources_afterPoll _ _)
  | route hphase hroom =>
      exact h.keep (by simp [take?, hphase]) rfl (Dispatcher.sources_afterPoll _ _)
  | @check i q hphase hq =>
      have hdraining := hsteady.draining_of_checking hphase
      have hnone : f.take? .dispatcher = none := by simp [take?, hphase]
      rw [hnone, Option.toList_none, List.append_nil]
      refine ⟨h.screen, fun j s hs => ?_⟩
      -- a source that is found empty has given its end mark before
      simp only [Dispatcher.checked] at hs
      split at hs
      · rw [getElem?_set_of_some hdraining] at hs
        split at hs
        · next hji =>
          cases hs
          rw [hji, h.sources i _ hdraining]
          rfl
        · exact h.sources j s hs
      · exact h.sources j s hs
  | close hphase hroom =>
      exact h.keep (by simp [take?, hphase]) rfl (Dispatcher.sources_closed _ _)

/-- Every step counts the end mark that it takes. -/
theorem Receipts.step {a : Actor} (h : f.Receipts taken)
    (hdispatcher : a = .dispatcher → f.dispatcher.Steady ∧ f.dispatcher.Prompt)
    (hstep : Step sink f a f') : f'.Receipts (taken ++ (f.take? a).toList) := by
  cases a with
  | dispatcher =>
      obtain ⟨hsteady, hprompt⟩ := hdispatcher rfl
      exact receipts_dispatcher h hsteady hprompt hstep
  | producer i => cases hstep <;> exact h.keep rfl rfl rfl
  | coEditor c =>
      cases hstep with
      | @take _ m r hphase hm =>
          have htake : f.take? (.coEditor c) = some (.category c, m) := by
            simp only [take?, hphase]
            exact take?_of_remove? rfl hm
          rw [htake]
          exact h.concat (fun _ => ⟨c, rfl⟩) rfl rfl
      | forward hphase hroom => exact h.keep (by simp [take?, hphase]) rfl rfl
  | screen =>
      cases hstep with
      | @display m r hphase hm =>
          have htake : f.take? .screen = some (.screen, m) := by
            simp only [take?, hphase]
            exact take?_of_remove? rfl hm
          rw [htake, Option.toList_some]
          cases m with
          | item body =>
              refine h.concat (fun hdone => by cases hdone) ?_ rfl
              rw [Screen.took_item_fst sink _ hphase]
          | done =>
              refine ⟨?_, fun i s hs => ?_⟩
              · rw [marksFrom_concat, h.screen, if_pos ⟨rfl, rfl⟩, Screen.took_done_fst]
              · rw [marksFrom_concat, h.sources i s hs, if_neg (by simp)]
                rfl
      | finish hphase =>
          refine h.keep (by simp [take?, hphase]) ?_ rfl
          rw [Screen.close_fst sink _ hphase]

end Floor

end Newsroom
