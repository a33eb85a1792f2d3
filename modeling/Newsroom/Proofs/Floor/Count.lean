import Newsroom.Proofs.Floor.Flow

/-!
# The counts of the stages

What the stages have counted fits the articles that are on their way.

## Main Definitions

* `Floor.Since` — what the producers of a floor have become
* `Floor.Counted` — the counts of the other stages are true

## Main Statements

* `Since.step`, `Since.log`, `Since.insert` — producers only go on with their draws
* `Fresh.counted`, `Counted.step`, `Counted.log` — the counts stay true
-/

namespace Newsroom.Floor

variable {ρ : Type} [CategorySource ρ]

/-! ### Producers -/

section

variable {α : Type} {f₀ f f' : Floor ρ α} {sink : Sink}

/-- Each producer has gone on from where it was on an earlier floor. -/
structure Since (f₀ f : Floor ρ α) : Prop where
  length : f.producers.length = f₀.producers.length
  producer : ∀ (i : Nat) (p : Producer ρ), f.producers[i]? = some p →
    ∃ p₀, f₀.producers[i]? = some p₀ ∧ Producer.Since p₀ p

theorem Fresh.since (h : f.Fresh) : f.Since f where
  length := rfl
  producer := fun i p hp =>
    ⟨p, hp, .start (h.producers i p hp).2.2 (h.producers i p hp).2.1⟩

theorem Since.log (h : f₀.Since f) (es : List Event) : f₀.Since (f.log es) :=
  { h with }

theorem Since.insert {p : Place} {m : Message α} (h : f₀.Since f)
    (hinsert : f.insert? p m = some f') : f₀.Since f' := by
  obtain ⟨q, r, -, -, rfl⟩ := insert?_eq_some_iff.1 hinsert
  cases p <;> exact { h with }

/-- A producer that goes on is followed by the floor. -/
private theorem Since.set {i : Nat} {p p' : Producer ρ} (h : f₀.Since f)
    (hp : f.producers[i]? = some p) (hnext : ∀ p₀, Producer.Since p₀ p → Producer.Since p₀ p')
    (j : Nat) (x : Producer ρ) (hx : (f.producers.set i p')[j]? = some x) :
    ∃ p₀, f₀.producers[j]? = some p₀ ∧ Producer.Since p₀ x := by
  rw [getElem?_set_of_some hp] at hx
  split at hx
  · next hji =>
    cases hx
    obtain ⟨p₀, hp₀, hsince⟩ := h.producer i p hp
    exact ⟨p₀, hji ▸ hp₀, hnext p₀ hsince⟩
  · exact h.producer j x hx

theorem Since.step [Payload α] {a : Actor} (h : f₀.Since f) (hstep : Step sink f a f') :
    f₀.Since f' := by
  cases hstep with
  | write hp hphase => exact ⟨by simpa using h.length, h.set hp fun _ => .write⟩
  | handOver hp hheld hq hroom => exact ⟨by simpa using h.length, h.set hp fun _ => .handedOver⟩
  | miss => exact { h with }
  | takeDone => exact { h with }
  | takeItem => exact { h with }
  | drop => exact { h with }
  | route => exact { h with }
  | check => exact { h with }
  | close => exact { h with }
  | take => exact { h with }
  | forward => exact { h with }
  | display => exact { h with }
  | finish => exact { h with }

end

/-! ### The other stages -/

variable {f f' : Floor ρ Article} {sink : Sink}

omit [CategorySource ρ]

/-- The counts of the dispatcher, the co-editors and the screen manager are true. -/
structure Counted (sink : Sink) (f : Floor ρ Article) : Prop where
  dispatcher : f.dispatcher.Truthful
  screen : f.screen.Truthful sink
  routed : ∀ c, f.dispatcher.report.routed.get c =
    (f.coEditors.get c).forwarded + (f.traffic.desk c).length
  forwarded : ∀ c, (f.coEditors.get c).forwarded =
    f.traffic.outbound.countP fun a => a.category = c

theorem Fresh.counted (sink : Sink) (h : f.Fresh) : f.Counted sink where
  dispatcher := by
    have hscan := Dispatcher.phase_start (α := Article) f.producers.length
    have hsent := (Dispatcher.held_sent_of_scan hscan).2
    rw [h.dispatcher]
    refine ⟨rfl, ?_, ?_⟩
    · rw [Dispatcher.sources_start, List.map_replicate, exactSum_replicate]
      rfl
    · rw [hsent, hsent, hsent]
      rfl
  screen := h.screen ▸ Screen.Truthful.start sink
  routed := by
    intro c
    simp [h.dispatcher, Dispatcher.start, h.coEditors, traffic, CoEditor.held, (h.categories c).1]
  forwarded := by
    intro c
    simp [h.coEditors, traffic, h.screen, h.screenQueue.1]

theorem Counted.log (h : f.Counted sink) (es : List Event) : (f.log es).Counted sink :=
  { h with }

/-- The counts when the traffic between the dispatcher and the display stays. -/
private theorem Counted.of_dispatcher (h : f.Counted sink) {d : Dispatcher Article}
    (sources : List (Queue (Message Article))) (es : List Event) (hd : d.Truthful)
    (hrouted : d.report.routed = f.dispatcher.report.routed) :
    ({ f with sources, dispatcher := d, events := es } : Floor ρ Article).Counted sink :=
  { h with
    dispatcher := hd
    routed := fun c => by
      rw [hrouted]
      exact h.routed c }

variable [CategorySource ρ]

private theorem Counted.step_dispatcher (h : f.Counted sink) (horder : f.Orderly)
    (hstep : Step sink f .dispatcher f') : f'.Counted sink := by
  cases hstep with
  | @miss i q hphase hq hempty =>
      refine h.of_dispatcher _ _ ?_ (by simp)
      refine h.dispatcher.of_none_sent (by simp [Dispatcher.sent, hphase])
        (Dispatcher.held_sent_afterPoll _ _).2 (by simp) (by simp) ?_
      simpa using h.dispatcher.received
  | @takeDone i q r hphase hq hm =>
      have hactive := horder.active_of_polling hphase
      have hstatuses := exactSum_map_set SourceStatus.received hactive .draining
      have hreceived := h.dispatcher.received
      refine h.of_dispatcher _ _ ?_ (by simp [Dispatcher.receiveDone])
      refine h.dispatcher.of_none_sent (by simp [Dispatcher.sent, hphase])
        (Dispatcher.held_sent_afterPoll _ _).2 (by simp [Dispatcher.receiveDone])
        (by simp [Dispatcher.receiveDone]) ?_
      simp only [SourceStatus.received] at hstatuses
      simp only [Dispatcher.report_afterPoll, Dispatcher.sources_afterPoll, Dispatcher.receiveDone]
      omega
  | @takeItem i q r a c hphase hq hm hc =>
      refine h.of_dispatcher _ _ ?_ rfl
      exact h.dispatcher.of_none_sent (by simp [Dispatcher.sent, hphase]) (fun _ => rfl) rfl rfl
        h.dispatcher.received
  | @drop i q r a hphase hq hm hc => cases a.classify_text.symm.trans hc
  | @route i c a r hphase hroom =>
      obtain ⟨hitems, -⟩ := Queue.items_insert? hroom
      refine { h with
        dispatcher := ?_
        routed := ?_ }
      · refine h.dispatcher.of_none_sent (by simp [Dispatcher.sent, hphase])
          (Dispatcher.held_sent_afterPoll _ _).2 (by simp [Dispatcher.bumpRouted])
          (by simp [Dispatcher.bumpRouted]) ?_
        simpa [Dispatcher.bumpRouted] using h.dispatcher.received
      · intro d
        have hrouted := h.routed d
        simp only [traffic, Dispatcher.report_afterPoll, Dispatcher.bumpRouted, Tally.get_bump,
          ByCategory.get_set] at hrouted ⊢
        split
        · next hdc =>
          rw [hrouted, hdc, hitems]
          simp [Nat.add_assoc]
        · rw [hrouted, Nat.add_zero]
  | @check i q hphase hq =>
      have hdraining := horder.steady.draining_of_checking hphase
      have hstatuses := exactSum_map_set SourceStatus.received hdraining .done
      have hreceived := h.dispatcher.received
      refine h.of_dispatcher _ _ ?_ rfl
      refine h.dispatcher.of_none_sent (by simp [Dispatcher.sent, hphase])
        (Dispatcher.held_sent_of_scan (i := i + 1) rfl).2 rfl rfl ?_
      rw [horder.isEmpty_of_checking hphase hq]
      exact hreceived.trans (Nat.add_right_cancel hstatuses).symm
  | @close c cs r hphase hroom =>
      obtain ⟨hitems, -⟩ := Queue.items_insert? hroom
      have hrouted_eq : (f.dispatcher.closed cs).1.report.routed = f.dispatcher.report.routed := by
        cases cs <;> rfl
      refine { h with
        dispatcher := h.dispatcher.closed horder.steady hphase
        routed := ?_ }
      intro d
      have hrouted := h.routed d
      simp only [traffic, ByCategory.get_set] at hrouted ⊢
      rw [hrouted_eq, hrouted]
      split
      · next hdc => simp [hdc, hitems]
      · rfl

private theorem Counted.step_coEditor {c : Category} (h : f.Counted sink) (hflow : f.Flowing)
    (hstep : Step sink f (.coEditor c) f') : f'.Counted sink := by
  cases hstep with
  | @take _ m r hphase hm =>
      obtain ⟨hitems, -⟩ := Queue.items_remove? hm
      refine { h with routed := ?_, forwarded := ?_ }
      · intro d
        have hrouted := h.routed d
        simp only [traffic, ByCategory.get_set] at hrouted ⊢
        split
        · next hdc =>
          rw [hrouted, hdc]
          simp [hitems, CoEditor.held, CoEditor.took, hphase]
        · exact hrouted
      · intro d
        refine Eq.trans ?_ (h.forwarded d)
        simp only [ByCategory.get_set]
        split
        · next hdc =>
          rw [hdc]
          rfl
        · rfl
  | @forward _ m r hphase hroom =>
      obtain ⟨hitems, -⟩ := Queue.items_insert? hroom
      obtain ⟨hheld, hheld'⟩ := CoEditor.held_handedOver _ hphase
      have hdesk := hflow.sorted.desk c
      simp only [traffic, hheld] at hdesk
      refine { h with routed := ?_, forwarded := ?_ }
      · intro d
        have hrouted := h.routed d
        simp only [traffic, ByCategory.get_set] at hrouted ⊢
        split
        · next hdc =>
          rw [hrouted, hdc, hheld, hheld']
          cases m with
          | done => simp [CoEditor.handedOver]
          | item a =>
              simp only [CoEditor.handedOver, List.singleton_append, bodies_cons_item,
                List.length_cons, List.nil_append]
              omega
        · exact hrouted
      · intro d
        have hforwarded := h.forwarded d
        simp only [traffic, ByCategory.get_set, hitems] at hforwarded ⊢
        cases m with
        | done =>
            simp only [← List.append_assoc, bodies_append, bodies_cons_done, bodies_nil,
              List.append_nil] at hforwarded ⊢
            rw [← hforwarded]
            split
            · next hdc =>
              rw [hdc]
              rfl
            · rfl
        | item a =>
            -- what a co-editor holds is of its own category
            have hcategory : a.category = c := (hdesk a (by simp)).1
            rw [← List.append_assoc, bodies_append, List.countP_append, ← hforwarded]
            split
            · next hdc => simp [hdc, hcategory, CoEditor.handedOver]
            · next hdc => simp [hcategory, Ne.symm hdc]

/-- What the screen manager has counted stays true with every step. -/
theorem Step.truthful {α : Type} [Payload α] {f f' : Floor ρ α} {a : Actor}
    (h : f.screen.Truthful sink) (hstep : Step sink f a f') : f'.screen.Truthful sink := by
  cases hstep with
  | display hphase hm => exact h.took hphase _
  | finish hphase => exact h.close hphase
  | _ => exact h

private theorem Counted.step_screen (h : f.Counted sink) (hstep : Step sink f .screen f') :
    f'.Counted sink := by
  cases hstep with
  | @display m r hphase hm =>
      obtain ⟨hitems, -⟩ := Queue.items_remove? hm
      refine { h with screen := h.screen.took hphase m, forwarded := ?_ }
      intro d
      rw [show f.coEditors = _ from rfl, h.forwarded d]
      cases m with
      | done => simp [traffic, hitems, Screen.took_done_fst]
      | item a => simp [traffic, hitems, Screen.took_item_fst sink _ hphase]
  | finish hphase =>
      refine { h with screen := h.screen.close hphase, forwarded := ?_ }
      intro d
      refine (h.forwarded d).trans ?_
      simp [traffic, Screen.close_fst sink _ hphase]

/-- The counts stay true with every step. -/
theorem Counted.step {a : Actor} (h : f.Counted sink) (hflow : f.Flowing) (horder : f.Orderly)
    (hstep : Step sink f a f') : f'.Counted sink := by
  cases a with
  | screen => exact h.step_screen hstep
  | coEditor c => exact h.step_coEditor hflow hstep
  | dispatcher => exact h.step_dispatcher horder hstep
  | producer i => cases hstep <;> exact { h with }

end Newsroom.Floor
