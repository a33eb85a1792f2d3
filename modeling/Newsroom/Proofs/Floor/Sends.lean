import Newsroom.Proofs.Floor.Progress

/-!
# What the stages send

Each queue as one of its writers sees it, and what this writer has put into it since
the beginning of a run.

## Main Definitions

* `Channel` — a writer with the queue that it fills
* `Floor.send?` — what a stage puts into a queue with its next step
* `sentOn` — what was put in by one writer, of all that was put in
* `Floor.Delivered` — each queue holds the last of what was sent to it
* `Floor.Recorded` — a record of what was sent fits the end marks of the stages

## Main Statements

* `Step.moves`, `Step.queue_items` — a step puts in what `send?` says, and nothing
  else
* `Delivered.step` — what was sent to a queue leaves it in the same order
* `Recorded.step` — every writer sends one end mark at most, as the last thing

## Design Notes

The queue of a producer and that of a category have one writer, so that what was sent
on their channel is all that ever entered them.  The screen queue has a channel for
each co-editor.
-/

namespace Newsroom

/-- A queue as one of its writers sees it. -/
inductive Channel where
  | producer (i : Nat)
  | category (c : Category)
  | coEditor (c : Category)
  deriving DecidableEq, Repr

/-- The queue that a channel leads to. -/
def Channel.place : Channel → Place
  | .producer i => .source i
  | .category c => .category c
  | .coEditor _ => .screen

/-- What was sent on a channel, of all that was sent. -/
def sentOn {α : Type} (x : Channel) (sends : List (Channel × Message α)) : List (Message α) :=
  (sends.filter fun e => e.1 = x).map Prod.snd

@[simp] theorem sentOn_append {α : Type} (x : Channel) (es fs : List (Channel × Message α)) :
    sentOn x (es ++ fs) = sentOn x es ++ sentOn x fs := by
  simp [sentOn]

theorem sentOn_singleton {α : Type} (x y : Channel) (m : Message α) :
    sentOn x [(y, m)] = if y = x then [m] else [] := by
  by_cases h : y = x <;> simp [sentOn, h]

namespace Floor

variable {ρ α : Type}

/-- What a stage puts into a queue with its next step. -/
def send? [Payload α] (f : Floor ρ α) : Actor → Option (Channel × Message α)
  | .producer i => f.producers[i]?.bind fun p => p.held?.map fun m => (.producer i, m)
  | .dispatcher =>
      match f.dispatcher.phase with
      | .routing _ c body => some (.category c, .item body)
      | .closing c _ => some (.category c, .done)
      | _ => none
  | .coEditor c =>
      match (f.coEditors.get c).phase with
      | .holding m => some (.coEditor c, m)
      | _ => none
  | .screen => none

/-- The end marks that were sent on a channel, as its writer knows. -/
def marksOn (f : Floor ρ α) : Channel → Nat
  | .producer i => (f.producers[i]?.map Producer.sent).getD 0
  | .category c => f.dispatcher.sent c
  | .coEditor c => (f.coEditors.get c).sent

variable [CategorySource ρ] [Payload α] {sink : Sink} {f f' : Floor ρ α}

/-- What a step sends: nothing, and then no writer counts a further mark, or one
message on a channel that has not been closed. -/
inductive Sends (f f' : Floor ρ α) : Option (Channel × Message α) → Prop
  | nothing (hmarks : ∀ x, f'.marksOn x = f.marksOn x) : Sends f f' none
  | message (x : Channel) (m : Message α) (hopen : f.marksOn x = 0)
      (hmark : f'.marksOn x = if m.isDone then 1 else 0)
      (hother : ∀ y, y ≠ x → f'.marksOn y = f.marksOn y) : Sends f f' (some (x, m))

omit [CategorySource ρ] [Payload α] in
/-- The marks of the producers when one of them changes. -/
private theorem marksOn_producer (f f' : Floor ρ α) {i : Nat} {p p' : Producer ρ}
    (hp : f.producers[i]? = some p) (hproducers : f'.producers = f.producers.set i p')
    (hdispatcher : f'.dispatcher = f.dispatcher) (hcoEditors : f'.coEditors = f.coEditors) :
    f.marksOn (.producer i) = p.sent ∧ f'.marksOn (.producer i) = p'.sent ∧
      ∀ y, y ≠ .producer i → f'.marksOn y = f.marksOn y := by
  have hset := fun j => getElem?_set_of_some hp p' j
  refine ⟨by simp [marksOn, hp], by simp [marksOn, hproducers, hset], fun y hy => ?_⟩
  cases y with
  | producer j =>
      have hji : j ≠ i := fun h => hy (h ▸ rfl)
      simp [marksOn, hproducers, hset, hji]
  | category c => simp [marksOn, hdispatcher]
  | coEditor c => simp [marksOn, hcoEditors]

private theorem sends_producer {i : Nat} (hstep : Step sink f (.producer i) f') :
    Sends f f' (f.send? (.producer i)) := by
  cases hstep with
  | @write _ p hp hphase =>
      have hsend : f.send? (.producer i) = none := by
        simp [send?, hp, Producer.held?, hphase]
      have hsent : p.sent = 0 := by simp [Producer.sent, hphase]
      obtain ⟨hbefore, hafter, hother⟩ := marksOn_producer f
        { f with producers := f.producers.set i p.write } hp rfl rfl rfl
      rw [hsend]
      apply Sends.nothing
      intro x
      by_cases hx : x = .producer i
      · rw [hx, hafter, hbefore, Producer.sent_write, hsent]
      · exact hother x hx
  | @handOver _ p m q r hp hheld hq hroom =>
      have hsend : f.send? (.producer i) = some (.producer i, m) := by simp [send?, hp, hheld]
      obtain ⟨hbefore, hafter, hother⟩ := marksOn_producer f
        { f with producers := f.producers.set i p.handedOver, sources := f.sources.set i r }
        hp rfl rfl rfl
      rw [hsend]
      rcases Producer.held?_cases hheld with ⟨a, -, rfl, hsent, hsent'⟩ | ⟨-, rfl, hsent, hsent'⟩
      · exact .message _ _ (hbefore.trans hsent) (hafter.trans hsent') hother
      · exact .message _ _ (hbefore.trans hsent) (hafter.trans hsent') hother

omit [CategorySource ρ] [Payload α] in
/-- The marks when only the dispatcher changes and has sent as many as before. -/
private theorem marksOn_dispatcher {f f' : Floor ρ α} (hproducers : f'.producers = f.producers)
    (hcoEditors : f'.coEditors = f.coEditors) {x : Channel}
    (hsent : ∀ c, x = .category c → f'.dispatcher.sent c = f.dispatcher.sent c) :
    f'.marksOn x = f.marksOn x := by
  cases x with
  | producer j => simp [marksOn, hproducers]
  | category c => exact hsent c rfl
  | coEditor c => simp [marksOn, hcoEditors]

private theorem sends_dispatcher (h : f.Orderly) (hstep : Step sink f .dispatcher f') :
    Sends f f' (f.send? .dispatcher) := by
  -- all steps but the last come before the first end mark
  have hquiet : (∀ c, f.dispatcher.sent c = 0) → (∀ c, f'.dispatcher.sent c = 0) →
      ∀ x, f'.marksOn x = f.marksOn x := fun hd hd' x =>
    marksOn_dispatcher (by cases hstep <;> rfl) (by cases hstep <;> rfl)
      fun c _ => (hd' c).trans (hd c).symm
  cases hstep with
  | miss hphase hq hempty =>
      simp only [send?, hphase]
      exact .nothing
        (hquiet (by simp [Dispatcher.sent, hphase]) (Dispatcher.held_sent_afterPoll _ _).2)
  | takeDone hphase hq hm =>
      simp only [send?, hphase]
      exact .nothing
        (hquiet (by simp [Dispatcher.sent, hphase]) (Dispatcher.held_sent_afterPoll _ _).2)
  | takeItem hphase hq hm hc =>
      simp only [send?, hphase]
      exact .nothing (hquiet (by simp [Dispatcher.sent, hphase]) fun _ => rfl)
  | drop hphase hq hm hc =>
      simp only [send?, hphase]
      exact .nothing
        (hquiet (by simp [Dispatcher.sent, hphase]) (Dispatcher.held_sent_afterPoll _ _).2)
  | check hphase hq =>
      simp only [send?, hphase]
      exact .nothing (hquiet (by simp [Dispatcher.sent, hphase])
        (Dispatcher.held_sent_of_scan rfl).2)
  | @route i c body r hphase hroom =>
      have hnone : ∀ c, f.dispatcher.sent c = 0 := by simp [Dispatcher.sent, hphase]
      have hnone' : ∀ c', ((f.dispatcher.bumpRouted c).afterPoll i).sent c' = 0 :=
        (Dispatcher.held_sent_afterPoll _ _).2
      simp only [send?, hphase]
      exact .message _ _ (hnone c) (hnone' c) fun y _ => hquiet hnone hnone' y
  | @close c cs r hphase hroom =>
      have hsent := h.steady.sent_closed hphase
      simp only [send?, hphase]
      refine .message _ _ (hsent c).1 (by simp [marksOn, hsent]) fun y hy => ?_
      refine marksOn_dispatcher (by rfl) (by rfl) fun e hye => ?_
      have hec : e ≠ c := fun h => hy (h ▸ hye)
      simp [hsent, hec]

private theorem sends_coEditor {c : Category} (hstep : Step sink f (.coEditor c) f') :
    Sends f f' (f.send? (.coEditor c)) := by
  cases hstep with
  | @take _ m r hphase hm =>
      simp only [send?, hphase]
      apply Sends.nothing
      intro x
      cases x with
      | coEditor e =>
          simp only [marksOn, ByCategory.get_set]
          split
          · next hec => simp [hec, CoEditor.sent, CoEditor.took, hphase]
          · rfl
      | producer j => rfl
      | category e => rfl
  | @forward _ m r hphase hroom =>
      simp only [send?, hphase]
      refine .message _ _ (by simp [marksOn, CoEditor.sent, hphase]) ?_ fun y hy => ?_
      · cases m <;> simp [marksOn, CoEditor.sent, CoEditor.handedOver]
      · cases y with
        | coEditor e =>
            have hec : e ≠ c := fun h => hy (h ▸ rfl)
            simp [marksOn, ByCategory.get_set_of_ne _ hec]
        | producer j => rfl
        | category e => rfl

/-- What a step sends. -/
theorem Step.sends {a : Actor} (h : f.Orderly) (hstep : Step sink f a f') :
    Sends f f' (f.send? a) := by
  cases a with
  | screen =>
      apply Sends.nothing
      intro x
      cases hstep <;> cases x <;> rfl
  | coEditor c => exact sends_coEditor hstep
  | dispatcher => exact sends_dispatcher h hstep
  | producer i => exact sends_producer hstep

/-! ### Queues -/

omit [CategorySource ρ] [Payload α] in
theorem queue?_setQueue {p : Place} {q : Queue (Message α)} (hq : f.queue? p = some q)
    (r : Queue (Message α)) (p' : Place) :
    (f.setQueue p r).queue? p' = if p' = p then some r else f.queue? p' := by
  cases p with
  | source i =>
      cases p' with
      | source j => simpa [queue?, setQueue] using getElem?_set_of_some hq r j
      | category c => rfl
      | screen => rfl
  | category c =>
      cases p' with
      | source j => rfl
      | category d => by_cases hdc : d = c <;> simp [queue?, setQueue, ByCategory.get_set, hdc]
      | screen => rfl
  | screen => cases p' <;> rfl

/-- What a step does to the queues. -/
inductive Moves (f f' : Floor ρ α) : Option (Channel × Message α) → Prop
  /-- Nothing enters or leaves a queue. -/
  | none (hqueues : ∀ p, f'.queue? p = f.queue? p) : Moves f f' none
  /-- The message that is sent enters the queue of its channel. -/
  | enters (x : Channel) (m : Message α) (q r : Queue (Message α)) (hq : f.queue? x.place = some q)
      (hm : q.insert? m = some r) (hqueues : ∀ p, f'.queue? p = (f.setQueue x.place r).queue? p) :
      Moves f f' (some (x, m))
  /-- A message leaves a queue. -/
  | leaves (p : Place) (m : Message α) (q r : Queue (Message α)) (hq : f.queue? p = some q)
      (hm : q.remove? = some (m, r)) (hqueues : ∀ p', f'.queue? p' = (f.setQueue p r).queue? p') :
      Moves f f' none

/-- Only what a stage sends enters a queue, and it enters the queue of its
channel. -/
theorem Step.moves {a : Actor} (hstep : Step sink f a f') : Moves f f' (f.send? a) := by
  cases hstep with
  | @write i p hp hphase =>
      have hsend : f.send? (.producer i) = none := by
        simp [send?, hp, Producer.held?, hphase]
      rw [hsend]
      exact .none fun p => by cases p <;> rfl
  | @handOver i p m q r hp hheld hq hroom =>
      have hsend : f.send? (.producer i) = some (.producer i, m) := by simp [send?, hp, hheld]
      rw [hsend]
      exact .enters (.producer i) m q r hq hroom fun p => by cases p <;> rfl
  | miss hphase hq hempty =>
      simp only [send?, hphase]
      exact .none fun p => by cases p <;> rfl
  | @takeDone i q r hphase hq hm =>
      simp only [send?, hphase]
      exact .leaves (.source i) .done q r hq hm fun p => by cases p <;> rfl
  | @takeItem i q r body c hphase hq hm hc =>
      simp only [send?, hphase]
      exact .leaves (.source i) (.item body) q r hq hm fun p => by cases p <;> rfl
  | @drop i q r body hphase hq hm hc =>
      simp only [send?, hphase]
      exact .leaves (.source i) (.item body) q r hq hm fun p => by cases p <;> rfl
  | @route i c body r hphase hroom =>
      simp only [send?, hphase]
      exact .enters (.category c) (.item body) _ r rfl hroom fun p => by cases p <;> rfl
  | check hphase hq =>
      simp only [send?, hphase]
      exact .none fun p => by cases p <;> rfl
  | @close c cs r hphase hroom =>
      simp only [send?, hphase]
      exact .enters (.category c) .done _ r rfl hroom fun p => by cases p <;> rfl
  | @take c m r hphase hm =>
      simp only [send?, hphase]
      exact .leaves (.category c) m _ r rfl hm fun p => by cases p <;> rfl
  | @forward c m r hphase hroom =>
      simp only [send?, hphase]
      exact .enters (.coEditor c) m _ r rfl hroom fun p => by cases p <;> rfl
  | @display m r hphase hm =>
      exact .leaves .screen m _ r rfl hm fun p => by cases p <;> rfl
  | finish hphase => exact .none fun p => by cases p <;> rfl

/-- What enters a queue with a message that is sent. -/
def arriving (p : Place) (sent : Option (Channel × Message α)) : List (Message α) :=
  (sent.toList.filter fun e => e.1.place = p).map Prod.snd

/-- A queue after a step ends with what was sent to it, or else has at most lost its
first message. -/
theorem Step.queue_items {a : Actor} (hstep : Step sink f a f') {p : Place}
    {q q' : Queue (Message α)} (hq : f.queue? p = some q) (hq' : f'.queue? p = some q') :
    q'.items = q.items ++ arriving p (f.send? a) ∨
      arriving p (f.send? a) = [] ∧ ∃ m, q.items = m :: q'.items := by
  have hmoves := hstep.moves
  generalize f.send? a = sent at hmoves ⊢
  cases hmoves with
  | none hqueues =>
      rw [hqueues, hq] at hq'
      cases hq'
      exact .inl (by simp [arriving])
  | enters x m q₀ r hq₀ hm hqueues =>
      rw [hqueues, queue?_setQueue hq₀] at hq'
      by_cases hp : p = x.place
      · rw [if_pos hp] at hq'
        rw [hp, hq₀] at hq
        cases hq
        cases hq'
        exact .inl (by simp [arriving, hp, (Queue.items_insert? hm).1])
      · rw [if_neg hp, hq] at hq'
        cases hq'
        exact .inl (by simp [arriving, Ne.symm hp])
  | leaves p₀ m q₀ r hq₀ hm hqueues =>
      rw [hqueues, queue?_setQueue hq₀] at hq'
      by_cases hp : p = p₀
      · rw [if_pos hp] at hq'
        rw [hp, hq₀] at hq
        cases hq
        cases hq'
        exact .inr ⟨rfl, m, (Queue.items_remove? hm).1⟩
      · rw [if_neg hp, hq] at hq'
        cases hq'
        exact .inl (by simp [arriving])

/-- No step makes a queue. -/
theorem Step.exists_queue {a : Actor} (hstep : Step sink f a f') {p : Place}
    {q' : Queue (Message α)} (hq' : f'.queue? p = some q') : ∃ q, f.queue? p = some q := by
  have hmoves := hstep.moves
  generalize f.send? a = sent at hmoves
  cases hmoves with
  | none hqueues => exact ⟨q', hqueues p ▸ hq'⟩
  | enters x m q₀ r hq₀ hm hqueues =>
      rw [hqueues, queue?_setQueue hq₀] at hq'
      by_cases hp : p = x.place
      · exact ⟨q₀, hp ▸ hq₀⟩
      · exact ⟨q', (if_neg hp).symm.trans hq'⟩
  | leaves p₀ m q₀ r hq₀ hm hqueues =>
      rw [hqueues, queue?_setQueue hq₀] at hq'
      by_cases hp : p = p₀
      · exact ⟨q₀, hp ▸ hq₀⟩
      · exact ⟨q', (if_neg hp).symm.trans hq'⟩

/-- All that has entered a queue, of all that was sent. -/
def arrivals (p : Place) (sends : List (Channel × Message α)) : List (Message α) :=
  sends.flatMap fun e => arriving p (some e)

/-- Each queue holds the last of what has entered it. -/
def Delivered (f : Floor ρ α) (sends : List (Channel × Message α)) : Prop :=
  ∀ (p : Place) (q : Queue (Message α)), f.queue? p = some q → q.items <:+ arrivals p sends

omit [CategorySource ρ] [Payload α] in
theorem Fresh.delivered (h : f.Fresh) : f.Delivered [] := by
  intro p q hq
  have hempty : q.items = [] := by
    cases p with
    | source i => exact (h.sources q (List.mem_of_getElem? hq)).1
    | category c =>
        cases hq
        exact (h.categories c).1
    | screen =>
        cases hq
        exact h.screenQueue.1
  rw [hempty]
  exact List.nil_suffix

/-- Queues are first in, first out. -/
theorem Delivered.step {a : Actor} {sends : List (Channel × Message α)} (h : f.Delivered sends)
    (hstep : Step sink f a f') : f'.Delivered (sends ++ (f.send? a).toList) := by
  intro p q' hq'
  obtain ⟨q, hq⟩ := hstep.exists_queue hq'
  obtain ⟨taken, htaken⟩ := h p q hq
  have harrivals : arrivals p (sends ++ (f.send? a).toList) =
      arrivals p sends ++ arriving p (f.send? a) := by
    cases f.send? a <;> simp [arrivals, arriving]
  rw [harrivals]
  rcases hstep.queue_items hq hq' with hlonger | ⟨hnone, m, hshorter⟩
  · exact ⟨taken, by rw [hlonger, ← List.append_assoc, htaken]⟩
  · refine ⟨taken ++ [m], ?_⟩
    rw [hnone, List.append_nil, ← htaken, hshorter, List.append_assoc]
    rfl

/-! ### Records -/

/-- On every channel that is recorded the writer has sent one end mark at most, and
nothing after it. -/
def Recorded (f : Floor ρ α) (sends : List (Channel × Message α)) : Prop :=
  ∀ x, Link 1 (f.marksOn x) 0 (sentOn x sends)

omit [CategorySource ρ] [Payload α] in
theorem Fresh.recorded (h : f.Fresh) : f.Recorded [] := by
  intro x
  have hzero : f.marksOn x = 0 := by
    cases x with
    | producer i =>
        cases hp : f.producers[i]? with
        | none => simp [marksOn, hp]
        | some p => simp [marksOn, hp, Producer.sent, (h.producers i p hp).2.1]
    | category c =>
        simp only [marksOn, h.dispatcher]
        exact (Dispatcher.held_sent_of_scan (Dispatcher.phase_start _)).2 c
    | coEditor c => simp [marksOn, h.coEditors, CoEditor.sent]
  rw [hzero]
  exact Link.empty 1

omit [CategorySource ρ] in
/-- A floor on which nothing is left has nothing to send. -/
theorem Drained.send?_eq_none (h : f.Drained) (a : Actor) : f.send? a = none := by
  cases a with
  | screen => rfl
  | coEditor c => simp [send?, h.coEditors]
  | dispatcher => simp [send?, h.dispatcher]
  | producer i =>
      cases hp : f.producers[i]? with
      | none => simp [send?, hp]
      | some p => simp [send?, hp, Producer.held?, h.producers p (List.mem_of_getElem? hp)]

/-- A step keeps the record together with what it sends. -/
theorem Recorded.step {a : Actor} {sends : List (Channel × Message α)} (h : f.Recorded sends)
    (horder : f.Orderly) (hstep : Step sink f a f') :
    f'.Recorded (sends ++ (f.send? a).toList) := by
  have hsends := hstep.sends horder
  intro x
  have hlink := h x
  generalize f.send? a = sent at hsends ⊢
  cases hsends with
  | nothing hmarks =>
      rw [hmarks]
      simpa using hlink
  | message y m hopen hmark hother =>
      rw [Option.toList_some, sentOn_append, sentOn_singleton]
      by_cases hyx : y = x
      · subst hyx
        rw [hopen] at hlink
        rw [if_pos rfl, hmark]
        cases m with
        | item body => exact hlink.insert_item (by decide) body
        | done => exact hlink.insert_done (by decide)
      · rw [if_neg hyx, List.append_nil, hother x (Ne.symm hyx)]
        exact hlink

end Floor

end Newsroom
