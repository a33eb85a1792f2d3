import Newsroom.Pipeline.Floor

/-!
# The steps of a floor

Every step that a stage can take, with what it needs and with all that it changes.

## Main Definitions

* `Floor.Step` — the steps as a relation, one constructor for each kind

## Main Statements

* `step?_eq_some_iff` — the relation is the step function
* `Step.standing_of_ne`, `Step.standing_of_ended` — a step changes no other stage, and
  a stage that has ended stays as it is
* `Step.source_of_ne`, `Step.with_producers` — what a step leaves to the producers

## Design Notes

A proof about all steps goes through the constructors of `Step` and does not open
the step function.  The fields that a constructor does not mention stay as they
are.
-/

namespace Newsroom

/-- A text of no category is counted. -/
def Dispatcher.discard {α : Type} (d : Dispatcher α) : Dispatcher α :=
  { d with report := { d.report with dropped := d.report.dropped + 1 } }

/-- A text that went to the queue of a category is counted. -/
def Dispatcher.bumpRouted {α : Type} (d : Dispatcher α) (c : Category) : Dispatcher α :=
  { d with report := { d.report with routed := d.report.routed.bump c } }

namespace Floor

variable {ρ α : Type} [CategorySource ρ] [Payload α]

/-- What a stage does in one step. -/
inductive Step (sink : Sink) (f : Floor ρ α) : Actor → Floor ρ α → Prop
  /-- A producer writes its next message. -/
  | write {i : Nat} {p : Producer ρ} (hp : f.producers[i]? = some p)
      (hphase : p.phase = .writing) :
      Step sink f (.producer i) { f with producers := f.producers.set i p.write }
  /-- A producer puts the message that it holds into its queue. -/
  | handOver {i : Nat} {p : Producer ρ} {m : Message α} {q r : Queue (Message α)}
      (hp : f.producers[i]? = some p) (hheld : p.held? = some m)
      (hq : f.sources[i]? = some q) (hroom : q.insert? m = some r) :
      Step sink f (.producer i)
        { f with producers := f.producers.set i p.handedOver, sources := f.sources.set i r }
  /-- The dispatcher finds no message in a source. -/
  | miss {i : Nat} {q : Queue (Message α)} (hphase : f.dispatcher.phase = .polling i)
      (hq : f.sources[i]? = some q) (hempty : q.items = []) :
      Step sink f .dispatcher { f with dispatcher := f.dispatcher.afterPoll i }
  /-- The dispatcher takes an end mark. -/
  | takeDone {i : Nat} {q r : Queue (Message α)} (hphase : f.dispatcher.phase = .polling i)
      (hq : f.sources[i]? = some q) (hm : q.remove? = some (.done, r)) :
      Step sink f .dispatcher
        { f with
          sources := f.sources.set i r
          dispatcher := (f.dispatcher.receiveDone i).afterPoll i
          events := f.events ++ (f.dispatcher.polled i q.name (some .done)).2 }
  /-- The dispatcher takes a text of some category. -/
  | takeItem {i : Nat} {q r : Queue (Message α)} {body : α} {c : Category}
      (hphase : f.dispatcher.phase = .polling i) (hq : f.sources[i]? = some q)
      (hm : q.remove? = some (.item body, r))
      (hc : Category.classify (Payload.text body) = some c) :
      Step sink f .dispatcher
        { f with
          sources := f.sources.set i r
          dispatcher := { f.dispatcher with phase := .routing i c body } }
  /-- The dispatcher takes a text of no category and drops it. -/
  | drop {i : Nat} {q r : Queue (Message α)} {body : α}
      (hphase : f.dispatcher.phase = .polling i) (hq : f.sources[i]? = some q)
      (hm : q.remove? = some (.item body, r))
      (hc : Category.classify (Payload.text body) = none) :
      Step sink f .dispatcher
        { f with
          sources := f.sources.set i r
          dispatcher := f.dispatcher.discard.afterPoll i
          events := f.events ++ [.dropped (Payload.text body)] }
  /-- The dispatcher puts a text into the queue of its category. -/
  | route {i : Nat} {c : Category} {body : α} {r : Queue (Message α)}
      (hphase : f.dispatcher.phase = .routing i c body)
      (hroom : (f.categories.get c).insert? (.item body) = some r) :
      Step sink f .dispatcher
        { f with
          categories := f.categories.set c r
          dispatcher := (f.dispatcher.bumpRouted c).afterPoll i }
  /-- The dispatcher sees whether a source is empty. -/
  | check {i : Nat} {q : Queue (Message α)} (hphase : f.dispatcher.phase = .checking i)
      (hq : f.sources[i]? = some q) :
      Step sink f .dispatcher { f with dispatcher := f.dispatcher.checked i q.isEmpty }
  /-- The dispatcher puts an end mark into the queue of a category. -/
  | close {c : Category} {cs : List Category} {r : Queue (Message α)}
      (hphase : f.dispatcher.phase = .closing c cs)
      (hroom : (f.categories.get c).insert? .done = some r) :
      Step sink f .dispatcher
        { f with
          categories := f.categories.set c r
          dispatcher := (f.dispatcher.closed cs).1
          events := f.events ++ (f.dispatcher.closed cs).2 }
  /-- A co-editor takes a message. -/
  | take {c : Category} {m : Message α} {r : Queue (Message α)}
      (hphase : (f.coEditors.get c).phase = .waiting)
      (hm : (f.categories.get c).remove? = some (m, r)) :
      Step sink f (.coEditor c)
        { f with
          categories := f.categories.set c r
          coEditors := f.coEditors.set c ((f.coEditors.get c).took m) }
  /-- A co-editor puts its message into the screen queue. -/
  | forward {c : Category} {m : Message α} {r : Queue (Message α)}
      (hphase : (f.coEditors.get c).phase = .holding m)
      (hroom : f.screenQueue.insert? m = some r) :
      Step sink f (.coEditor c)
        { f with
          screenQueue := r
          coEditors := f.coEditors.set c ((f.coEditors.get c).handedOver m) }
  /-- The screen manager takes a message, and shows it if it is a text. -/
  | display {m : Message α} {r : Queue (Message α)} (hphase : f.screen.phase = .waiting)
      (hm : f.screenQueue.remove? = some (m, r)) :
      Step sink f .screen
        { f with
          screenQueue := r
          screen := (f.screen.took sink m).1
          events := f.events ++ (f.screen.took sink m).2 }
  /-- The screen manager shows its last line. -/
  | finish (hphase : f.screen.phase = .closing) :
      Step sink f .screen
        { f with
          screen := (f.screen.close sink).1
          events := f.events ++ (f.screen.close sink).2 }

/-! ### The relation and the function -/

variable {sink : Sink} {f f' : Floor ρ α}

omit [CategorySource ρ] [Payload α] in
/-- An insertion into a queue of the floor, taken apart. -/
theorem insert?_eq_some_iff {p : Place} {m : Message α} :
    f.insert? p m = some f' ↔
      ∃ q r, f.queue? p = some q ∧ q.insert? m = some r ∧ f.setQueue p r = f' := by
  simp only [insert?, Option.map_eq_some_iff, Option.bind_eq_some_iff]
  constructor
  · rintro ⟨r, ⟨q, hq, hr⟩, rfl⟩
    exact ⟨q, r, hq, hr, rfl⟩
  · rintro ⟨q, r, hq, hr, rfl⟩
    exact ⟨r, ⟨q, hq, hr⟩, rfl⟩

omit [CategorySource ρ] [Payload α] in
/-- An insertion changes no stage. -/
theorem insert?_kept {p : Place} {m : Message α} (h : f.insert? p m = some f') :
    f'.producers = f.producers ∧ f'.dispatcher = f.dispatcher ∧ f'.coEditors = f.coEditors ∧
      f'.screen = f.screen := by
  obtain ⟨q, r, -, -, rfl⟩ := insert?_eq_some_iff.1 h
  cases p <;> exact ⟨rfl, rfl, rfl, rfl⟩

omit [CategorySource ρ] [Payload α] in
/-- An insertion leaves the seed of the draws as it is. -/
theorem seed_of_insert? {p : Place} {m : Message α} (h : f.insert? p m = some f') :
    f'.seed = f.seed := by
  obtain ⟨q, r, -, -, rfl⟩ := insert?_eq_some_iff.1 h
  cases p <;> rfl

/-- A step leaves the seed of the draws as it is. -/
theorem Step.seed {a : Actor} (h : Step sink f a f') : f'.seed = f.seed := by
  cases h <;> rfl

omit [CategorySource ρ] [Payload α] in
/-- A removal from a queue of the floor, taken apart. -/
theorem remove?_eq_some_iff {p : Place} {m : Message α} :
    f.remove? p = some (m, f') ↔
      ∃ q r, f.queue? p = some q ∧ q.remove? = some (m, r) ∧ f.setQueue p r = f' := by
  simp only [remove?, Option.map_eq_some_iff, Option.bind_eq_some_iff, Prod.mk.injEq]
  constructor
  · rintro ⟨⟨m', r⟩, ⟨q, hq, hr⟩, rfl, rfl⟩
    exact ⟨q, r, hq, hr, rfl⟩
  · rintro ⟨q, r, hq, hr, rfl⟩
    exact ⟨(m, r), ⟨q, hq, hr⟩, rfl, rfl⟩

private theorem step_of_stepProducer? {i : Nat} (h : f.stepProducer? i = some f') :
    Step sink f (.producer i) f' := by
  obtain ⟨p, hp, h⟩ := Option.bind_eq_some_iff.1 h
  split at h
  · next m hheld =>
    obtain ⟨g, hinsert, rfl⟩ := Option.map_eq_some_iff.1 h
    obtain ⟨q, r, hq, hroom, rfl⟩ := insert?_eq_some_iff.1 hinsert
    exact .handOver hp hheld hq hroom
  · next hheld =>
    cases hphase : p.phase with
    | writing =>
        simp only [Producer.isFinished, hphase, reduceCtorEq, decide_false, Bool.false_eq_true,
          if_false, Option.some.injEq] at h
        subst h
        exact .write hp hphase
    | holding a => simp [Producer.held?, hphase] at hheld
    | closing => simp [Producer.held?, hphase] at hheld
    | finished => simp [Producer.isFinished, hphase] at h

private theorem step_of_poll? {i : Nat} (hphase : f.dispatcher.phase = .polling i)
    (h : f.poll? i = some f') : Step sink f .dispatcher f' := by
  obtain ⟨q, hq, h⟩ := Option.map_eq_some_iff.1 h
  cases hm : q.remove? with
  | none =>
      rw [hm] at h
      subst h
      have hempty : q.items = [] := by
        unfold Queue.remove? at hm
        split at hm
        · assumption
        · cases hm
      have hstep : Step sink f .dispatcher _ := .miss hphase hq hempty
      simpa [log, Dispatcher.polled] using hstep
  | some e =>
      obtain ⟨m, r⟩ := e
      rw [hm] at h
      subst h
      cases m with
      | done => exact .takeDone hphase hq hm
      | item body =>
          cases hc : Category.classify (Payload.text body) with
          | some c =>
              have hstep : Step sink f .dispatcher _ := .takeItem hphase hq hm hc
              simpa [log, setQueue, Dispatcher.polled, hc] using hstep
          | none =>
              have hstep : Step sink f .dispatcher _ := .drop hphase hq hm hc
              simpa [log, setQueue, Dispatcher.polled, Dispatcher.discard, hc] using hstep

private theorem step_of_stepDispatcher? (h : f.stepDispatcher? = some f') :
    Step sink f .dispatcher f' := by
  unfold stepDispatcher? at h
  split at h
  · next i hphase => exact step_of_poll? hphase h
  · next i c body hphase =>
    obtain ⟨g, hinsert, rfl⟩ := Option.map_eq_some_iff.1 h
    obtain ⟨q, r, hq, hroom, rfl⟩ := insert?_eq_some_iff.1 hinsert
    cases hq
    exact .route hphase hroom
  · next i hphase =>
    obtain ⟨q, hq, rfl⟩ := Option.map_eq_some_iff.1 h
    exact .check hphase hq
  · next c cs hphase =>
    obtain ⟨g, hinsert, rfl⟩ := Option.map_eq_some_iff.1 h
    obtain ⟨q, r, hq, hroom, rfl⟩ := insert?_eq_some_iff.1 hinsert
    cases hq
    exact .close hphase hroom
  · cases h

private theorem step_of_stepCoEditor? {c : Category} (h : f.stepCoEditor? c = some f') :
    Step sink f (.coEditor c) f' := by
  cases hphase : (f.coEditors.get c).phase with
  | waiting =>
      simp only [stepCoEditor?, hphase] at h
      obtain ⟨⟨m, g⟩, hremove, rfl⟩ := Option.map_eq_some_iff.1 h
      obtain ⟨q, r, hq, hm, rfl⟩ := remove?_eq_some_iff.1 hremove
      cases hq
      exact .take hphase hm
  | holding m =>
      simp only [stepCoEditor?, hphase] at h
      obtain ⟨g, hinsert, rfl⟩ := Option.map_eq_some_iff.1 h
      obtain ⟨q, r, hq, hroom, rfl⟩ := insert?_eq_some_iff.1 hinsert
      cases hq
      exact .forward hphase hroom
  | finished => simp [stepCoEditor?, hphase] at h

private theorem step_of_stepScreen? (h : f.stepScreen? sink = some f') :
    Step sink f .screen f' := by
  unfold stepScreen? at h
  split at h
  · next hphase =>
    obtain ⟨⟨m, g⟩, hremove, rfl⟩ := Option.map_eq_some_iff.1 h
    obtain ⟨q, r, hq, hm, rfl⟩ := remove?_eq_some_iff.1 hremove
    cases hq
    exact .display hphase hm
  · next hphase =>
    cases h
    exact .finish hphase
  · cases h
  · cases h

/-- What the relation allows the step function does. -/
theorem Step.step?_eq {a : Actor} (h : Step sink f a f') : f.step? sink a = some f' := by
  cases h with
  | write hp hphase =>
      simp [step?, stepProducer?, hp, Producer.held?, Producer.isFinished, hphase]
  | handOver hp hheld hq hroom =>
      simp [step?, stepProducer?, hp, hheld, insert?, queue?, hq, hroom, setQueue]
  | miss hphase hq hempty =>
      simp [step?, stepDispatcher?, hphase, poll?, hq, Queue.remove?, hempty, log,
        Dispatcher.polled]
  | takeDone hphase hq hm =>
      simp [step?, stepDispatcher?, hphase, poll?, hq, hm, log, setQueue, Dispatcher.polled]
  | takeItem hphase hq hm hc =>
      simp [step?, stepDispatcher?, hphase, poll?, hq, hm, log, setQueue, Dispatcher.polled, hc]
  | drop hphase hq hm hc =>
      simp [step?, stepDispatcher?, hphase, poll?, hq, hm, log, setQueue, Dispatcher.polled,
        Dispatcher.discard, hc]
  | route hphase hroom =>
      simp [step?, stepDispatcher?, hphase, insert?, queue?, hroom, setQueue, Dispatcher.routed,
        Dispatcher.bumpRouted]
  | check hphase hq => simp [step?, stepDispatcher?, hphase, hq]
  | close hphase hroom =>
      simp [step?, stepDispatcher?, hphase, insert?, queue?, hroom, setQueue, log]
  | take hphase hm => simp [step?, stepCoEditor?, hphase, remove?, queue?, hm, setQueue]
  | forward hphase hroom =>
      simp [step?, stepCoEditor?, hphase, insert?, queue?, hroom, setQueue]
  | display hphase hm => simp [step?, stepScreen?, hphase, remove?, queue?, hm, setQueue, log]
  | finish hphase => simp [step?, stepScreen?, hphase, log]

/-- The step function takes exactly the steps of the relation. -/
theorem step?_eq_some_iff {a : Actor} : f.step? sink a = some f' ↔ Step sink f a f' := by
  refine ⟨fun h => ?_, Step.step?_eq⟩
  cases a with
  | screen => exact step_of_stepScreen? h
  | coEditor c => exact step_of_stepCoEditor? h
  | dispatcher => exact step_of_stepDispatcher? h
  | producer i => exact step_of_stepProducer? h

/-! ### What every step keeps -/

/-- No step adds or removes a producer or a source. -/
theorem Step.lengths {a : Actor} (hstep : Step sink f a f') :
    f'.producers.length = f.producers.length ∧ f'.sources.length = f.sources.length := by
  cases hstep <;> simp

theorem Step.actors_eq {a : Actor} (hstep : Step sink f a f') : f'.actors = f.actors := by
  rw [actors, actors, hstep.lengths.1]

omit [CategorySource ρ] [Payload α] in
theorem length_actors (f : Floor ρ α) : f.actors.length = f.producers.length + 5 := by
  simp [actors, Category.all]

/-- Only a stage that is at work takes a step. -/
theorem Step.standing_eq_working {a : Actor} (hstep : Step sink f a f') :
    f.standing a = .working := by
  cases hstep with
  | write hp hphase => simp [standing, hp, Producer.isFinished, hphase]
  | @handOver i p m q r hp hheld hq hroom =>
      have hphase : p.phase ≠ .finished := by
        intro hphase
        simp [Producer.held?, hphase] at hheld
      simp [standing, hp, Producer.isFinished, hphase]
  | miss hphase hq hempty => simp [standing, hphase]
  | takeDone hphase hq hm => simp [standing, hphase]
  | takeItem hphase hq hm hc => simp [standing, hphase]
  | drop hphase hq hm hc => simp [standing, hphase]
  | route hphase hroom => simp [standing, hphase]
  | check hphase hq => simp [standing, hphase]
  | close hphase hroom => simp [standing, hphase]
  | take hphase hm => simp [standing, hphase]
  | forward hphase hroom => simp [standing, hphase]
  | display hphase hm => simp [standing, hphase]
  | finish hphase => simp [standing, hphase]

/-- A step changes no other producer than that which takes it. -/
theorem Step.producer_of_ne {a : Actor} {i : Nat} (hstep : Step sink f a f')
    (hne : a ≠ .producer i) : f'.producers[i]? = f.producers[i]? := by
  cases hstep with
  | @write j p hp hphase => exact List.getElem?_set_ne fun h => hne (congrArg _ h)
  | @handOver j p m q r hp hheld hq hroom =>
      exact List.getElem?_set_ne fun h => hne (congrArg _ h)
  | _ => rfl

/-- A source that is empty stays as it is until its own producer takes a step. -/
theorem Step.source_of_ne {a : Actor} {i : Nat} {q : Queue (Message α)}
    (hstep : Step sink f a f') (hne : a ≠ .producer i) (hq : f.sources[i]? = some q)
    (hempty : q.items = []) : f'.sources[i]? = some q := by
  -- nothing can be taken from an empty queue
  have hother : ∀ (j : Nat) (q' r : Queue (Message α)) (m : Message α), f.sources[j]? = some q' →
      q'.remove? = some (m, r) → (f.sources.set j r)[i]? = some q := by
    intro j q' r m hq' hm
    by_cases hji : j = i
    · subst hji
      cases hq.symm.trans hq'
      rw [(Queue.items_remove? hm).1] at hempty
      cases hempty
    · rw [List.getElem?_set_ne hji, hq]
  cases hstep with
  | @handOver j p m q r hp hheld hq' hroom =>
      exact (List.getElem?_set_ne fun h => hne (congrArg _ h)).trans hq
  | takeDone hphase hq' hm => exact hother _ _ _ _ hq' hm
  | takeItem hphase hq' hm hc => exact hother _ _ _ _ hq' hm
  | drop hphase hq' hm hc => exact hother _ _ _ _ hq' hm
  | _ => exact hq

/-- A step of a stage other than a producer does not depend on the producers. -/
theorem Step.with_producers {a : Actor} (hstep : Step sink f a f') (hne : ∀ i, a ≠ .producer i)
    (ps : List (Producer ρ)) :
    f'.producers = f.producers ∧
      Step sink { f with producers := ps } a { f' with producers := ps } := by
  cases hstep with
  | write hp hphase => exact absurd rfl (hne _)
  | handOver hp hheld hq hroom => exact absurd rfl (hne _)
  | miss hphase hq hempty => exact ⟨rfl, .miss hphase hq hempty⟩
  | takeDone hphase hq hm => exact ⟨rfl, .takeDone hphase hq hm⟩
  | takeItem hphase hq hm hc => exact ⟨rfl, .takeItem hphase hq hm hc⟩
  | drop hphase hq hm hc => exact ⟨rfl, .drop hphase hq hm hc⟩
  | route hphase hroom => exact ⟨rfl, .route hphase hroom⟩
  | check hphase hq => exact ⟨rfl, .check hphase hq⟩
  | close hphase hroom => exact ⟨rfl, .close hphase hroom⟩
  | take hphase hm => exact ⟨rfl, .take hphase hm⟩
  | forward hphase hroom => exact ⟨rfl, .forward hphase hroom⟩
  | display hphase hm => exact ⟨rfl, .display hphase hm⟩
  | finish hphase => exact ⟨rfl, .finish hphase⟩

/-- A step changes no other stage than its own. -/
theorem Step.standing_of_ne {a b : Actor} (hstep : Step sink f a f') (hba : b ≠ a) :
    f'.standing b = f.standing b := by
  -- co-editors and producers are stored together, and told apart by their index
  cases b with
  | screen => cases hstep <;> first | rfl | exact absurd rfl hba
  | dispatcher => cases hstep <;> first | rfl | exact absurd rfl hba
  | coEditor c =>
      have hsame : f'.coEditors.get c = f.coEditors.get c := by
        cases hstep with
        | @take d m r hphase hm => exact ByCategory.get_set_of_ne _ (fun h => hba (congrArg _ h)) _
        | @forward d m r hphase hroom =>
            exact ByCategory.get_set_of_ne _ (fun h => hba (congrArg _ h)) _
        | _ => rfl
      simp only [standing, hsame]
  | producer i => simp only [standing, hstep.producer_of_ne (Ne.symm hba)]

/-- A stage that has ended stays as it is. -/
theorem Step.standing_of_ended {a b : Actor} (hstep : Step sink f a f')
    (hended : f.standing b ≠ .working) : f'.standing b = f.standing b := by
  refine hstep.standing_of_ne ?_
  rintro rfl
  exact hended hstep.standing_eq_working

/-- A stage that has finished stays finished. -/
theorem Step.standing_finished {a b : Actor} (hstep : Step sink f a f')
    (hfinished : f.standing b = .finished) : f'.standing b = .finished := by
  rw [hstep.standing_of_ended (by simp [hfinished]), hfinished]

end Floor

end Newsroom
