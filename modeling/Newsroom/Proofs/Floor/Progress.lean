import Mathlib.Tactic.ByContra
import Newsroom.Proofs.Floor.Work

/-!
# No deadlock on the floor

As long as some stage is not finished, some stage can take a step that is not a
vain look, whatever the capacities of the queues are.

## Main Definitions

* `Floor.Drained` — all queues are empty and all stages before the screen finished
* `Floor.OnlyVain` — nothing can happen except a vain look of the dispatcher

## Main Statements

* `Orderly.source_of_done` — a source that is done is empty and will stay so
* `Orderly.drained` — when all end marks have arrived the floor is drained
* `Orderly.finished_of_onlyVain`, `Orderly.ended_of_onlyVain` — if nothing but a vain look
  is possible, then every stage is finished, or has ended with a panic on the last line

## Design Notes

Waiting is followed against the stream.  A screen manager that waits leaves room on
the screen queue, so that no co-editor is held up there; a co-editor that waits
leaves room on the queue of its category; and a source on which the dispatcher looks
in vain has room for its producer.
-/

namespace Newsroom.Floor

variable {ρ α : Type} {sink : Sink} {f : Floor ρ α}

/-- A queue with room takes a message. -/
theorem exists_insert? {q : Queue (Message α)} (m : Message α) (h : q.items.length < q.capacity) :
    ∃ r, q.insert? m = some r :=
  ⟨_, by rw [Queue.insert?, if_pos h]⟩

/-- An empty queue takes a message. -/
theorem exists_insert?_of_empty {q : Queue (Message α)} (m : Message α) (hempty : q.items = [])
    (hroom : 0 < q.capacity) : ∃ r, q.insert? m = some r :=
  exists_insert? m (by simpa [hempty] using hroom)

/-- A queue that is not empty gives a message. -/
theorem exists_remove? {q : Queue (Message α)} (h : q.items ≠ []) :
    ∃ m r, q.remove? = some (m, r) := by
  unfold Queue.remove?
  cases hitems : q.items with
  | nil => exact absurd hitems h
  | cons m ms => exact ⟨m, _, rfl⟩

/-- The entries of a source: its producer and its queue. -/
theorem Orderly.exists_source (h : f.Orderly) {i : Nat} {s : SourceStatus}
    (hs : f.dispatcher.sources[i]? = some s) :
    ∃ p q, f.producers[i]? = some p ∧ f.sources[i]? = some q := by
  obtain ⟨hi, -⟩ := List.getElem?_eq_some_iff.1 hs
  rw [h.statuses_length] at hi
  exact ⟨_, _, List.getElem?_eq_getElem hi, List.getElem?_eq_getElem (h.sources_length ▸ hi)⟩

/-! ### Streams that have ended -/

/-- A source that is done is empty, and its producer is finished. -/
theorem Orderly.source_of_done (h : f.Orderly) {i : Nat} {p : Producer ρ} {q : Queue (Message α)}
    (hp : f.producers[i]? = some p) (hq : f.sources[i]? = some q)
    (hs : f.dispatcher.sources[i]? = some .done) : p.phase = .finished ∧ q.items = [] := by
  have hlink := h.sources i p q .done hp hq hs
  refine ⟨?_, hlink.eq_nil rfl⟩
  by_contra hne
  have hsent : p.sent = 0 := by
    unfold Producer.sent
    split
    · contradiction
    · rfl
  have hle := hlink.received_le
  rw [hsent] at hle
  cases hle

/-- All queues are empty and all stages before the screen manager are finished. -/
structure Drained (f : Floor ρ α) : Prop where
  producers : ∀ p ∈ f.producers, p.phase = .finished
  sources : ∀ q ∈ f.sources, q.items = []
  statuses : ∀ s ∈ f.dispatcher.sources, s = .done
  dispatcher : f.dispatcher.phase = .finished
  categories : ∀ c, (f.categories.get c).items = []
  coEditors : ∀ c, (f.coEditors.get c).phase = .finished
  screenQueue : f.screenQueue.items = []

/-- Co-editors whose marks have all been taken are finished. -/
theorem finished_of_link {es : ByCategory (CoEditor α)} {received : Nat} {ms : List (Message α)}
    (h : Link 3 (closedCoEditors es) received ms) (hall : received = 3) (c : Category) :
    (es.get c).phase = .finished := by
  by_contra hne
  have hlt := closedCoEditors_lt (CoEditor.sent_eq_zero hne)
  have hle := h.received_le
  omega

/-- When all marks have been counted the co-editors are finished. -/
theorem Orderly.coEditors_finished (h : f.Orderly)
    (hall : f.screen.report.sentinelsReceived = Screen.sentinelsExpected) (c : Category) :
    (f.coEditors.get c).phase = .finished :=
  finished_of_link h.screenQueue hall c

/-- When all marks have been counted nothing is left before the screen manager. -/
theorem Orderly.drained (h : f.Orderly)
    (hall : f.screen.report.sentinelsReceived = Screen.sentinelsExpected) : f.Drained := by
  have hcoEditors := h.coEditors_finished hall
  have hreceived : ∀ c, (f.coEditors.get c).received = 1 := by simp [CoEditor.received, hcoEditors]
  have hsent : ∀ c, f.dispatcher.sent c = 1 := by
    intro c
    have hlink := h.categories c
    rw [hreceived] at hlink
    exact Nat.le_antisymm hlink.sent_le hlink.received_le
  have hdone := h.steady.all_done (hsent .sports)
  have hstatus : ∀ i, i < f.producers.length → f.dispatcher.sources[i]? = some .done := by
    intro i hi
    rw [← h.statuses_length] at hi
    rw [List.getElem?_eq_getElem hi, hdone _ (List.getElem_mem hi)]
  refine
    { producers := ?_
      sources := ?_
      statuses := hdone
      dispatcher := h.steady.phase_eq_finished hsent
      categories := fun c => (h.categories c).eq_nil (hreceived c)
      coEditors := hcoEditors
      screenQueue := h.screenQueue.eq_nil hall }
  · intro p hp
    obtain ⟨i, hi, rfl⟩ := List.getElem_of_mem hp
    have hq := List.getElem?_eq_getElem (h.sources_length ▸ hi)
    exact (h.source_of_done (List.getElem?_eq_getElem hi) hq (hstatus i hi)).1
  · intro q hq
    obtain ⟨i, hi, rfl⟩ := List.getElem_of_mem hq
    have hlt := h.sources_length ▸ hi
    have hp := List.getElem?_eq_getElem hlt
    exact (h.source_of_done hp (List.getElem?_eq_getElem hi) (hstatus i hlt)).2

/-- On a drained floor all stages before the screen manager are finished. -/
theorem Drained.standing_of_ne (h : f.Drained) {a : Actor} (ha : a ≠ .screen) :
    f.standing a = .finished := by
  cases a with
  | screen => exact absurd rfl ha
  | coEditor c => simp [Floor.standing, h.coEditors c]
  | dispatcher => simp [Floor.standing, h.dispatcher]
  | producer i =>
      cases hp : f.producers[i]? with
      | none => simp [Floor.standing, hp]
      | some p =>
          have hphase := h.producers p (List.mem_of_getElem? hp)
          simp [Floor.standing, hp, Producer.isFinished, hphase]

/-- On a drained floor the screen manager decides whether all stages are finished. -/
theorem Drained.standing (h : f.Drained) (hscreen : f.screen.phase = .finished) (a : Actor) :
    f.standing a = .finished := by
  by_cases ha : a = .screen
  · simp [ha, Floor.standing, hscreen]
  · exact h.standing_of_ne ha

/-- When no article has made the display panic, a panic leaves no stage at work. -/
theorem Orderly.ended_of_panicked (h : f.Orderly) (hcalm : f.screen.Calm)
    (hpanicked : f.screen.phase = .panicked) (a : Actor) : f.standing a ≠ .working := by
  by_cases ha : a = .screen
  · simp [ha, Floor.standing, hpanicked]
  · simp [(h.drained (hcalm hpanicked)).standing_of_ne ha]

theorem phase_of_standing_screen (h : f.standing .screen = .finished) :
    f.screen.phase = .finished := by
  unfold Floor.standing at h
  cases hphase : f.screen.phase <;> simp [hphase] at h ⊢

/-! ### Waiting, against the stream -/

variable [CategorySource ρ] [Payload α]

/-- Nothing can happen except, perhaps, a vain look of the dispatcher. -/
def OnlyVain (sink : Sink) (f : Floor ρ α) : Prop :=
  ∀ a f', Step sink f a f' → a = .dispatcher ∧ f.looksInVain = true

/-- A screen manager that cannot go on waits for a message or is finished. -/
theorem OnlyVain.screen (h : OnlyVain sink f) (hpanic : f.screen.phase ≠ .panicked) :
    (f.screen.phase = .waiting ∧ f.screenQueue.items = []) ∨ f.screen.phase = .finished := by
  cases hphase : f.screen.phase with
  | waiting =>
      refine .inl ⟨rfl, ?_⟩
      by_contra hne
      obtain ⟨m, r, hm⟩ := exists_remove? hne
      cases (h _ _ (.display hphase hm)).1
  | closing => cases (h _ _ (.finish hphase)).1
  | finished => exact .inr rfl
  | panicked => exact absurd hphase hpanic

/-- A co-editor that cannot go on waits for a message or is finished. -/
theorem Orderly.coEditor_of_onlyVain (h : f.Orderly) (honly : OnlyVain sink f)
    (hpanic : f.screen.phase ≠ .panicked) (c : Category) :
    ((f.coEditors.get c).phase = .waiting ∧ (f.categories.get c).items = []) ∨
      (f.coEditors.get c).phase = .finished := by
  rcases honly.screen hpanic with ⟨-, hempty⟩ | hfinished
  · cases hphase : (f.coEditors.get c).phase with
    | waiting =>
        refine .inl ⟨rfl, ?_⟩
        by_contra hne
        obtain ⟨m, r, hm⟩ := exists_remove? hne
        cases (honly _ _ (.take hphase hm)).1
    | holding m =>
        obtain ⟨r, hr⟩ := exists_insert?_of_empty m hempty h.screenRoom
        cases (honly _ _ (.forward hphase hr)).1
    | finished => exact .inr rfl
  · have hcounting := h.counting
    simp only [Screen.Counting, hfinished] at hcounting
    exact .inr (h.coEditors_finished hcounting c)

/-- The queue of a category without an end mark has room when nothing can go on. -/
theorem Orderly.category_room (h : f.Orderly) (honly : OnlyVain sink f)
    (hpanic : f.screen.phase ≠ .panicked) {c : Category} (hnone : f.dispatcher.sent c = 0)
    (m : Message α) : ∃ r, (f.categories.get c).insert? m = some r := by
  rcases h.coEditor_of_onlyVain honly hpanic c with ⟨-, hempty⟩ | hfinished
  · exact exists_insert?_of_empty m hempty (h.categoryRoom c)
  · have hle := (h.categories c).received_le
    simp [CoEditor.received, hfinished, hnone] at hle

/-- A producer whose queue is empty can go on, unless it has put in its mark. -/
theorem Orderly.exists_step_producer (h : f.Orderly) (sink : Sink) {i : Nat} {p : Producer ρ}
    {q : Queue (Message α)} (hp : f.producers[i]? = some p) (hq : f.sources[i]? = some q)
    (hempty : q.items = []) (hsent : p.sent = 0) : ∃ f', Step sink f (.producer i) f' := by
  have hroom := h.sourceRoom q (List.mem_of_getElem? hq)
  cases hphase : p.phase with
  | writing => exact ⟨_, .write hp hphase⟩
  | holding a =>
      obtain ⟨r, hr⟩ := exists_insert?_of_empty (.item (Payload.ofArticle a)) hempty hroom
      exact ⟨_, .handOver hp (by simp [Producer.held?, hphase]) hq hr⟩
  | closing =>
      obtain ⟨r, hr⟩ := exists_insert?_of_empty .done hempty hroom
      exact ⟨_, .handOver hp (by simp [Producer.held?, hphase]) hq hr⟩
  | finished => simp [Producer.sent, hphase] at hsent

/-- A dispatcher that cannot go on, vain looks apart, is finished. -/
theorem Orderly.dispatcher_of_onlyVain (h : f.Orderly) (honly : OnlyVain sink f)
    (hpanic : f.screen.phase ≠ .panicked) : f.dispatcher.phase = .finished := by
  cases hphase : f.dispatcher.phase with
  | polling i =>
      have hactive := h.active_of_polling hphase
      obtain ⟨p, q, hp, hq⟩ := h.exists_source hactive
      by_cases hempty : q.items = []
      -- an active source that is empty has a producer that can go on
      · have hlink := h.sources i p q .active hp hq hactive
        have hsent : p.sent = 0 := by
          have hmarks := hlink.marks
          rw [hempty] at hmarks
          exact hmarks.symm
        obtain ⟨f', hstep⟩ := h.exists_step_producer sink hp hq hempty hsent
        cases (honly _ _ hstep).1
      · obtain ⟨m, r, hm⟩ := exists_remove? hempty
        have hbusy : f.looksInVain = false := by
          simp [looksInVain, hphase, hq, Queue.isEmpty, hempty]
        have hnot : ∀ f', ¬ Step sink f .dispatcher f' := by
          intro f' hstep
          have hvain := (honly _ _ hstep).2
          rw [hbusy] at hvain
          cases hvain
        cases m with
        | done => exact absurd (.takeDone hphase hq hm) (hnot _)
        | item body =>
            cases hc : Category.classify (Payload.text body) with
            | some c => exact absurd (.takeItem hphase hq hm hc) (hnot _)
            | none => exact absurd (.drop hphase hq hm hc) (hnot _)
  | routing i c body =>
      obtain ⟨r, hr⟩ :=
        h.category_room honly hpanic (by simp [Dispatcher.sent, hphase]) (.item body)
      have hvain := (honly _ _ (.route hphase hr)).2
      simp [looksInVain, hphase] at hvain
  | checking i =>
      obtain ⟨p, q, hp, hq⟩ := h.exists_source (h.steady.draining_of_checking hphase)
      have hvain := (honly _ _ (.check hphase hq)).2
      simp [looksInVain, hphase] at hvain
  | closing c cs =>
      obtain ⟨r, hr⟩ := h.category_room honly hpanic (h.steady.sent_closed hphase c).1 .done
      have hvain := (honly _ _ (.close hphase hr)).2
      simp [looksInVain, hphase] at hvain
  | finished => rfl

/-- If nothing can happen but a vain look of the dispatcher, all stages are
finished. -/
theorem Orderly.finished_of_onlyVain (h : f.Orderly) (honly : OnlyVain sink f)
    (hpanic : f.screen.phase ≠ .panicked) (a : Actor) : f.standing a = .finished := by
  have hdispatcher := h.dispatcher_of_onlyVain honly hpanic
  have hcoEditors : ∀ c, (f.coEditors.get c).phase = .finished := by
    intro c
    rcases h.coEditor_of_onlyVain honly hpanic c with ⟨hwaiting, hempty⟩ | hfinished
    -- the mark of the finished dispatcher is still on the queue
    · refine absurd hempty ((h.categories c).ne_nil ?_)
      simp [CoEditor.received, hwaiting, Dispatcher.sent, hdispatcher]
    · exact hfinished
  have hclosed : closedCoEditors f.coEditors = 3 := by
    simp [closedCoEditors, exactSum_toList, CoEditor.sent, hcoEditors]
  have hcounting := h.counting
  rcases honly.screen hpanic with ⟨hwaiting, hempty⟩ | hfinished
  · refine absurd hempty (h.screenQueue.ne_nil ?_)
    rw [hclosed]
    simpa only [Screen.Counting, hwaiting, Screen.sentinelsExpected] using hcounting
  · simp only [Screen.Counting, hfinished] at hcounting
    exact (h.drained hcounting).standing hfinished a

/-- The same when a display may have panicked on the last line: then all stages have
ended. -/
theorem Orderly.ended_of_onlyVain (h : f.Orderly) (honly : OnlyVain sink f)
    (hcalm : f.screen.Calm) (a : Actor) : f.standing a ≠ .working := by
  by_cases hpanicked : f.screen.phase = .panicked
  · exact h.ended_of_panicked hcalm hpanicked a
  · simp [h.finished_of_onlyVain honly hpanicked a]

end Newsroom.Floor
