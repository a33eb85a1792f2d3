import Newsroom.Proofs.CoEditor
import Newsroom.Proofs.Dispatcher
import Newsroom.Proofs.EndMarks
import Newsroom.Proofs.Floor.Step
import Newsroom.Proofs.Producer
import Newsroom.Proofs.Screen

/-!
# Order on the floor

Every end mark on the floor is where the stages around it say that it is.

## Main Definitions

* `Floor.Orderly` — the queues are the links between the stages beside them
* `Floor.Fresh` — a floor on which nothing has happened

## Main Statements

* `Fresh.orderly`, `Orderly.step`, `Orderly.log` — order holds at first and is kept
* `Orderly.done_stays` — a source that is done stays so

## Design Notes

A stage counts for its queues by the marks that it has sent and received, and each
queue is then a `Link`.  Nothing is said of how often a source is polled, so that
the invariant does not depend on how the stages take turns.
-/

namespace Newsroom

namespace Floor

variable {ρ α : Type}

/-- The queue of each producer is the link between it and the dispatcher. -/
def LinkedSources (producers : List (Producer ρ)) (sources : List (Queue (Message α)))
    (statuses : List SourceStatus) : Prop :=
  ∀ (i : Nat) (p : Producer ρ) (q : Queue (Message α)) (s : SourceStatus),
    producers[i]? = some p → sources[i]? = some q → statuses[i]? = some s →
      Link 1 p.sent s.received q.items

/-- The queue of each category is the link between the dispatcher and its
co-editor. -/
def LinkedCategories (d : Dispatcher α) (categories : ByCategory (Queue (Message α)))
    (coEditors : ByCategory (CoEditor α)) : Prop :=
  ∀ c, Link 1 (d.sent c) (coEditors.get c).received (categories.get c).items

/-- The co-editors that have handed on their end mark. -/
def closedCoEditors (coEditors : ByCategory (CoEditor α)) : Nat :=
  exactSum (coEditors.map CoEditor.sent).toList

/-- Every queue has room for a message and links the stages beside it. -/
structure Orderly (f : Floor ρ α) : Prop where
  sources_length : f.sources.length = f.producers.length
  statuses_length : f.dispatcher.sources.length = f.producers.length
  sourceRoom : ∀ q ∈ f.sources, 0 < q.capacity
  categoryRoom : ∀ c, 0 < (f.categories.get c).capacity
  screenRoom : 0 < f.screenQueue.capacity
  steady : f.dispatcher.Steady
  prompt : f.dispatcher.Prompt
  sources : LinkedSources f.producers f.sources f.dispatcher.sources
  categories : LinkedCategories f.dispatcher f.categories f.coEditors
  screenQueue :
    Link 3 (closedCoEditors f.coEditors) f.screen.report.sentinelsReceived f.screenQueue.items
  counting : f.screen.Counting

/-- A floor on which no stage has taken a step. -/
structure Fresh (f : Floor ρ α) : Prop where
  sources_length : f.sources.length = f.producers.length
  producers : ∀ (i : Nat) (p : Producer ρ), f.producers[i]? = some p →
    p.origin = i ∧ p.phase = .writing ∧ p.emitted = Tally.zero
  sources : ∀ q ∈ f.sources, q.items = [] ∧ 0 < q.capacity
  dispatcher : f.dispatcher = Dispatcher.start f.producers.length
  categories : ∀ c, (f.categories.get c).items = [] ∧ 0 < (f.categories.get c).capacity
  coEditors : f.coEditors = ByCategory.const {}
  screenQueue : f.screenQueue.items = [] ∧ 0 < f.screenQueue.capacity
  screen : f.screen = {}

/-- Reports do not count as happenings. -/
theorem Fresh.log {f : Floor ρ α} (h : f.Fresh) (es : List Event) : (f.log es).Fresh :=
  { h with }

/-! ### Links that change at one place -/

/-- Sources stay linked when one of them, with its producer and its state, changes
to another link. -/
theorem LinkedSources.update {ps ps' : List (Producer ρ)} {qs qs' : List (Queue (Message α))}
    {ss ss' : List SourceStatus} (h : LinkedSources ps qs ss) (i : Nat)
    (hps : ∀ j : Nat, j ≠ i → ps'[j]? = ps[j]?) (hqs : ∀ j : Nat, j ≠ i → qs'[j]? = qs[j]?)
    (hss : ∀ j : Nat, j ≠ i → ss'[j]? = ss[j]?)
    (hi : ∀ (p : Producer ρ) (q : Queue (Message α)) (s : SourceStatus),
      ps'[i]? = some p → qs'[i]? = some q → ss'[i]? = some s →
        Link 1 p.sent s.received q.items) : LinkedSources ps' qs' ss' := by
  intro j p q s hp hq hs
  by_cases hji : j = i
  · subst hji
    exact hi p q s hp hq hs
  · exact h j p q s (hps j hji ▸ hp) (hqs j hji ▸ hq) (hss j hji ▸ hs)

/-- Categories stay linked when one of them, with its co-editor, changes to another
link and the dispatcher has sent the others as many marks as before. -/
theorem LinkedCategories.update {d d' : Dispatcher α} {qs qs' : ByCategory (Queue (Message α))}
    {es es' : ByCategory (CoEditor α)} (h : LinkedCategories d qs es) (c : Category)
    (hd : ∀ e, e ≠ c → d'.sent e = d.sent e) (hqs : ∀ e, e ≠ c → qs'.get e = qs.get e)
    (hes : ∀ e, e ≠ c → es'.get e = es.get e)
    (hc : Link 1 (d'.sent c) (es'.get c).received (qs'.get c).items) :
    LinkedCategories d' qs' es' := by
  intro e
  by_cases hec : e = c
  · subst hec
    exact hc
  · rw [hd e hec, hqs e hec, hes e hec]
    exact h e

/-- Sources stay linked when the dispatcher takes a text from one of them. -/
theorem LinkedSources.remove_item {ps : List (Producer ρ)} {qs : List (Queue (Message α))}
    {ss : List SourceStatus} (h : LinkedSources ps qs ss) {i : Nat} {q r : Queue (Message α)}
    {body : α} (hq : qs[i]? = some q) (hm : q.remove? = some (.item body, r)) :
    LinkedSources ps (qs.set i r) ss := by
  obtain ⟨hitems, -⟩ := Queue.items_remove? hm
  apply h.update i (fun _ _ => rfl) (getElem?_set_other _ _ _) (fun _ _ => rfl)
  intro p q' s hp hq' hs
  have hlink := h i p q s hp hq hs
  rw [hitems] at hlink
  rw [eq_of_getElem?_set hq']
  exact hlink.remove_item

/-- Sources stay linked when one of them gives its end mark and is draining. -/
theorem LinkedSources.remove_done {ps : List (Producer ρ)} {qs : List (Queue (Message α))}
    {ss : List SourceStatus} (h : LinkedSources ps qs ss) {i : Nat} {q r : Queue (Message α)}
    (hactive : ss[i]? = some .active) (hq : qs[i]? = some q) (hm : q.remove? = some (.done, r)) :
    LinkedSources ps (qs.set i r) (ss.set i .draining) := by
  obtain ⟨hitems, -⟩ := Queue.items_remove? hm
  apply h.update i (fun _ _ => rfl) (getElem?_set_other _ _ _) (getElem?_set_other _ _ _)
  intro p q' s hp hq' hs
  have hlink := h i p q .active hp hq hactive
  rw [hitems] at hlink
  rw [eq_of_getElem?_set hq', eq_of_getElem?_set hs]
  exact hlink.remove_done

/-- A source that was draining may count as done, since its mark was taken before. -/
theorem LinkedSources.finish {ps : List (Producer ρ)} {qs : List (Queue (Message α))}
    {ss : List SourceStatus} (h : LinkedSources ps qs ss) {i : Nat}
    (hdraining : ss[i]? = some .draining) : LinkedSources ps qs (ss.set i .done) := by
  apply h.update i (fun _ _ => rfl) (fun _ _ => rfl) (getElem?_set_other _ _ _)
  intro p q s hp hq hs
  rw [eq_of_getElem?_set hs]
  exact h i p q .draining hp hq hdraining

/-- Sources stay linked when a producer hands over what it holds. -/
theorem LinkedSources.handOver [Payload α] {ps : List (Producer ρ)}
    {qs : List (Queue (Message α))} {ss : List SourceStatus} (h : LinkedSources ps qs ss) {i : Nat}
    {p : Producer ρ} {m : Message α} {q r : Queue (Message α)} (hp : ps[i]? = some p)
    (hheld : p.held? = some m) (hq : qs[i]? = some q) (hroom : q.insert? m = some r) :
    LinkedSources (ps.set i p.handedOver) (qs.set i r) ss := by
  obtain ⟨hitems, -⟩ := Queue.items_insert? hroom
  apply h.update i (getElem?_set_other _ _ _) (getElem?_set_other _ _ _) (fun _ _ => rfl)
  intro p' q' s hp' hq' hs
  have hlink := h i p q s hp hq hs
  rw [eq_of_getElem?_set hp', eq_of_getElem?_set hq', hitems]
  rcases Producer.held?_cases hheld with ⟨a, -, rfl, hsent, hsent'⟩ | ⟨-, rfl, hsent, hsent'⟩
  · rw [hsent] at hlink
    rw [hsent']
    exact hlink.insert_item (by decide) _
  · rw [hsent] at hlink
    rw [hsent']
    exact hlink.insert_done (by decide)

/-- While the dispatcher is at its sources no category has an end mark. -/
theorem LinkedCategories.of_none_sent {d d' : Dispatcher α} {qs : ByCategory (Queue (Message α))}
    {es : ByCategory (CoEditor α)} (h : LinkedCategories d qs es) (hd : ∀ c, d.sent c = 0)
    (hd' : ∀ c, d'.sent c = 0) : LinkedCategories d' qs es := by
  intro c
  rw [hd' c, ← hd c]
  exact h c

/-- Categories stay linked when a co-editor takes a message. -/
theorem LinkedCategories.take {d : Dispatcher α} {qs : ByCategory (Queue (Message α))}
    {es : ByCategory (CoEditor α)} (h : LinkedCategories d qs es) {c : Category} {m : Message α}
    {r : Queue (Message α)} (hphase : (es.get c).phase = .waiting)
    (hm : (qs.get c).remove? = some (m, r)) :
    LinkedCategories d (qs.set c r) (es.set c ((es.get c).took m)) := by
  obtain ⟨hitems, -⟩ := Queue.items_remove? hm
  have hreceived : (es.get c).received = 0 := by simp [CoEditor.received, hphase]
  have hlink := h c
  rw [hitems, hreceived] at hlink
  apply h.update c (fun _ _ => rfl) (fun e he => ByCategory.get_set_of_ne _ he _)
    (fun e he => ByCategory.get_set_of_ne _ he _)
  simp only [ByCategory.get_set_self]
  cases m with
  | item body => exact hlink.remove_item
  | done => exact hlink.remove_done

/-- Categories stay linked when a co-editor hands on what it has taken. -/
theorem LinkedCategories.forward {d : Dispatcher α} {qs : ByCategory (Queue (Message α))}
    {es : ByCategory (CoEditor α)} (h : LinkedCategories d qs es) {c : Category} {m : Message α}
    (hphase : (es.get c).phase = .holding m) :
    LinkedCategories d qs (es.set c ((es.get c).handedOver m)) := by
  have hlink := h c
  apply h.update c (fun _ _ => rfl) (fun _ _ => rfl) (fun e he => ByCategory.get_set_of_ne _ he _)
  rw [ByCategory.get_set_self]
  cases m <;> simpa [CoEditor.received, CoEditor.handedOver, hphase] using hlink

/-- Queues that all have room do so after one has changed and kept its
capacity. -/
private theorem room_set {qs : List (Queue (Message α))} {i : Nat} {q r : Queue (Message α)}
    (h : ∀ q ∈ qs, 0 < q.capacity) (hq : qs[i]? = some q) (hr : r.capacity = q.capacity) :
    ∀ q ∈ qs.set i r, 0 < q.capacity := by
  intro x hx
  rcases mem_of_mem_set hx with rfl | hmem
  · rw [hr]
    exact h q (List.mem_of_getElem? hq)
  · exact h x hmem

private theorem categoryRoom_set {qs : ByCategory (Queue (Message α))} {c : Category}
    {r : Queue (Message α)} (h : ∀ c, 0 < (qs.get c).capacity)
    (hr : r.capacity = (qs.get c).capacity) : ∀ c', 0 < ((qs.set c r).get c').capacity := by
  intro c'
  rw [ByCategory.get_set]
  split
  · rw [hr]
    exact h c
  · exact h c'

/-! ### The end marks of the stages -/

/-- While some co-editor is not finished the screen queue waits for marks. -/
theorem closedCoEditors_lt {es : ByCategory (CoEditor α)} {c : Category} (h : (es.get c).sent = 0) :
    closedCoEditors es < 3 := by
  -- each of the other two has handed on one mark at most
  have hle : ∀ c', (es.get c').sent ≤ 1 := fun c' => (es.get c').sent_le_one
  have hs := hle .sports
  have hn := hle .news
  have hw := hle .weather
  rw [closedCoEditors, exactSum_toList]
  simp only [ByCategory.get_map]
  cases c <;> omega

/-- A co-editor changes the marks on the screen queue by its own. -/
theorem closedCoEditors_set (es : ByCategory (CoEditor α)) (c : Category) (e : CoEditor α) :
    closedCoEditors (es.set c e) + (es.get c).sent = closedCoEditors es + e.sent :=
  exactSum_toList_set CoEditor.sent es c e

/-- The dispatcher polls only sources from which it has taken no end mark. -/
theorem Orderly.active_of_polling {f : Floor ρ α} (h : f.Orderly) {i : Nat}
    (hphase : f.dispatcher.phase = .polling i) : f.dispatcher.sources[i]? = some .active :=
  h.steady.active_of_polling h.prompt hphase

/-- A source that is checked is empty. -/
theorem Orderly.empty_of_checking {f : Floor ρ α} (h : f.Orderly) {i : Nat}
    {q : Queue (Message α)} (hphase : f.dispatcher.phase = .checking i)
    (hq : f.sources[i]? = some q) : q.items = [] := by
  have hdraining := h.steady.draining_of_checking hphase
  obtain ⟨hi, -⟩ := List.getElem?_eq_some_iff.1 hdraining
  have hp := List.getElem?_eq_getElem (h.statuses_length ▸ hi)
  exact (h.sources i _ q _ hp hq hdraining).eq_nil rfl

theorem Orderly.isEmpty_of_checking {f : Floor ρ α} (h : f.Orderly) {i : Nat}
    {q : Queue (Message α)} (hphase : f.dispatcher.phase = .checking i)
    (hq : f.sources[i]? = some q) : q.isEmpty = true := by
  rw [Queue.isEmpty, h.empty_of_checking hphase hq]
  rfl

/-! ### Steps -/

variable [CategorySource ρ] [Payload α]

omit [CategorySource ρ] [Payload α] in
/-- Reports do not disturb the order. -/
theorem Orderly.log {f : Floor ρ α} (h : f.Orderly) (es : List Event) : (f.log es).Orderly :=
  { h with }

variable {sink : Sink} {f f' : Floor ρ α}

/-- A producer links its queue as before, or with one more message. -/
private theorem Orderly.step_producer {i : Nat} (h : f.Orderly)
    (hstep : Step sink f (.producer i) f') : f'.Orderly := by
  cases hstep with
  | @write _ p hp hphase =>
      refine { h with
        sources_length := by simpa using h.sources_length
        statuses_length := by simpa using h.statuses_length
        sources :=
          h.sources.update i (getElem?_set_other _ _ _) (fun _ _ => rfl) (fun _ _ => rfl) ?_ }
      intro p' q s hp' hq hs
      have hlink := h.sources i p q s hp hq hs
      have hsent : p.sent = 0 := by simp [Producer.sent, hphase]
      rw [hsent] at hlink
      rw [eq_of_getElem?_set hp', Producer.sent_write]
      exact hlink
  | @handOver _ p m q r hp hheld hq hroom =>
      obtain ⟨-, hcap, -, -⟩ := Queue.items_insert? hroom
      exact { h with
        sources_length := by simpa using h.sources_length
        statuses_length := by simpa using h.statuses_length
        sourceRoom := room_set h.sourceRoom hq hcap
        sources := h.sources.handOver hp hheld hq hroom }

/-- The dispatcher passes on what it takes, and closes the categories when it has
taken all. -/
private theorem Orderly.step_dispatcher (h : f.Orderly) (hstep : Step sink f .dispatcher f') :
    f'.Orderly := by
  cases hstep with
  | @miss i q hphase hq hempty =>
      exact { h with
        statuses_length := by simpa using h.statuses_length
        steady := Dispatcher.steady_afterPoll _ _
        prompt := Dispatcher.prompt_afterPoll fun j _ => h.prompt.not_draining (by simp [hphase]) j
        sources := by simpa using h.sources
        categories := h.categories.of_none_sent (by simp [Dispatcher.sent, hphase])
          (Dispatcher.held_sent_afterPoll _ _).2 }
  | @takeDone i q r hphase hq hm =>
      obtain ⟨-, hcap, -⟩ := Queue.items_remove? hm
      have hother : ∀ j, j ≠ i → (f.dispatcher.receiveDone i).sources[j]? ≠ some .draining := by
        intro j hji
        rw [Dispatcher.receiveDone, getElem?_set_other _ _ _ j hji]
        exact h.prompt.not_draining (by simp [hphase]) j
      exact { h with
        sources_length := by simpa using h.sources_length
        statuses_length := by simpa [Dispatcher.receiveDone] using h.statuses_length
        sourceRoom := room_set h.sourceRoom hq hcap
        steady := Dispatcher.steady_afterPoll _ _
        prompt := Dispatcher.prompt_afterPoll hother
        sources := by
          rw [Dispatcher.sources_afterPoll]
          exact h.sources.remove_done (h.active_of_polling hphase) hq hm
        categories := h.categories.of_none_sent (by simp [Dispatcher.sent, hphase])
          (Dispatcher.held_sent_afterPoll _ _).2 }
  | @takeItem i q r body c hphase hq hm hc =>
      obtain ⟨-, hcap, -⟩ := Queue.items_remove? hm
      exact { h with
        sources_length := by simpa using h.sources_length
        sourceRoom := room_set h.sourceRoom hq hcap
        steady := ⟨.active, h.active_of_polling hphase, by decide⟩
        prompt := Dispatcher.prompt_of_not_draining (h.prompt.not_draining (by simp [hphase]))
        sources := h.sources.remove_item hq hm
        categories := h.categories.of_none_sent (by simp [Dispatcher.sent, hphase]) (fun _ => rfl) }
  | @drop i q r body hphase hq hm hc =>
      obtain ⟨-, hcap, -⟩ := Queue.items_remove? hm
      have hother := h.prompt.not_draining (by simp [hphase])
      exact { h with
        sources_length := by simpa using h.sources_length
        statuses_length := by simpa [Dispatcher.discard] using h.statuses_length
        sourceRoom := room_set h.sourceRoom hq hcap
        steady := Dispatcher.steady_afterPoll _ _
        prompt := Dispatcher.prompt_afterPoll fun j _ => hother j
        sources := by
          rw [Dispatcher.sources_afterPoll]
          exact h.sources.remove_item hq hm
        categories := h.categories.of_none_sent (by simp [Dispatcher.sent, hphase])
          (Dispatcher.held_sent_afterPoll _ _).2 }
  | @route i c body r hphase hroom =>
      obtain ⟨hitems, hcap, -, -⟩ := Queue.items_insert? hroom
      have hnone : ∀ c, f.dispatcher.sent c = 0 := by simp [Dispatcher.sent, hphase]
      have hnone' : ∀ c', ((f.dispatcher.bumpRouted c).afterPoll i).sent c' = 0 :=
        (Dispatcher.held_sent_afterPoll _ _).2
      refine { h with
        statuses_length := by simpa [Dispatcher.bumpRouted] using h.statuses_length
        categoryRoom := categoryRoom_set h.categoryRoom hcap
        steady := Dispatcher.steady_afterPoll _ _
        prompt := Dispatcher.prompt_afterPoll fun j _ => h.prompt.not_draining (by simp [hphase]) j
        sources := by simpa [Dispatcher.bumpRouted] using h.sources
        categories := h.categories.update c (fun e _ => (hnone' e).trans (hnone e).symm)
          (fun e he => ByCategory.get_set_of_ne _ he _) (fun _ _ => rfl) ?_ }
      have hlink := h.categories c
      rw [hnone] at hlink
      rw [hnone', ByCategory.get_set_self, hitems]
      exact hlink.insert_item (by decide) body
  | @check i q hphase hq =>
      have hsources :
          (f.dispatcher.checked i q.isEmpty).sources = f.dispatcher.sources.set i .done := by
        rw [h.isEmpty_of_checking hphase hq]
        rfl
      have hscan : (f.dispatcher.checked i q.isEmpty).phase =
          Dispatcher.scan (i + 1) (f.dispatcher.checked i q.isEmpty).sources := rfl
      refine { h with
        statuses_length := by simpa [hsources] using h.statuses_length
        steady := Dispatcher.steady_of_scan hscan
        prompt := Dispatcher.prompt_of_not_draining ?_
        sources := by
          rw [hsources]
          exact h.sources.finish (h.steady.draining_of_checking hphase)
        categories := h.categories.of_none_sent (by simp [Dispatcher.sent, hphase])
          (Dispatcher.held_sent_of_scan hscan).2 }
      -- the source that was checked is done, and no other one was draining
      intro j hj
      rw [hsources] at hj
      by_cases hji : j = i
      · subst hji
        cases eq_of_getElem?_set hj
      · rw [getElem?_set_other _ _ _ j hji] at hj
        have hphase' := h.prompt j hj
        rw [hphase, Dispatcher.Phase.checking.injEq] at hphase'
        exact hji hphase'.symm
  | @close c cs r hphase hroom =>
      obtain ⟨hitems, hcap, -, -⟩ := Queue.items_insert? hroom
      have hsent := h.steady.sent_closed hphase
      have hsources := Dispatcher.sources_closed f.dispatcher cs
      refine { h with
        statuses_length := by simpa [hsources] using h.statuses_length
        categoryRoom := categoryRoom_set h.categoryRoom hcap
        steady := h.steady.closed hphase
        prompt := Dispatcher.prompt_of_not_draining ?_
        sources := by simpa [hsources] using h.sources
        categories := h.categories.update c (fun e he => by rw [(hsent e).2, if_neg he])
          (fun e he => ByCategory.get_set_of_ne _ he _) (fun _ _ => rfl) ?_ }
      · rw [hsources]
        exact h.prompt.not_draining (by simp [hphase])
      · have hlink := h.categories c
        rw [(hsent c).1] at hlink
        rw [(hsent c).2, if_pos rfl, ByCategory.get_set_self, hitems]
        exact hlink.insert_done (by decide)

/-- A co-editor links the queue of its category to the screen queue. -/
private theorem Orderly.step_coEditor {c : Category} (h : f.Orderly)
    (hstep : Step sink f (.coEditor c) f') : f'.Orderly := by
  cases hstep with
  | @take _ m r hphase hm =>
      obtain ⟨-, hcap, -⟩ := Queue.items_remove? hm
      have hclosed := closedCoEditors_set f.coEditors c ((f.coEditors.get c).took m)
      have hsent : (f.coEditors.get c).sent = 0 := by simp [CoEditor.sent, hphase]
      have hsent' : ((f.coEditors.get c).took m).sent = 0 := rfl
      rw [hsent, hsent'] at hclosed
      exact { h with
        categoryRoom := categoryRoom_set h.categoryRoom hcap
        categories := h.categories.take hphase hm
        screenQueue := by
          rw [Nat.add_right_cancel hclosed]
          exact h.screenQueue }
  | @forward _ m r hphase hroom =>
      obtain ⟨hitems, hcap, -, -⟩ := Queue.items_insert? hroom
      have hsent : (f.coEditors.get c).sent = 0 := by simp [CoEditor.sent, hphase]
      have hclosed := closedCoEditors_set f.coEditors c ((f.coEditors.get c).handedOver m)
      have hlt : closedCoEditors f.coEditors < 3 := closedCoEditors_lt hsent
      rw [hsent] at hclosed
      refine { h with
        screenRoom := by
          rw [hcap]
          exact h.screenRoom
        categories := h.categories.forward hphase
        screenQueue := ?_ }
      rw [hitems]
      cases m with
      | item body =>
          have hsame :
              closedCoEditors (f.coEditors.set c _) = closedCoEditors f.coEditors := hclosed
          rw [hsame]
          exact h.screenQueue.insert_item hlt body
      | done =>
          have hmore : ((f.coEditors.get c).handedOver .done).sent = 1 := rfl
          rw [hmore, Nat.add_zero] at hclosed
          rw [hclosed]
          exact h.screenQueue.insert_done hlt

/-- The screen manager counts the end marks that it takes. -/
private theorem Orderly.step_screen (h : f.Orderly) (hstep : Step sink f .screen f') :
    f'.Orderly := by
  cases hstep with
  | @display m r hphase hm =>
      obtain ⟨hitems, hcap, -⟩ := Queue.items_remove? hm
      have hlink := h.screenQueue
      rw [hitems] at hlink
      refine { h with
        screenRoom := by
          rw [hcap]
          exact h.screenRoom
        screenQueue := ?_
        counting := h.counting.took hphase sink m }
      cases m with
      | item body =>
          rw [Screen.took_item_fst sink _ hphase]
          exact hlink.remove_item
      | done => exact hlink.remove_done
  | finish hphase =>
      exact { h with
        screenQueue := by
          rw [Screen.close_fst sink _ hphase]
          exact h.screenQueue
        counting := h.counting.close hphase sink }

/-- Each step of a stage keeps the order. -/
theorem Orderly.step {a : Actor} (h : f.Orderly) (hstep : Step sink f a f') : f'.Orderly := by
  cases a with
  | screen => exact h.step_screen hstep
  | coEditor c => exact h.step_coEditor hstep
  | dispatcher => exact h.step_dispatcher hstep
  | producer i => exact h.step_producer hstep

/-- A source that is done stays done. -/
theorem Orderly.done_stays {a : Actor} (h : f.Orderly) (hstep : Step sink f a f') {i : Nat}
    (hs : f.dispatcher.sources[i]? = some .done) : f'.dispatcher.sources[i]? = some .done := by
  cases hstep with
  | @miss j q hphase hq hempty => simpa using hs
  | @takeDone j q r hphase hq hm =>
      have hactive := h.active_of_polling hphase
      have hij : i ≠ j := by
        rintro rfl
        rw [hs] at hactive
        cases hactive
      rw [Dispatcher.sources_afterPoll, Dispatcher.receiveDone, getElem?_set_other _ _ _ i hij]
      exact hs
  | @drop j q r body hphase hq hm hc => simpa [Dispatcher.discard] using hs
  | @route j c body r hphase hroom => simpa [Dispatcher.bumpRouted] using hs
  | @check j q hphase hq =>
      obtain ⟨hi, hdone⟩ := List.getElem?_eq_some_iff.1 hs
      simp only [Dispatcher.checked]
      split
      · by_cases hji : j = i
        · simp [hji, hi]
        · rw [List.getElem?_set_ne hji, hs]
      · exact hs
  | @close c cs r hphase hroom => simpa [Dispatcher.sources_closed] using hs
  | _ => exact hs

omit [CategorySource ρ] [Payload α] in
/-- A floor on which nothing has happened is in order. -/
theorem Fresh.orderly (h : f.Fresh) : f.Orderly where
  sources_length := h.sources_length
  statuses_length := by simp [h.dispatcher, Dispatcher.sources_start]
  sourceRoom := fun q hq => (h.sources q hq).2
  categoryRoom := fun c => (h.categories c).2
  screenRoom := h.screenQueue.2
  steady := by
    rw [h.dispatcher]
    exact Dispatcher.steady_of_scan (Dispatcher.phase_start _)
  prompt := by
    rw [h.dispatcher]
    exact Dispatcher.prompt_start _
  sources := by
    intro i p q s hp hq hs
    have hphase := (h.producers i p hp).2.1
    rw [h.dispatcher, Dispatcher.sources_start] at hs
    have hactive : s = .active := List.eq_of_mem_replicate (List.mem_of_getElem? hs)
    subst hactive
    have hsent : p.sent = 0 := by simp [Producer.sent, hphase]
    rw [(h.sources q (List.mem_of_getElem? hq)).1, hsent]
    exact Link.empty 1
  categories := by
    intro c
    have hscan := Dispatcher.phase_start (α := α) f.producers.length
    have hnone := (Dispatcher.held_sent_of_scan hscan).2 c
    rw [h.dispatcher, hnone, h.coEditors, (h.categories c).1, ByCategory.get_const]
    exact Link.empty 1
  screenQueue := by
    rw [h.coEditors, h.screen, h.screenQueue.1]
    exact Link.empty 3
  counting := by
    rw [h.screen]
    show 0 < Screen.sentinelsExpected
    decide

end Floor

end Newsroom
