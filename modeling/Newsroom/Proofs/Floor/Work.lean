import Newsroom.Proofs.Floor.Order

/-!
# The work that is left

Every step uses up some work, except a look of the dispatcher at an empty source
that leaves everything as it was.

## Main Definitions

* `Floor.looksInVain` — whether the dispatcher is about to take such a look

## Main Statements

* `Orderly.work_step` — a step costs at least one unit of work, a vain look none
* `Fresh.work_eq` — the work of a floor on which nothing has happened
-/

namespace Newsroom.Floor

variable {ρ α : Type}

/-- The dispatcher is about to look at an empty source from which it has not taken
an end mark.  It will take no message, and the state of the source stays. -/
def looksInVain (f : Floor ρ α) : Bool :=
  match f.dispatcher.phase with
  | .polling i => f.sources[i]?.any Queue.isEmpty && f.dispatcher.sources[i]? != some .draining
  | _ => false

/-! ### Queues -/

theorem queueWork_insert (item done : Nat) {q r : Queue (Message α)} {m : Message α}
    (h : q.insert? m = some r) :
    queueWork item done r = queueWork item done q + weight item done m := by
  obtain ⟨hitems, -⟩ := Queue.items_insert? h
  simp [queueWork, hitems, exactSum_append]

theorem queueWork_remove (item done : Nat) {q r : Queue (Message α)} {m : Message α}
    (h : q.remove? = some (m, r)) :
    queueWork item done q = weight item done m + queueWork item done r := by
  obtain ⟨hitems, -⟩ := Queue.items_remove? h
  simp [queueWork, hitems]

theorem weight_pos {item done : Nat} (hitem : 0 < item) (hdone : 0 < done) (m : Message α) :
    0 < weight item done m := by
  cases m with
  | item body => exact hitem
  | done => exact hdone

/-! ### Stages -/

theorem producerWork_write [CategorySource ρ] {p : Producer ρ} (hphase : p.phase = .writing) :
    producerWork p.write + 1 = producerWork p := by
  unfold Producer.write producerWork
  rw [hphase]
  cases p.remaining with
  | zero => rfl
  | succ n =>
      -- one article fewer to write saves more than the one in its hands costs
      show 8 * n + 12 + 1 = 8 * (n + 1) + 5
      omega

/-- A message weighs less in the queue of a producer than in its hands. -/
theorem producerWork_handedOver [Payload α] {p : Producer ρ} {m : Message α}
    (h : p.held? = some m) :
    producerWork p.handedOver + weight 6 3 m + 1 = producerWork p := by
  rcases Producer.held?_cases h with ⟨a, hphase, rfl, -, -⟩ | ⟨hphase, rfl, -, -⟩
  · simp [producerWork, Producer.handedOver, hphase, weight]
  · simp [producerWork, Producer.handedOver, hphase, weight]

theorem dispatcherWork_of_polling {d : Dispatcher α} {i : Nat} (h : d.phase = .polling i) :
    dispatcherWork d = exactSum (d.sources.map sourceWork) + 15 := by
  simp [dispatcherWork, h]

theorem dispatcherWork_of_checking {d : Dispatcher α} {i : Nat} (h : d.phase = .checking i) :
    dispatcherWork d = exactSum (d.sources.map sourceWork) + 15 := by
  simp [dispatcherWork, h]

/-- A text in the hands of the dispatcher adds to its work. -/
theorem dispatcherWork_of_routing {d : Dispatcher α} {i : Nat} {c : Category} {body : α}
    (h : d.phase = .routing i c body) :
    dispatcherWork d = exactSum (d.sources.map sourceWork) + 20 := by
  simp [dispatcherWork, h]

theorem dispatcherWork_of_scan {d : Dispatcher α} {i : Nat}
    (h : d.phase = Dispatcher.scan i d.sources) :
    dispatcherWork d = exactSum (d.sources.map sourceWork) + 15 := by
  rcases Dispatcher.scan_cases (α := α) i d.sources with ⟨j, s, hscan, -, -⟩ | ⟨hscan, -⟩
  · simp [dispatcherWork, h, hscan]
  · simp [dispatcherWork, h, hscan]

theorem dispatcherWork_afterPoll (d : Dispatcher α) (i : Nat) :
    dispatcherWork (d.afterPoll i) = exactSum (d.sources.map sourceWork) + 15 := by
  by_cases hdraining : d.sources[i]? = some .draining
  · simp [dispatcherWork, Dispatcher.phase_afterPoll, hdraining]
  · have hscan : (d.afterPoll i).phase = Dispatcher.scan (i + 1) (d.afterPoll i).sources := by
      rw [Dispatcher.phase_afterPoll, if_neg hdraining, Dispatcher.sources_afterPoll]
    rw [dispatcherWork_of_scan hscan, Dispatcher.sources_afterPoll]

/-- Each end mark that is sent costs the dispatcher the same. -/
theorem dispatcherWork_closed {d : Dispatcher α} {c : Category} {cs : List Category}
    (hphase : d.phase = .closing c cs) : dispatcherWork (d.closed cs).1 + 5 = dispatcherWork d := by
  cases cs with
  | nil => simp [dispatcherWork, Dispatcher.closed, hphase]
  | cons next rest =>
      simp only [dispatcherWork, Dispatcher.closed, hphase, List.length_cons]
      omega

theorem coEditorWork_of_waiting {e : CoEditor α} (hphase : e.phase = .waiting) (m : Message α) :
    coEditorWork e = 0 ∧ coEditorWork (e.took m) = 3 := by
  simp [coEditorWork, CoEditor.took, hphase]

theorem coEditorWork_of_holding {e : CoEditor α} {m : Message α} (hphase : e.phase = .holding m) :
    coEditorWork e = 3 ∧ coEditorWork (e.handedOver m) = 0 := by
  cases m <;> simp [coEditorWork, CoEditor.handedOver, hphase]

theorem screenWork_le (s : Screen α) : screenWork s ≤ 1 := by
  unfold screenWork
  split <;> decide

theorem screenWork_close (sink : Sink) {s : Screen α} (hphase : s.phase = .closing) :
    screenWork (s.close sink).1 = 0 := by
  rw [Screen.close_fst sink s hphase]
  by_cases hpanic : sink s.given.length = .panic <;> simp [screenWork, hpanic]

/-! ### Steps -/

variable [CategorySource ρ] [Payload α] {sink : Sink} {f f' : Floor ρ α}

theorem work_step_producer {i : Nat} (hstep : Step sink f (.producer i) f') :
    f'.work + 1 ≤ f.work := by
  cases hstep with
  | @write _ p hp hphase =>
      have hproducers := exactSum_map_set producerWork hp p.write
      have hless := producerWork_write hphase
      simp only [work]
      omega
  | @handOver _ p m q r hp hheld hq hroom =>
      have hproducers := exactSum_map_set producerWork hp p.handedOver
      have hsources := exactSum_map_set (queueWork 6 3) hq r
      have hqueue := queueWork_insert 6 3 hroom
      have hless := producerWork_handedOver hheld
      simp only [work]
      omega

/-- What the dispatcher takes weighs less in its hands than in the source. -/
private theorem work_step_dispatcher (h : f.Orderly) (hstep : Step sink f .dispatcher f') :
    f'.work + (if f.looksInVain then 0 else 1) ≤ f.work := by
  have hone : (if f.looksInVain then 0 else 1) ≤ 1 := by split <;> decide
  cases hstep with
  | @miss i q hphase hq hempty =>
      have hactive := h.active_of_polling hphase
      have hvain : f.looksInVain = true := by
        simp [looksInVain, hphase, hq, Queue.isEmpty, hempty, hactive]
      have hdispatcher := dispatcherWork_afterPoll f.dispatcher i
      have hbefore := dispatcherWork_of_polling hphase
      -- the next look is as much work as this one was
      rw [if_pos hvain]
      simp only [work]
      omega
  | @takeDone i q r hphase hq hm =>
      have hsources := exactSum_map_set (queueWork 6 3) hq r
      have hqueue := queueWork_remove 6 3 hm
      have hstatuses := exactSum_map_set sourceWork (h.active_of_polling hphase) .draining
      have hdispatcher := dispatcherWork_afterPoll (f.dispatcher.receiveDone i) i
      have hbefore := dispatcherWork_of_polling hphase
      simp only [Dispatcher.receiveDone, sourceWork, weight] at hdispatcher hstatuses hqueue
      simp only [work, Dispatcher.receiveDone]
      omega
  | @takeItem i q r body c hphase hq hm hc =>
      have hsources := exactSum_map_set (queueWork 6 3) hq r
      have hqueue := queueWork_remove 6 3 hm
      have hbefore := dispatcherWork_of_polling hphase
      simp only [weight] at hqueue
      simp only [work, dispatcherWork] at hbefore ⊢
      omega
  | @drop i q r body hphase hq hm hc =>
      have hsources := exactSum_map_set (queueWork 6 3) hq r
      have hqueue := queueWork_remove 6 3 hm
      have hdispatcher := dispatcherWork_afterPoll f.dispatcher.discard i
      have hbefore := dispatcherWork_of_polling hphase
      simp only [weight] at hqueue
      simp only [Dispatcher.discard] at hdispatcher
      simp only [work, Dispatcher.discard]
      omega
  | @route i c body r hphase hroom =>
      have hcategories := exactSum_toList_set (queueWork 4 4) f.categories c r
      have hqueue := queueWork_insert 4 4 hroom
      have hdispatcher := dispatcherWork_afterPoll (f.dispatcher.bumpRouted c) i
      have hbefore := dispatcherWork_of_routing hphase
      simp only [weight] at hqueue
      simp only [Dispatcher.bumpRouted] at hdispatcher
      simp only [work, Dispatcher.bumpRouted]
      omega
  | @check i q hphase hq =>
      have hdraining := h.steady.draining_of_checking hphase
      have hstatuses := exactSum_map_set sourceWork hdraining .done
      have hdispatcher : dispatcherWork (f.dispatcher.checked i q.isEmpty) =
          exactSum ((f.dispatcher.sources.set i .done).map sourceWork) + 15 := by
        rw [h.isEmpty_of_checking hphase hq]
        exact dispatcherWork_of_scan (i := i + 1) rfl
      have hbefore := dispatcherWork_of_checking hphase
      simp only [sourceWork] at hstatuses
      simp only [work]
      omega
  | @close c cs r hphase hroom =>
      have hcategories := exactSum_toList_set (queueWork 4 4) f.categories c r
      have hqueue := queueWork_insert 4 4 hroom
      have hdispatcher := dispatcherWork_closed hphase
      simp only [weight] at hqueue
      simp only [work]
      omega

theorem work_step_coEditor {c : Category} (hstep : Step sink f (.coEditor c) f') :
    f'.work + 1 ≤ f.work := by
  cases hstep with
  | @take _ m r hphase hm =>
      have hcategories := exactSum_toList_set (queueWork 4 4) f.categories c r
      have hqueue := queueWork_remove 4 4 hm
      have hcoEditors := exactSum_toList_set coEditorWork f.coEditors c ((f.coEditors.get c).took m)
      obtain ⟨hbefore, hafter⟩ := coEditorWork_of_waiting hphase m
      have hweight : weight 4 4 m = 4 := by cases m <;> rfl
      simp only [work]
      omega
  | @forward _ m r hphase hroom =>
      have hqueue := queueWork_insert 2 2 hroom
      have hcoEditors :=
        exactSum_toList_set coEditorWork f.coEditors c ((f.coEditors.get c).handedOver m)
      obtain ⟨hbefore, hafter⟩ := coEditorWork_of_holding hphase
      have hweight : weight 2 2 m = 2 := by cases m <;> rfl
      simp only [work]
      omega

theorem work_step_screen (hstep : Step sink f .screen f') : f'.work + 1 ≤ f.work := by
  cases hstep with
  | @display m r hphase hm =>
      have hqueue := queueWork_remove 2 2 hm
      have hbefore : screenWork f.screen = 1 := by simp [screenWork, hphase]
      have hafter := screenWork_le (f.screen.took sink m).1
      have hweight : weight 2 2 m = 2 := by cases m <;> rfl
      simp only [work]
      omega
  | finish hphase =>
      have hbefore : screenWork f.screen = 1 := by simp [screenWork, hphase]
      have hafter := screenWork_close sink hphase
      simp only [work]
      omega

/-- Every step uses up work, unless it is a vain look of the dispatcher; that
leaves the work as it was. -/
theorem Orderly.work_step {a : Actor} (h : f.Orderly) (hstep : Step sink f a f') :
    f'.work + (if a = .dispatcher ∧ f.looksInVain = true then 0 else 1) ≤ f.work := by
  cases a with
  | screen => simpa using work_step_screen hstep
  | coEditor c => simpa using work_step_coEditor hstep
  | dispatcher => simpa using work_step_dispatcher h hstep
  | producer i => simpa using work_step_producer hstep

/-! ### The beginning -/

omit [CategorySource ρ] [Payload α] in
/-- How much work there is in all. -/
theorem Fresh.work_eq (h : f.Fresh) :
    f.work = 8 * exactSum (f.producers.map Producer.remaining) + 7 * f.producers.length + 16 := by
  have hproducers : exactSum (f.producers.map producerWork) =
      8 * exactSum (f.producers.map Producer.remaining) + 5 * f.producers.length := by
    have hphase : ∀ p ∈ f.producers, producerWork p = 8 * p.remaining + 5 := by
      intro p hp
      obtain ⟨i, hi⟩ := List.getElem?_of_mem hp
      simp [producerWork, (h.producers i p hi).2.1]
    exact exactSum_map_affine hphase
  have hsources : exactSum (f.sources.map (queueWork 6 3)) = 0 :=
    exactSum_map_eq_zero fun q hq => by simp [queueWork, (h.sources q hq).1]
  have hstatuses : exactSum (f.dispatcher.sources.map sourceWork) = 2 * f.producers.length := by
    rw [h.dispatcher, Dispatcher.sources_start, List.map_replicate, exactSum_replicate]
    exact Nat.mul_comm _ _
  have hdispatcher : dispatcherWork f.dispatcher =
      exactSum (f.dispatcher.sources.map sourceWork) + 15 :=
    dispatcherWork_of_scan (by rw [h.dispatcher]; exact Dispatcher.phase_start _)
  have hcategories : exactSum (f.categories.map (queueWork 4 4)).toList = 0 := by
    simp [exactSum_toList, queueWork, (h.categories _).1]
  have hcoEditors : exactSum (f.coEditors.map coEditorWork).toList = 0 := by
    rw [h.coEditors]
    rfl
  have hscreenQueue : queueWork 2 2 f.screenQueue = 0 := by simp [queueWork, h.screenQueue.1]
  have hscreen : screenWork f.screen = 1 := by rw [h.screen]; rfl
  simp only [work]
  omega

end Newsroom.Floor
