import Newsroom.Buffer.Session
import Newsroom.Proofs.Buffer.Alone

/-!
# First in, first out

What goes through a buffer comes out in the order in which it went in, whatever the
threads do and however often the ring is wrapped around.

## Main Definitions

* `pushes`, `pops` — the messages that went into the ring and came out of it along a
  trace, each with the thread that moved it
* `messagesOf` — those that one thread moved
* `Thread.due` — the operations that have still to change the ring
* `Thread.unpushed`, `Thread.inHand` — the messages that a thread has still to put in,
  and the one it has taken out and not returned

## Main Statements

* `trace_invariant` — what every act keeps, with what it did, holds after a trace
* `Step.due` — a step does at most the first of the operations that are due
* `recounted_of_trace?` — what a thread has moved is what its operations say
* `fifo` — a buffer is a queue with room for as many messages as its capacity, also for
  each of its threads, and for a thread alone it gives the answers of a queue

## Design Notes

An insertion happens when its slot is filled, and a removal when its slot is emptied.  A
thread may return from the one much later than from the other; the order is that of the
changes to the ring.
-/

namespace Newsroom.Buffer

variable {α : Type} {capacity : Nat} {s s' : State α} {acts : List (Nat × Act α)}

/-! ### Traces -/

/-- The messages that went into the ring, each with the thread that put it in. -/
def pushes (acts : List (Nat × Act α)) : List (Nat × α) :=
  acts.flatMap fun e => e.2.pushed.map fun a => (e.1, a)

/-- The messages that came out of the ring, each with the thread that took it out. -/
def pops (acts : List (Nat × Act α)) : List (Nat × α) :=
  acts.flatMap fun e => e.2.popped.map fun a => (e.1, a)

/-- The messages that one thread moved. -/
def messagesOf (i : Nat) (moved : List (Nat × α)) : List α :=
  (moved.filter fun e => e.1 = i).map Prod.snd

/-- The message that an operation puts in. -/
def Operation.message? : Operation α → Option α
  | .insert a => some a
  | _ => none

/-- The operations of a thread that have still to change the ring. -/
def Thread.due (t : Thread α) : List (Operation α) :=
  match t.phase with
  | .ready => t.program
  | .permitted => t.program
  | .pushed => t.program.tail
  | .popped _ => t.program.tail

/-- The messages that a thread has still to put in. -/
def Thread.unpushed (t : Thread α) : List α := t.due.filterMap Operation.message?

/-- The message that a thread has taken out and not returned. -/
def Thread.inHand (t : Thread α) : List α :=
  match t.phase with
  | .popped a => [a]
  | _ => []

/-- What every act keeps, with what it did, holds after a trace. -/
theorem trace_invariant {P : State α → List (Nat × Act α) → Prop}
    (hkeep : ∀ s J i x s', P s J → act? s i = some (x, s') → P s' (J ++ [(i, x)]))
    {J : List (Nat × Act α)} {is : List Nat} (hs : P s J)
    (htrace : trace? s is = some (acts, s')) : P s' (J ++ acts) := by
  -- an act adds to those before it, which the induction leaves free
  induction is generalizing s J acts with
  | nil =>
      cases htrace
      simpa using hs
  | cons i is ih =>
      obtain ⟨⟨x, u⟩, hact, hrest⟩ := Option.bind_eq_some_iff.1 htrace
      obtain ⟨⟨rest, s''⟩, htail, heq⟩ := Option.map_eq_some_iff.1 hrest
      cases heq
      have hdone := ih (hkeep s J i x u hs hact) htail
      rwa [List.append_assoc] at hdone

/-- A run has a trace. -/
theorem exists_trace?_of_run? {is : List Nat} (hrun : Schedule.run? step? s is = some s') :
    ∃ acts, trace? s is = some (acts, s') := by
  induction is generalizing s with
  | nil =>
      cases hrun
      exact ⟨[], rfl⟩
  | cons i is ih =>
      obtain ⟨u, hu, hrest⟩ := Option.bind_eq_some_iff.1 hrun
      obtain ⟨x, hact⟩ := step?_eq_some_iff.1 hu
      obtain ⟨acts, hacts⟩ := ih hrest
      exact ⟨(i, x) :: acts, by rw [trace?, hact, Option.bind_some, hacts, Option.map_some]⟩

/-- What is moved after a further act. -/
theorem pushes_concat (i : Nat) (x : Act α) :
    pushes (acts ++ [(i, x)]) = pushes acts ++ x.pushed.map fun a => (i, a) := by
  simp [pushes]

theorem pops_concat (i : Nat) (x : Act α) :
    pops (acts ++ [(i, x)]) = pops acts ++ x.popped.map fun a => (i, a) := by
  simp [pops]

/-- What a thread has moved after a further act of its own or of another thread. -/
theorem messagesOf_append (j i : Nat) (moved : List (Nat × α)) (as : List α) :
    messagesOf j (moved ++ as.map fun a => (i, a)) =
      messagesOf j moved ++ if i = j then as else [] := by
  rw [messagesOf, List.filter_append, List.map_append]
  congr 1
  by_cases hij : i = j
  · rw [if_pos hij, List.filter_eq_self.2 fun e he => ?_, List.map_map]
    · exact List.map_id as
    · obtain ⟨a, -, rfl⟩ := List.mem_map.1 he
      exact decide_eq_true hij
  · rw [if_neg hij, List.filter_eq_nil_iff.2 fun e he => ?_, List.map_nil]
    obtain ⟨a, -, rfl⟩ := List.mem_map.1 he
    simpa using hij

/-! ### Order -/

/-- A buffer that was made, after a trace: what came out of the ring and what is in it is
what went into it. -/
theorem ordered_of_trace? {name : String} {b : Buffer α} {programs : List (List (Operation α))}
    {is : List Nat} (hmake : Buffer.make name capacity = .ok b)
    (htrace : trace? (State.start b programs) is = some (acts, s)) :
    ∃ as, Accounted capacity as s ∧
      (pops acts).map Prod.snd ++ as = (pushes acts).map Prod.snd := by
  apply trace_invariant (P := fun s acts => ∃ as, Accounted capacity as s ∧
    (pops acts).map Prod.snd ++ as = (pushes acts).map Prod.snd) ?_ ?_ htrace (J := [])
  · rintro s J i x s' ⟨as, h, horder⟩ hact
    obtain ⟨as', h', hflow⟩ := h.step hact
    refine ⟨as', h', ?_⟩
    rw [pops_concat, pushes_concat, List.map_append, List.map_append, ← horder]
    simp [Function.comp_def, hflow]
  · exact ⟨[], accounted_of_make hmake programs, rfl⟩

/-! ### What a thread has moved -/

/-- What a thread has moved agrees with its program and with what its operations have
returned. -/
def Recounted (programs : List (List (Operation α))) (s : State α) (acts : List (Nat × Act α)) :
    Prop :=
  ∀ (i : Nat) (program : List (Operation α)), programs[i]? = some program →
    ∃ t, s.threads[i]? = some t ∧
      messagesOf i (pushes acts) ++ t.unpushed = program.filterMap Operation.message? ∧
      messagesOf i (pops acts) = Session.removed t ++ t.inHand

theorem Session.removed_done (t : Thread α) (e : Effect α) :
    Session.removed (t.done e) =
      Session.removed t ++ match e with
        | .removed a => [a]
        | _ => [] := by
  cases e <;> simp [Session.removed, Thread.done]

/-- An operation that takes a message out puts none in. -/
theorem Operation.message?_of_removal {op : Operation α} (h : op.isRemoval = true) :
    op.message? = none := by
  cases op with
  | insert a => cases h
  | remove => rfl
  | tryRemove => rfl

/-- A step does at most the first of the operations that are due.  It puts in what that
says, and takes a message out if that says so and is not refused. -/
theorem Step.due {b b' : Buffer α} {t t' : Thread α} {x : Act α} (h : Step b t x b' t') :
    ∃ ops, t.due = ops ++ t'.due ∧ ops.filterMap Operation.message? = x.pushed ∧
      (x ≠ .refuse → ops.countP Operation.isRemoval = x.popped.length) := by
  cases h with
  | permitPush hphase hprogram hpermits =>
      exact ⟨[], by simp [Thread.due, hphase], rfl, fun _ => rfl⟩
  | permitPop hphase hprogram hremoval hpermits =>
      exact ⟨[], by simp [Thread.due, hphase], rfl, fun _ => rfl⟩
  | refuse hphase hprogram hnone =>
      exact ⟨[.tryRemove], by simp [Thread.due, Thread.done, hphase, hprogram], rfl, absurd rfl⟩
  | @push a ops r hphase hprogram hpush =>
      exact ⟨[.insert a], by simp [Thread.due, hphase, hprogram], rfl, fun _ => rfl⟩
  | @pop op ops a r hphase hprogram hremoval hpop =>
      refine ⟨[op], by simp [Thread.due, hphase, hprogram], ?_, fun _ => ?_⟩
      · exact List.filterMap_cons_none (Operation.message?_of_removal hremoval)
      · exact List.countP_cons_of_pos hremoval
  | returnInsert hphase hprogram hword =>
      exact ⟨[], by simp [Thread.due, Thread.done, hphase], rfl, fun _ => rfl⟩
  | returnRemove hphase hprogram hword =>
      exact ⟨[], by simp [Thread.due, Thread.done, hphase], rfl, fun _ => rfl⟩

theorem Step.unpushed {b b' : Buffer α} {t t' : Thread α} {x : Act α} (h : Step b t x b' t') :
    x.pushed ++ t'.unpushed = t.unpushed := by
  obtain ⟨ops, hdue, hpushed, -⟩ := h.due
  rw [Thread.unpushed, Thread.unpushed, hdue, List.filterMap_append, hpushed]

/-- What a thread has taken out it returns, and nothing else. -/
theorem Step.removed {b b' : Buffer α} {t t' : Thread α} {x : Act α} (h : Step b t x b' t') :
    Session.removed t' ++ t'.inHand = Session.removed t ++ t.inHand ++ x.popped := by
  cases h with
  | permitPush hphase hprogram hpermits =>
      simp [Act.popped, Thread.inHand, Session.removed, hphase]
  | permitPop hphase hprogram hremoval hpermits =>
      simp [Act.popped, Thread.inHand, Session.removed, hphase]
  | refuse hphase hprogram hnone =>
      rw [Session.removed_done]
      simp [Act.popped, Thread.inHand, Thread.done, hphase]
  | push hphase hprogram hpush =>
      simp [Act.popped, Thread.inHand, Session.removed, hphase]
  | pop hphase hprogram hremoval hpop =>
      simp [Act.popped, Thread.inHand, Session.removed, hphase]
  | returnInsert hphase hprogram hword =>
      rw [Session.removed_done]
      simp [Act.popped, Thread.inHand, Thread.done, hphase]
  | returnRemove hphase hprogram hword =>
      rw [Session.removed_done]
      simp [Act.popped, Thread.inHand, Thread.done, hphase]

/-- An act of one thread recounts what it moves, and leaves the others alone. -/
theorem Recounted.act {programs : List (List (Operation α))} {i : Nat} {x : Act α}
    (h : Recounted programs s acts) (hact : act? s i = some (x, s')) :
    Recounted programs s' (acts ++ [(i, x)]) := by
  obtain ⟨t, b', t', ht, hstep, rfl⟩ := act?_eq_some_iff.1 hact
  intro j program hprogram
  obtain ⟨u, hu, hunpushed, hreturned⟩ := h j program hprogram
  rw [pushes_concat, pops_concat, messagesOf_append, messagesOf_append]
  by_cases hij : i = j
  · subst hij
    cases ht.symm.trans hu
    refine ⟨t', by rw [getElem?_set_of_some ht, if_pos rfl], ?_, ?_⟩
    · rw [if_pos rfl, List.append_assoc, hstep.unpushed, hunpushed]
    · rw [if_pos rfl, hreturned, hstep.removed]
  · refine ⟨u, by rw [getElem?_set_of_some ht, if_neg (Ne.symm hij), hu], ?_, ?_⟩
    · rw [if_neg hij, List.append_nil, hunpushed]
    · rw [if_neg hij, List.append_nil, hreturned]

theorem recounted_of_trace? {b : Buffer α} {programs : List (List (Operation α))}
    {is : List Nat} (htrace : trace? (State.start b programs) is = some (acts, s)) :
    Recounted programs s acts := by
  apply trace_invariant (P := Recounted programs) ?_ ?_ htrace (J := [])
  · intro s J i x s' hrecounted hact
    exact hrecounted.act hact
  · intro i program hprogram
    refine ⟨{ program }, by simp [State.start, hprogram], ?_, rfl⟩
    simp [pushes, messagesOf, Thread.unpushed, Thread.due]

/-- What the others have taken out of what one thread put in comes from the beginning of
its program. -/
theorem messagesOf_take_prefix {i n : Nat} {moved : List (Nat × α)} {rest whole : List α}
    (h : messagesOf i moved ++ rest = whole) : messagesOf i (moved.take n) <+: whole :=
  (((List.take_prefix n moved).filter _).map _).trans ⟨rest, h⟩

/-! ### One thread alone -/

/-- What a single thread has learned is what the queue has answered. -/
theorem alone_of_run? {name : String} {b : Buffer α} {ops : List (Operation α)} {is : List Nat}
    (hmake : Buffer.make name capacity = .ok b)
    (hrun : Schedule.run? step? (State.start b [ops]) is = some s) :
    ∃ q t, Alone capacity (({ name, capacity } : Queue α).answers? ops)
      (Schedule.journal step? answer? (State.start b [ops]) is) q t s := by
  have hbegin : Alone capacity (({ name, capacity } : Queue α).answers? ops) []
      { name, capacity } { program := ops } (State.start b [ops]) :=
    { threads := rfl
      capacity_eq := rfl
      answers := by simp
      effects := rfl
      ahead := ⟨[], accounted_of_make hmake [ops], rfl⟩ }
  apply Schedule.journal_invariant (P := fun s known => ∃ q t, Alone capacity
    (({ name, capacity } : Queue α).answers? ops) known q t s) ?_ (J := []) ⟨_, _, hbegin⟩ hrun
  rintro s known i s' ⟨q, t, halone⟩ hstep
  exact halone.step hstep

/-! ### A buffer is a queue -/

/-- A buffer is a queue with room for as many messages as its capacity.  However its
threads take turns, what came out of the ring, with what is in it, is what went in, in
this order.  So the messages that came out are the first that went in; what a thread has
removed is what it took out, and of the messages of one thread the first in its program
are the first to come out.  A thread alone that comes to its end has learned what it would
have learned from the queue, with the length after each operation, and it comes to its
end if the queue never has to wait. -/
theorem fifo {name : String} {capacity : UInt64} {b : Buffer α}
    (hmake : Buffer.make name capacity.toNat = .ok b) :
    (∀ (programs : List (List (Operation α))) is acts s,
      trace? (State.start b programs) is = some (acts, s) →
      (pops acts).map Prod.snd ++ s.buffer.ring.contents = (pushes acts).map Prod.snd ∧
      s.buffer.ring.contents.length ≤ capacity.toNat ∧
      (pops acts).map Prod.snd = ((pushes acts).take (pops acts).length).map Prod.snd ∧
      ∀ i program, programs[i]? = some program →
        ∃ t, s.threads[i]? = some t ∧
          messagesOf i (pushes acts) ++ t.unpushed = program.filterMap Operation.message? ∧
          messagesOf i (pops acts) = Session.removed t ++ t.inHand ∧
          messagesOf i ((pushes acts).take (pops acts).length) <+:
            program.filterMap Operation.message?) ∧
    ∀ ops is s, Schedule.run? step? (State.start b [ops]) is = some s →
      let known := Schedule.journal step? answer? (State.start b [ops]) is
      let whole := ({ name, capacity := capacity.toNat } : Queue α).answers? ops
      ∃ t, s.threads = [t] ∧ is.length ≤ 3 * ops.length ∧ t.effects = known.map Prod.fst ∧
        (t.isFinished → whole = some known) ∧
        (∀ outcome, whole = some outcome →
          known <+: outcome ∧ (t.isFinished ∨ ∃ s', step? s 0 = some s')) := by
  refine ⟨?_, ?_⟩
  · intro programs is acts s htrace
    obtain ⟨as, h, horder⟩ := ordered_of_trace? hmake htrace
    have hcontents := h.ring.contents_eq
    refine ⟨by rw [hcontents, horder], ?_, ?_, ?_⟩
    · rw [hcontents]
      exact h.ring.length_le
    · rw [List.map_take, ← horder, ← List.length_map (f := Prod.snd), List.take_left]
    · intro i program hprogram
      obtain ⟨t, ht, hpushed, hpopped⟩ := recounted_of_trace? htrace i program hprogram
      exact ⟨t, ht, hpushed, hpopped, messagesOf_take_prefix hpushed⟩
  · intro ops is s hrun known whole
    obtain ⟨q, t, halone⟩ := alone_of_run? hmake hrun
    refine ⟨t, halone.threads, ?_, halone.effects, fun hfinished => ?_, fun outcome houtcome => ?_⟩
    · have hlength := Schedule.length_add_work_le (fun _ _ _ => work_lt_of_step?) hrun
      rw [work_start] at hlength
      simp only [List.map_cons, List.map_nil, exactSum_cons, exactSum_nil, Nat.add_zero] at hlength
      omega
    · exact halone.answers_of_finished (List.isEmpty_iff.1 hfinished)
    · obtain ⟨pending, -, hpending⟩ := Option.map_eq_some_iff.1 (halone.answers.symm.trans houtcome)
      refine ⟨⟨pending, hpending⟩, ?_⟩
      by_cases hfinished : t.program = []
      · exact .inl (List.isEmpty_iff.2 hfinished)
      · have hwhole := Option.isSome_of_eq_some houtcome
        exact .inr (halone.progress (toNat_lt_limit capacity) hwhole hfinished)

/-- Two messages go around a ring of one slot, between two threads and with one alone. -/
theorem fifo_one :
    (∃ acts s, trace? (State.start (empty 1) [[.insert 5, .insert 6], [.remove, .tryRemove]])
        [0, 0, 0, 1, 1, 1, 0, 0, 0, 1, 1, 1] = some (acts, s) ∧
      pops acts = [(1, 5), (1, 6)] ∧
      (pops acts).map Prod.snd ++ s.buffer.ring.contents = (pushes acts).map Prod.snd) ∧
    ∃ s, Schedule.run? step? (State.start (empty 1) [[.tryRemove, .insert 5, .remove]])
        [0, 0, 0, 0, 0, 0] = some s ∧
      Schedule.journal step? answer? (State.start (empty 1) [[.tryRemove, .insert 5, .remove]])
        [0, 0, 0, 0, 0, 0] <+: [(.empty, 0), (.inserted, 1), (.removed 5, 0)] := by
  have hmake : Buffer.make "lone" (1 : UInt64).toNat = .ok (empty 1 : Buffer Nat) := rfl
  refine ⟨?_, ?_⟩
  · have htrace : ((trace? (State.start (empty 1) [[.insert 5, .insert 6], [.remove, .tryRemove]])
        [0, 0, 0, 1, 1, 1, 0, 0, 0, 1, 1, 1]).any fun r => pops r.1 = [(1, 5), (1, 6)]) = true := by
      decide +kernel
    obtain ⟨⟨acts, s⟩, hs, hpops⟩ := (Option.any_eq_true _ _).1 htrace
    exact ⟨acts, s, hs, of_decide_eq_true hpops, ((fifo hmake).1 _ _ _ _ hs).1⟩
  · have hrun : (Schedule.run? step? (State.start (empty 1) [[.tryRemove, .insert 5, .remove]])
        [0, 0, 0, 0, 0, 0]).isSome = true := by
      decide +kernel
    obtain ⟨s, hs⟩ := Option.isSome_iff_exists.1 hrun
    obtain ⟨t, -, -, -, -, hknown⟩ := (fifo hmake).2 _ _ _ hs
    exact ⟨s, hs, (hknown _ rfl).1⟩

end Newsroom.Buffer
