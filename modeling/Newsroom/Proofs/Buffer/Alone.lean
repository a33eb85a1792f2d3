import Newsroom.Proofs.Buffer.Accounts
import Newsroom.Queue

/-!
# One thread alone at a buffer

A thread that is the only one at a buffer learns what it would learn from a plain queue,
and has to wait exactly where the queue has to.

## Main Definitions

* `Queue.perform?`, `Queue.answers?` — operations on a queue one after the other, with
  what comes of each and the number of messages after it
* `Buffer.answer?` — the same of the operation that a step at a buffer completes
* `Buffer.Completes` — what comes of an operation, by the messages before and after it
* `Buffer.Alone` — how far a single thread has come, next to the queue

## Main Statements

* `Completes.perform?` — what comes of an operation at a buffer comes of it at a queue
* `Alone.step` — a step of the thread completes at most the operation that is next in
  the queue, and with the same answer
* `Alone.progress` — the thread need not wait where the queue need not
-/

namespace Newsroom

variable {α : Type}

/-- What comes of an operation on a queue, and the queue after it, if there is no need
to wait. -/
def Queue.perform? (q : Queue α) : Buffer.Operation α → Option (Buffer.Effect α × Queue α)
  | .insert a => (q.insert? a).map fun q => (.inserted, q)
  | .remove => q.remove?.map fun r => (.removed r.1, r.2)
  | .tryRemove =>
      match q.remove? with
      | some r => some (.removed r.1, r.2)
      | none => some (.empty, q)

/-- What comes of operations on a queue one after the other, each with the number of
messages after it, if there is never a need to wait. -/
def Queue.answers? (q : Queue α) : List (Buffer.Operation α) → Option (List (Buffer.Effect α × Nat))
  | [] => some []
  | op :: ops =>
      (q.perform? op).bind fun r => (answers? r.2 ops).map fun as => (r.1, r.2.items.length) :: as

namespace Buffer

variable {capacity : Nat} {as : List α} {q : Queue α} {s s' : State α} {t : Thread α}
  {whole : Option (List (Effect α × Nat))} {known : List (Effect α × Nat)}

/-- What comes of the operation that a step completes. -/
def Act.effect? : Act α → Option (Effect α)
  | .refuse => some .empty
  | .returnInsert => some .inserted
  | .returnRemove a => some (.removed a)
  | _ => none

/-- What comes of the operation that a step of a thread completes, with the length after
it. -/
def answer? (s : State α) (i : Nat) : Option (Effect α × Nat) :=
  (act? s i).bind fun r => r.1.effect?.map fun e => (e, r.2.buffer.len)

/-- The messages in the ring next to those in a queue on which the operation of a thread
is still to be done. -/
def Thread.Ahead (t : Thread α) (before now : List α) : Prop :=
  match t.phase, t.program with
  | .pushed, .insert a :: _ => now = before ++ [a]
  | .popped a, _ => before = a :: now
  | _, _ => now = before

/-- A single thread that has completed some operations.  The queue has done the same, and
all its answers are those that the thread has learned and those that it has for what is
left of the program. -/
structure Alone (capacity : Nat) (whole : Option (List (Effect α × Nat)))
    (known : List (Effect α × Nat)) (q : Queue α) (t : Thread α) (s : State α) : Prop where
  threads : s.threads = [t]
  capacity_eq : q.capacity = capacity
  answers : whole = (q.answers? t.program).map fun pending => known ++ pending
  effects : t.effects = known.map Prod.fst
  ahead : ∃ as, Accounted capacity as s ∧ t.Ahead q.items as

/-! ### A queue -/

/-- What comes of an operation on a queue, by the messages before and after it. -/
inductive Completes (before now : List α) : Operation α → Effect α → Prop
  | inserted {a : α} (hnow : now = before ++ [a]) : Completes before now (.insert a) .inserted
  | removed {op : Operation α} {a : α} (hremoval : op.isRemoval = true)
      (hbefore : before = a :: now) : Completes before now op (.removed a)
  | empty (hbefore : before = []) (hnow : now = before) : Completes before now .tryRemove .empty

/-- The first of the answers, and the queue that gives the others. -/
theorem answers?_cons {op : Operation α} {ops : List (Operation α)} {e : Effect α} {r : Queue α}
    (h : q.perform? op = some (e, r)) :
    q.answers? (op :: ops) =
      (r.answers? ops).map fun pending => (e, r.items.length) :: pending := by
  rw [Queue.answers?, h, Option.bind_some]

/-- A queue that has all the answers has the first of them. -/
theorem perform?_of_answers? {op : Operation α} {ops : List (Operation α)}
    {pending : List (Effect α × Nat)} (h : q.answers? (op :: ops) = some pending) :
    (q.perform? op).isSome := by
  obtain ⟨r, hperform, -⟩ := Option.bind_eq_some_iff.1 h
  exact Option.isSome_iff_exists.2 ⟨r, hperform⟩

/-- An operation that goes on at a buffer with some messages goes on at a queue with
them. -/
theorem Completes.perform? {op : Operation α} {e : Effect α} {now : List α}
    (h : Completes q.items now op e) (hroom : now.length ≤ q.capacity) :
    q.perform? op = some (e, { q with items := now }) := by
  cases h with
  | @inserted a hnow =>
      subst hnow
      rw [List.length_append, List.length_singleton] at hroom
      simp [Queue.perform?, Queue.insert?, Nat.lt_of_succ_le hroom]
  | @removed op a hremoval hbefore =>
      have hremove : q.remove? = some (a, { q with items := now }) := by
        simp [Queue.remove?, hbefore]
      cases op with
      | insert b => cases hremoval
      | remove => simp [Queue.perform?, hremove]
      | tryRemove => simp [Queue.perform?, hremove]
  | empty hbefore hnow =>
      subst hnow
      have hnone : q.remove? = none := by simp [Queue.remove?, hbefore]
      simp only [Queue.perform?, hnone]

/-! ### Steps -/

/-- A step goes on with an operation, or completes it. -/
theorem Step.ahead {b b' : Buffer α} {t' : Thread α} {x : Act α} {before now now' : List α}
    (h : Step b t x b' t') (hfits : t.Fits) (hahead : t.Ahead before now)
    (hflow : now ++ x.pushed = x.popped ++ now')
    (hempty : t.phase = .ready → b.readSlots.permits = 0 → now = []) :
    (x.effect? = none ∧ t'.program = t.program ∧ t'.Ahead before now') ∨
      ∃ op ops e, x.effect? = some e ∧ t.program = op :: ops ∧ t'.program = ops ∧
        t'.phase = .ready ∧ Completes before now' op e := by
  cases h with
  | permitPush hphase hprogram hpermits =>
      have hkept : now = now' := (List.append_nil now).symm.trans hflow
      have hsame : now = before := by simpa [Thread.Ahead, hphase] using hahead
      exact .inl ⟨rfl, rfl, by simpa [Thread.Ahead] using hkept.symm.trans hsame⟩
  | permitPop hphase hprogram hremoval hpermits =>
      have hkept : now = now' := (List.append_nil now).symm.trans hflow
      have hsame : now = before := by simpa [Thread.Ahead, hphase] using hahead
      exact .inl ⟨rfl, rfl, by simpa [Thread.Ahead] using hkept.symm.trans hsame⟩
  | @refuse ops hphase hprogram hnone =>
      have hkept : now = now' := (List.append_nil now).symm.trans hflow
      have hsame : now = before := by simpa [Thread.Ahead, hphase] using hahead
      have hprogram' : (t.done .empty).program = ops := by simp [Thread.done, hprogram]
      exact .inr ⟨_, ops, _, rfl, hprogram, hprogram', rfl,
        .empty (hsame.symm.trans (hempty hphase hnone)) (hkept.symm.trans hsame)⟩
  | @push a ops r hphase hprogram hpush =>
      have hmore : now ++ [a] = now' := hflow
      have hsame : now = before := by simpa [Thread.Ahead, hphase] using hahead
      exact .inl ⟨rfl, rfl, by simpa [Thread.Ahead, hprogram, hsame] using hmore.symm⟩
  | @pop op ops a r hphase hprogram hremoval hpop =>
      have hfront : now = a :: now' := (List.append_nil now).symm.trans hflow
      have hsame : now = before := by simpa [Thread.Ahead, hphase] using hahead
      exact .inl ⟨rfl, rfl, by simpa [Thread.Ahead] using hsame.symm.trans hfront⟩
  | @returnInsert op ops hphase hprogram hword =>
      have hkept : now = now' := (List.append_nil now).symm.trans hflow
      have hprogram' : (t.done .inserted).program = ops := by simp [Thread.done, hprogram]
      have hinsert : op.isRemoval = false := by simpa [Thread.Fits, hphase, hprogram] using hfits
      cases op with
      | insert a =>
          have hmore : now = before ++ [a] := by
            simpa [Thread.Ahead, hphase, hprogram] using hahead
          exact .inr ⟨_, ops, _, rfl, hprogram, hprogram', rfl, .inserted (hkept ▸ hmore)⟩
      | remove => cases hinsert
      | tryRemove => cases hinsert
  | @returnRemove op ops a hphase hprogram hword =>
      have hkept : now = now' := (List.append_nil now).symm.trans hflow
      have hprogram' : (t.done (.removed a)).program = ops := by simp [Thread.done, hprogram]
      have hremoval : op.isRemoval = true := by simpa [Thread.Fits, hphase, hprogram] using hfits
      have hfront : before = a :: now := by simpa [Thread.Ahead, hphase] using hahead
      exact .inr ⟨_, ops, _, rfl, hprogram, hprogram', rfl, .removed hremoval (hkept ▸ hfront)⟩

/-- A thread keeps what came of the operation that a step completes. -/
theorem Step.effects_eq {b b' : Buffer α} {t' : Thread α} {x : Act α} (h : Step b t x b' t') :
    t'.effects = t.effects ++ x.effect?.toList := by
  cases h with
  | refuse hphase hprogram hnone => rfl
  | returnInsert hphase hprogram hword => rfl
  | returnRemove hphase hprogram hword => rfl
  | permitPush hphase hprogram hpermits => exact (List.append_nil _).symm
  | permitPop hphase hprogram hremoval hpermits => exact (List.append_nil _).symm
  | push hphase hprogram hpush => exact (List.append_nil _).symm
  | pop hphase hprogram hremoval hpop => exact (List.append_nil _).symm

/-- A single thread that has begun nothing leaves the buffer at rest. -/
theorem Accounted.atRest_of_lone (h : Accounted capacity as s) (hthreads : s.threads = [t])
    (hphase : t.phase = .ready) : s.buffer.AtRest capacity as :=
  h.atRest fun u hu => by
    rw [hthreads, List.mem_singleton] at hu
    rw [hu, hphase]

/-- With no other thread between the permits and the ring, no permit means no message. -/
theorem AtRest.eq_nil {b : Buffer α} (h : b.AtRest capacity as)
    (hnone : b.readSlots.permits = 0) : as = [] :=
  List.length_eq_zero_iff.1 (h.reads.symm.trans hnone)

/-- A step of a single thread goes on with its operation, or completes it as the queue
does and keeps what came of it. -/
theorem Alone.step {i : Nat} (h : Alone capacity whole known q t s)
    (hstep : step? s i = some s') :
    ∃ q' t', Alone capacity whole (known ++ (answer? s i).toList) q' t' s' := by
  obtain ⟨x, hact⟩ := step?_eq_some_iff.1 hstep
  obtain ⟨as, haccounted, hahead⟩ := h.ahead
  obtain ⟨as', haccounted', hflow⟩ := haccounted.step hact
  have hanswer : answer? s i = x.effect?.map fun e => (e, s'.buffer.len) := by
    simp [answer?, hact]
  obtain ⟨u, b', t', hu, hthread, rfl⟩ := act?_eq_some_iff.1 hact
  have hlen : b'.len = as'.length := haccounted'.len
  -- there is no other thread that could take the step
  have hi : i = 0 := by
    obtain ⟨hlt, -⟩ := List.getElem?_eq_some_iff.1 hu
    rw [h.threads, List.length_singleton] at hlt
    omega
  subst hi
  rw [h.threads] at hu haccounted' hanswer ⊢
  cases hu
  have hfits := haccounted.fits t (by simp [h.threads])
  have hlearned := hthread.effects_eq
  rw [h.effects] at hlearned
  have hempty : t.phase = .ready → s.buffer.readSlots.permits = 0 → as = [] :=
    fun hphase => (haccounted.atRest_of_lone h.threads hphase).eq_nil
  rcases hthread.ahead hfits hahead hflow hempty with
    ⟨heffect, hprogram, hahead'⟩ | ⟨op, ops, e, heffect, hprogram, hprogram', hphase', hcompletes⟩
  · rw [heffect] at hanswer hlearned
    rw [hanswer]
    refine ⟨q, t', ?_⟩
    exact
      { threads := rfl
        capacity_eq := h.capacity_eq
        answers := by simpa [hprogram] using h.answers
        effects := by simpa using hlearned
        ahead := ⟨as', haccounted', hahead'⟩ }
  · have hroom : as'.length ≤ q.capacity := by
      rw [h.capacity_eq]
      exact haccounted'.ring.length_le
    have hanswers := h.answers
    rw [hprogram, answers?_cons (hcompletes.perform? hroom)] at hanswers
    rw [heffect] at hanswer hlearned
    rw [hanswer]
    refine ⟨{ q with items := as' }, t', ?_⟩
    exact
      { threads := rfl
        capacity_eq := h.capacity_eq
        answers := by simpa [hprogram', hlen, Function.comp_def] using hanswers
        effects := by simpa using hlearned
        ahead := ⟨as', haccounted', by simp [Thread.Ahead, hphase']⟩ }

/-- A single thread that has done its program has learned all the answers. -/
theorem Alone.answers_of_finished (h : Alone capacity whole known q t s)
    (hfinished : t.program = []) : whole = some known := by
  rw [h.answers, hfinished]
  simp [Queue.answers?]

/-- A single thread need not wait where the queue need not. -/
theorem Alone.progress (h : Alone capacity whole known q t s) (hword : capacity < Word.limit)
    (hwhole : whole.isSome) (hunfinished : t.program ≠ []) : ∃ s', step? s 0 = some s' := by
  obtain ⟨as, haccounted, hahead⟩ := h.ahead
  have ht : s.threads[0]? = some t := by rw [h.threads]; rfl
  rcases haccounted.step_or_waits hword ht hunfinished with hgo | ⟨hphase, hwaits⟩
  · exact hgo
  have hsame : as = q.items := by simpa [Thread.Ahead, hphase] using hahead
  rw [h.answers, Option.isSome_map] at hwhole
  obtain ⟨pending, hpending⟩ := Option.isSome_iff_exists.1 hwhole
  rcases hwaits with ⟨a, ops, hprogram, hnone⟩ | ⟨ops, hprogram, hnone⟩
  · rw [hprogram] at hpending
    have hroom : q.items.length < q.capacity := by
      simpa [Queue.perform?, Queue.insert?] using perform?_of_answers? hpending
    have hwrites := (haccounted.atRest_of_lone h.threads hphase).writes
    rw [hnone, hsame] at hwrites
    rw [h.capacity_eq] at hroom
    omega
  · have hnil := (haccounted.atRest_of_lone h.threads hphase).eq_nil hnone
    rw [hprogram] at hpending
    have hperform := perform?_of_answers? hpending
    simp [Queue.perform?, Queue.remove?, ← hsame, hnil] at hperform

end Buffer

end Newsroom
