import Newsroom.Proofs.Buffer.Ring
import Newsroom.Proofs.Buffer.Step

/-!
# Permits and slots

The permits of a buffer, the threads in the middle of an operation and the slots of its
ring account for one another, at every moment and whatever its threads do.

## Main Definitions

* `Buffer.Accounted` — a buffer and its threads, with the messages that it holds
* `Buffer.AtRest` — a buffer on which no thread is in the middle of an operation
* `Act.pushed`, `Act.popped` — what a step moves into the ring and out of it
* `Waits` — a thread cannot go on for want of a permit

## Main Statements

* `AtRest.accounted`, `Accounted.atRest` — a buffer at rest, before its threads begin and
  where all of them have ended an operation
* `Step.balance` — what a step does to the permits, by the roles of its thread
* `Accounted.step` — every step keeps the accounts, and the messages in the ring change
  by what it moves
* `Accounted.room`, `Accounted.message`, `Accounted.read_release`,
  `Accounted.write_release` — no thread that holds a permit, or owes one, is refused
* `Accounted.step_or_waits` — a thread that cannot go on waits for a permit
* `accounts` — the accounts in every state of a buffer that began empty

## Design Notes

A permit is taken before the lock and one of the other kind is given back after it, so
that any number of threads stand between the semaphores and the ring.  Each of them is
counted once on either side: a thread about to fill a slot has reserved a free slot, and
one that has filled it has not yet announced it.
-/

namespace Newsroom.Buffer

open Semaphore (release_eq_ok_iff)

variable {α : Type} {capacity : Nat} {as : List α} {s s' : State α} {t : Thread α} {x : Act α}

/-- What a step puts into the ring. -/
def Act.pushed : Act α → List α
  | .push a => [a]
  | _ => []

/-- What a step takes out of the ring. -/
def Act.popped : Act α → List α
  | .pop a => [a]
  | _ => []

/-- A buffer that holds some messages, with threads at work on it. -/
structure Accounted (capacity : Nat) (as : List α) (s : State α) : Prop where
  ring : s.buffer.ring.Holds capacity as
  /-- Every slot is free, reserved, occupied, or emptied and not announced. -/
  writes : s.buffer.writeSlots.permits + s.count .pushing + as.length + s.count .popped = capacity
  /-- Every message is announced, not announced yet, or promised to a thread. -/
  reads : s.buffer.readSlots.permits + s.count .pushed + s.count .popping = as.length
  len : s.buffer.len = as.length
  fits : ∀ t ∈ s.threads, t.Fits

/-- A buffer that holds some messages while no thread is in the middle of an operation. -/
structure AtRest (capacity : Nat) (as : List α) (b : Buffer α) : Prop where
  ring : b.ring.Holds capacity as
  writes : b.writeSlots.permits + as.length = capacity
  reads : b.readSlots.permits = as.length
  len : b.len = as.length

/-! ### Buffers at rest -/

/-- A buffer that was made is empty, and accounts for its slots. -/
theorem atRest_of_make {name : String} {b : Buffer α} (hmake : Buffer.make name capacity = .ok b) :
    b.AtRest capacity [] := by
  unfold Buffer.make at hmake
  split at hmake
  · cases hmake
  · next hroom =>
    cases hmake
    exact
      { ring := Ring.holds_empty (Nat.pos_of_ne_zero hroom)
        writes := rfl
        reads := rfl
        len := rfl }

/-- Threads that have begun nothing have no role. -/
theorem count_of_ready (hready : ∀ t ∈ s.threads, t.phase = .ready) {r : Role}
    (hr : r ≠ .outside) : s.count r = 0 := by
  apply List.countP_eq_zero.2
  intro t ht
  have hrole : t.role = .outside := by simp [Thread.role, hready t ht]
  simpa [hrole] using Ne.symm hr

/-- Threads that have not begun leave a buffer at rest. -/
theorem ready_start (b : Buffer α) (programs : List (List (Operation α))) :
    ∀ t ∈ (State.start b programs).threads, t.phase = .ready := by
  intro t ht
  obtain ⟨program, -, rfl⟩ := List.mem_map.1 ht
  rfl

/-- The accounts of a buffer at rest, with threads that are in the middle of nothing. -/
theorem AtRest.accounted (h : s.buffer.AtRest capacity as)
    (hready : ∀ t ∈ s.threads, t.phase = .ready) : Accounted capacity as s := by
  refine
    { ring := h.ring
      writes := ?_
      reads := ?_
      len := h.len
      fits := fun t ht => ?_ }
  · rw [count_of_ready hready (by decide), count_of_ready hready (by decide)]
    exact h.writes
  · rw [count_of_ready hready (by decide), count_of_ready hready (by decide)]
    exact h.reads
  · simp [Thread.Fits, hready t ht]

theorem accounted_of_make {name : String} {b : Buffer α}
    (hmake : Buffer.make name capacity = .ok b) (programs : List (List (Operation α))) :
    Accounted capacity [] (State.start b programs) :=
  (atRest_of_make hmake).accounted (ready_start b programs)

/-- A buffer is at rest where no thread is in the middle of an operation. -/
theorem Accounted.atRest (h : Accounted capacity as s)
    (hready : ∀ t ∈ s.threads, t.phase = .ready) : s.buffer.AtRest capacity as := by
  have hwrites := h.writes
  have hreads := h.reads
  rw [count_of_ready hready (by decide), count_of_ready hready (by decide)] at hwrites hreads
  exact
    { ring := h.ring
      writes := hwrites
      reads := hreads
      len := h.len }

/-! ### Threads in the middle of an operation -/

/-- A thread with a role is counted. -/
theorem count_pos (ht : t ∈ s.threads) : 0 < s.count t.role :=
  List.countP_pos_iff.2 ⟨t, ht, by simp⟩

/-- There is room for a thread that holds a permit to fill a slot. -/
theorem Accounted.room (h : Accounted capacity as s) (ht : t ∈ s.threads)
    (hrole : t.role = .pushing) : as.length < capacity := by
  have hwrites := h.writes
  have hpos := count_pos ht
  rw [hrole] at hpos
  omega

/-- There is a message for a thread that holds a permit to empty a slot. -/
theorem Accounted.message (h : Accounted capacity as s) (ht : t ∈ s.threads)
    (hrole : t.role = .popping) : ∃ a rest, as = a :: rest := by
  have hreads := h.reads
  have hpos := count_pos ht
  rw [hrole] at hpos
  cases as with
  | nil =>
      rw [List.length_nil] at hreads
      omega
  | cons a rest => exact ⟨a, rest, rfl⟩

/-- The permit that a thread owes after it has filled a slot is not one too many. -/
theorem Accounted.read_release (h : Accounted capacity as s) (hword : capacity < Word.limit)
    (ht : t ∈ s.threads) (hrole : t.role = .pushed) :
    s.buffer.readSlots.permits + 1 < Word.limit := by
  have hreads := h.reads
  have hle := h.ring.length_le
  have hpos := count_pos ht
  rw [hrole] at hpos
  omega

/-- The permit that a thread owes after it has emptied a slot is not one too many. -/
theorem Accounted.write_release (h : Accounted capacity as s) (hword : capacity < Word.limit)
    (ht : t ∈ s.threads) (hrole : t.role = .popped) :
    s.buffer.writeSlots.permits + 1 < Word.limit := by
  have hwrites := h.writes
  have hpos := count_pos ht
  rw [hrole] at hpos
  omega

/-! ### Steps -/

/-- The slots that a thread of a role keeps from being announced as free. -/
def Role.reserves : Role → Nat
  | .pushing => 1
  | .popped => 1
  | _ => 0

/-- The messages that a thread of a role keeps from being announced, or has been
promised. -/
def Role.covers : Role → Nat
  | .pushed => 1
  | .popping => 1
  | _ => 0

/-- The counted threads change by the roles that one of them leaves and takes. -/
theorem count_move {i : Nat} (ht : s.threads[i]? = some t) (b' : Buffer α) (t' : Thread α) :
    let s' : State α := ⟨b', s.threads.set i t'⟩
    s'.count .pushing + s'.count .popped + t.role.reserves =
        s.count .pushing + s.count .popped + t'.role.reserves ∧
      s'.count .pushed + s'.count .popping + t.role.covers =
        s.count .pushed + s.count .popping + t'.role.covers := by
  intro s'
  have hpushing := count_set ht b' t' .pushing
  have hpushed := count_set ht b' t' .pushed
  have hpopping := count_set ht b' t' .popping
  have hpopped := count_set ht b' t' .popped
  cases hrole : t.role <;> cases hrole' : t'.role <;>
    simp only [hrole, hrole', reduceCtorEq, if_true, if_false]
      at hpushing hpushed hpopping hpopped <;>
    simp only [s', Role.reserves, Role.covers] <;> omega

/-- What a step does to the permits of either kind it makes up for by the role that it
leaves its thread in, or by the message that it moves. -/
theorem Step.balance {b b' : Buffer α} {t' : Thread α} (h : Step b t x b' t') :
    b'.writeSlots.permits + t'.role.reserves + x.pushed.length =
        b.writeSlots.permits + t.role.reserves + x.popped.length ∧
      b'.readSlots.permits + t'.role.covers + x.popped.length =
        b.readSlots.permits + t.role.covers + x.pushed.length := by
  cases h with
  | @permitPush a ops n hphase hprogram hpermits =>
      have hrole : t.role = .outside := by simp [Thread.role, hphase]
      have hrole' : ({ t with phase := .permitted } : Thread α).role = .pushing := by
        simp [Thread.role, hprogram]
      rw [hrole, hrole', hpermits]
      exact ⟨rfl, rfl⟩
  | @permitPop op ops n hphase hprogram hremoval hpermits =>
      have hrole : t.role = .outside := by simp [Thread.role, hphase]
      have hrole' : ({ t with phase := .permitted } : Thread α).role = .popping :=
        Thread.role_of_removal rfl hprogram hremoval
      rw [hrole, hrole', hpermits]
      exact ⟨rfl, rfl⟩
  | refuse hphase hprogram hnone =>
      have hrole : t.role = .outside := by simp [Thread.role, hphase]
      rw [hrole]
      exact ⟨rfl, rfl⟩
  | @push a ops r hphase hprogram hpush =>
      have hrole : t.role = .pushing := by simp [Thread.role, hphase, hprogram]
      have hrole' : ({ t with phase := .pushed } : Thread α).role = .pushed := by
        simp [Thread.role, hprogram]
      rw [hrole, hrole']
      exact ⟨rfl, rfl⟩
  | @pop op ops a r hphase hprogram hremoval hpop =>
      have hrole : t.role = .popping := Thread.role_of_removal hphase hprogram hremoval
      have hrole' : ({ t with phase := .popped a } : Thread α).role = .popped := by
        simp [Thread.role, hprogram]
      rw [hrole, hrole']
      exact ⟨rfl, rfl⟩
  | @returnInsert op ops hphase hprogram hword =>
      have hrole : t.role = .pushed := by simp [Thread.role, hphase, hprogram]
      rw [hrole]
      exact ⟨rfl, rfl⟩
  | @returnRemove op ops a hphase hprogram hword =>
      have hrole : t.role = .popped := by simp [Thread.role, hphase, hprogram]
      rw [hrole]
      exact ⟨rfl, rfl⟩

/-- What a step does to the ring and to the length.  What was in the ring, with what is
put in, is what is taken out and what is left. -/
theorem Accounted.ring_step {b' : Buffer α} {t' : Thread α} (h : Accounted capacity as s)
    (ht : t ∈ s.threads) (hstep : Step s.buffer t x b' t') :
    ∃ as', b'.ring.Holds capacity as' ∧ b'.len = as'.length ∧
      as ++ x.pushed = x.popped ++ as' := by
  have hlen := h.len
  cases hstep with
  | @push a ops r hphase hprogram hpush =>
      have hroom := h.room ht (by simp [Thread.role, hphase, hprogram])
      obtain ⟨r', hr', hholds⟩ := h.ring.push? hroom a
      cases hpush.symm.trans hr'
      exact ⟨as ++ [a], hholds, by simp [hlen], rfl⟩
  | @pop op ops a r hphase hprogram hremoval hpop =>
      obtain ⟨a', rest, rfl⟩ := h.message ht (Thread.role_of_removal hphase hprogram hremoval)
      obtain ⟨r', hr', hholds⟩ := h.ring.pop?
      cases hpop.symm.trans hr'
      exact ⟨rest, hholds, by simp [hlen], List.append_nil _⟩
  | _ => exact ⟨as, h.ring, hlen, List.append_nil as⟩

/-- A step keeps the accounts, and the messages in the ring change by what it moves. -/
theorem Accounted.step {i : Nat} (h : Accounted capacity as s) (hact : act? s i = some (x, s')) :
    ∃ as', Accounted capacity as' s' ∧ as ++ x.pushed = x.popped ++ as' := by
  obtain ⟨t, b', t', ht, hstep, rfl⟩ := act?_eq_some_iff.1 hact
  obtain ⟨as', hring, hlen, hflow⟩ := h.ring_step (List.mem_of_getElem? ht) hstep
  obtain ⟨hreserved, hcovered⟩ := count_move ht b' t'
  obtain ⟨hfree, hannounced⟩ := hstep.balance
  have hmoved := congrArg List.length hflow
  have hwrites := h.writes
  have hreads := h.reads
  rw [List.length_append, List.length_append] at hmoved
  refine ⟨as',
    { ring := hring
      writes := ?_
      reads := ?_
      len := hlen
      fits := fun u hu => ?_ }, hflow⟩
  · dsimp only at hreserved ⊢
    omega
  · dsimp only at hcovered ⊢
    omega
  · rcases mem_of_mem_set hu with rfl | hmem
    · exact hstep.fits
    · exact h.fits u hmem

/-! ### Waiting -/

/-- A thread waits for a permit: it would fill a slot and no slot is announced as free,
or it would empty one and no message is announced. -/
def Waits (b : Buffer α) (t : Thread α) : Prop :=
  t.phase = .ready ∧
    ((∃ a ops, t.program = .insert a :: ops ∧ b.writeSlots.permits = 0) ∨
      ∃ ops, t.program = .remove :: ops ∧ b.readSlots.permits = 0)

/-- Where each thread has ended or waits no thread can go on. -/
theorem stuck_of_waits (h : ∀ t ∈ s.threads, t.program = [] ∨ Waits s.buffer t) (i : Nat) :
    step? s i = none := by
  have hnone : ∀ t ∈ s.threads, threadStep? s.buffer t = none := by
    intro t ht
    rcases h t ht with hended | ⟨hphase, ⟨a, ops, hprogram, hnone⟩ | ⟨ops, hprogram, hnone⟩⟩
    · cases hphase : t.phase <;> simp [threadStep?, hphase, hended]
    · simp [threadStep?, hphase, hprogram, takeWrite?, Semaphore.acquire?_eq_none_iff.2 hnone]
    · simp [threadStep?, hphase, hprogram, takeRead?, Semaphore.acquire?_eq_none_iff.2 hnone]
  cases ht : s.threads[i]? with
  | none => simp [step?, act?, ht]
  | some t => simp [step?, act?, ht, hnone t (List.mem_of_getElem? ht)]

/-- A thread of which nothing is left to do has begun nothing. -/
theorem Thread.Fits.phase_of_nil (h : t.Fits) (hprogram : t.program = []) : t.phase = .ready := by
  unfold Thread.Fits at h
  rw [hprogram] at h
  cases hphase : t.phase <;> simp_all

/-- A thread that is not finished can go on, unless it waits for a permit. -/
theorem Accounted.step_or_waits {i : Nat} (h : Accounted capacity as s)
    (hword : capacity < Word.limit) (ht : s.threads[i]? = some t) (hunfinished : t.program ≠ []) :
    (∃ s', step? s i = some s') ∨ Waits s.buffer t := by
  have hmem := List.mem_of_getElem? ht
  have hgo : ∀ x b' t', Step s.buffer t x b' t' → ∃ s', step? s i = some s' := by
    intro x b' t' hstep
    exact ⟨_, step?_eq_some_iff.2 ⟨x, act?_eq_some_iff.2 ⟨t, b', t', ht, hstep, rfl⟩⟩⟩
  obtain ⟨op, ops, hprogram⟩ := List.exists_cons_of_ne_nil hunfinished
  cases hphase : t.phase with
  | ready =>
      cases op with
      | insert a =>
          cases hpermits : s.buffer.writeSlots.permits with
          | zero => exact .inr ⟨hphase, .inl ⟨a, ops, hprogram, hpermits⟩⟩
          | succ n => exact .inl (hgo _ _ _ (.permitPush hphase hprogram hpermits))
      | remove =>
          cases hpermits : s.buffer.readSlots.permits with
          | zero => exact .inr ⟨hphase, .inr ⟨ops, hprogram, hpermits⟩⟩
          | succ n => exact .inl (hgo _ _ _ (.permitPop hphase hprogram rfl hpermits))
      | tryRemove =>
          cases hpermits : s.buffer.readSlots.permits with
          | zero => exact .inl (hgo _ _ _ (.refuse hphase hprogram hpermits))
          | succ n => exact .inl (hgo _ _ _ (.permitPop hphase hprogram rfl hpermits))
  | permitted =>
      cases hremoval : op.isRemoval with
      | true =>
          obtain ⟨a, rest, rfl⟩ := h.message hmem (Thread.role_of_removal hphase hprogram hremoval)
          obtain ⟨r, hpop, -⟩ := h.ring.pop?
          exact .inl (hgo _ _ _ (.pop hphase hprogram hremoval hpop))
      | false =>
          cases op with
          | insert a =>
              have hroom := h.room hmem (by simp [Thread.role, hphase, hprogram])
              obtain ⟨r, hpush, -⟩ := h.ring.push? hroom a
              exact .inl (hgo _ _ _ (.push hphase hprogram hpush))
          | remove => cases hremoval
          | tryRemove => cases hremoval
  | pushed =>
      have hrole : t.role = .pushed := by simp [Thread.role, hphase, hprogram]
      exact .inl (hgo _ _ _ (.returnInsert hphase hprogram (h.read_release hword hmem hrole)))
  | popped a =>
      have hrole : t.role = .popped := by simp [Thread.role, hphase, hprogram]
      exact .inl (hgo _ _ _ (.returnRemove hphase hprogram (h.write_release hword hmem hrole)))

/-! ### All states -/

/-- Whatever the threads of a buffer do, its accounts hold. -/
theorem Accounted.of_reachable (h : Accounted capacity as s)
    (hreach : Schedule.Reachable step? s s') : ∃ as', Accounted capacity as' s' := by
  apply hreach.invariant (P := fun s => ∃ as, Accounted capacity as s) ⟨as, h⟩
  rintro s i s' ⟨as, h⟩ hstep
  obtain ⟨x, hact⟩ := step?_eq_some_iff.1 hstep
  obtain ⟨as', h', -⟩ := h.step hact
  exact ⟨as', h'⟩

theorem accounted_of_reachable {name : String} {b : Buffer α} {programs : List (List (Operation α))}
    (hmake : Buffer.make name capacity = .ok b)
    (hreach : Schedule.Reachable step? (State.start b programs) s) :
    ∃ as, Accounted capacity as s :=
  (accounted_of_make hmake programs).of_reachable hreach

/-- A capacity is a word. -/
theorem toNat_lt_limit (capacity : UInt64) : capacity.toNat < Word.limit :=
  capacity.toNat_lt

/-- The accounts of a buffer, whatever any number of threads do with it.  Each slot is
free, reserved, occupied, or emptied and not announced; each message is announced, not
announced yet, or promised to a thread.  The occupied slots are those in turn from the
head to the tail, and their number is the length.  So no slot is filled twice, none is
emptied that is free, the length never goes below zero, and no count of permits leaves
the range of words. -/
theorem accounts {name : String} {capacity : UInt64} {b : Buffer α}
    {programs : List (List (Operation α))} (hmake : Buffer.make name capacity.toNat = .ok b)
    (hreach : Schedule.Reachable step? (State.start b programs) s) :
    s.buffer.writeSlots.permits + s.count .pushing + s.buffer.ring.occupied + s.count .popped =
      capacity.toNat ∧
    s.buffer.ring.occupied = s.buffer.readSlots.permits + s.count .pushed + s.count .popping ∧
    (s.buffer.ring.slots.length = capacity.toNat ∧
      s.buffer.ring.tail = (s.buffer.ring.head + s.buffer.ring.occupied) % capacity.toNat ∧
      ∀ i, i < capacity.toNat →
        ((∃ a, s.buffer.ring.slots[(s.buffer.ring.head + i) % capacity.toNat]? = some (some a)) ↔
          i < s.buffer.ring.occupied)) ∧
    (s.buffer.len = s.buffer.ring.occupied ∧ s.buffer.ring.occupied ≤ capacity.toNat) ∧
    ∀ t ∈ s.threads,
      (t.role = .pushing → s.buffer.ring.slots[s.buffer.ring.tail]? = some none) ∧
      (t.role = .popping →
        0 < s.buffer.len ∧ ∃ a, s.buffer.ring.slots[s.buffer.ring.head]? = some (some a)) ∧
      (t.role = .pushed → ∃ r, s.buffer.readSlots.release = .ok r) ∧
      (t.role = .popped → ∃ r, s.buffer.writeSlots.release = .ok r) := by
  obtain ⟨as, h⟩ := accounted_of_reachable hmake hreach
  have hoccupied := h.ring.occupied_eq
  have hword := toNat_lt_limit capacity
  refine ⟨?_, ?_, ⟨h.ring.slots_length, ?_, ?_⟩, ⟨?_, ?_⟩, ?_⟩
  · rw [hoccupied]
    exact h.writes
  · rw [hoccupied]
    exact h.reads.symm
  · rw [hoccupied]
    exact h.ring.tail_eq
  · intro i hi
    rw [hoccupied]
    exact h.ring.occupied_iff hi
  · rw [hoccupied]
    exact h.len
  · rw [hoccupied]
    exact h.ring.length_le
  · intro t ht
    refine ⟨fun hrole => h.ring.tail_free (h.room ht hrole), fun hrole => ?_,
      fun hrole => ⟨_, release_eq_ok_iff.2 ⟨h.read_release hword ht hrole, rfl⟩⟩,
      fun hrole => ⟨_, release_eq_ok_iff.2 ⟨h.write_release hword ht hrole, rfl⟩⟩⟩
    obtain ⟨a, rest, rfl⟩ := h.message ht hrole
    refine ⟨?_, a, h.ring.head_occupied⟩
    rw [h.len]
    exact Nat.succ_pos _

/-- In a buffer of one slot, a message was taken out and the slot is not announced yet. -/
theorem accounts_one :
    ∃ s, Schedule.run? step? (State.start (empty 1) [[.insert 5, .insert 6], [.remove]])
        [0, 0, 0, 1, 1] = some s ∧
      s.count .popped = 1 ∧
      s.buffer.writeSlots.permits + s.count .pushing + s.buffer.ring.occupied + s.count .popped =
        1 := by
  have hrun : ((Schedule.run? step? (State.start (empty 1) [[.insert 5, .insert 6], [.remove]])
      [0, 0, 0, 1, 1]).any fun s => s.count .popped = 1) = true := by
    decide +kernel
  obtain ⟨s, hs, hpopped⟩ := (Option.any_eq_true _ _).1 hrun
  have hmake : Buffer.make "lone" (1 : UInt64).toNat = .ok (empty 1 : Buffer Nat) := rfl
  exact ⟨s, hs, of_decide_eq_true hpopped,
    (accounts hmake (Schedule.reachable_run? .start hs)).1⟩

end Newsroom.Buffer
