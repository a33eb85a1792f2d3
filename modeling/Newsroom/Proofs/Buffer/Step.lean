import Newsroom.Buffer.Basic
import Newsroom.Proofs.Schedule
import Newsroom.Proofs.Sums

/-!
# The steps at a buffer

Every step that a thread takes at a buffer, with what it needs and with all that it
changes.

## Main Definitions

* `Buffer.Step` — the steps as a relation, one constructor for each kind
* `Buffer.Role` — what a thread is about to do, having begun an operation
* `Thread.Fits` — how far a thread has come fits the operation that it does
* `Buffer.State.start` — threads that have not begun, each with a program

## Main Statements

* `threadStep?_eq_some_iff`, `act?_eq_some_iff` — the relation is the step function
* `Step.fits` — a thread that fits its operation goes on to do so
* `work_lt_of_step?`, `work_start` — an operation takes at most three steps
* `exists_run?_drive`, `drive_stuck` — the run of the program is one of the runs, and no thread can
  go on after it
-/

namespace Newsroom.Buffer

open Semaphore (acquire?_eq_some_iff release_eq_ok_iff)

variable {α : Type}

/-- Whether an operation takes a message out. -/
def Operation.isRemoval : Operation α → Bool
  | .insert _ => false
  | .remove => true
  | .tryRemove => true

/-- What a thread is about to do under a permit, or has done under the lock. -/
inductive Role where
  /-- It has begun no operation. -/
  | outside
  /-- It holds a permit to fill a slot. -/
  | pushing
  /-- It has filled a slot and owes a permit to empty it. -/
  | pushed
  /-- It holds a permit to empty a slot. -/
  | popping
  /-- It has emptied a slot and owes a permit to fill it. -/
  | popped
  deriving DecidableEq, Repr

/-- The role of a thread in the middle of its first operation. -/
def Thread.role (t : Thread α) : Role :=
  match t.phase, t.program with
  | .permitted, .insert _ :: _ => .pushing
  | .permitted, _ :: _ => .popping
  | .pushed, _ :: _ => .pushed
  | .popped _, _ :: _ => .popped
  | _, _ => .outside

/-- How far a thread has come fits the operation that it does. -/
def Thread.Fits (t : Thread α) : Prop :=
  match t.phase, t.program with
  | .ready, _ => True
  | .permitted, _ :: _ => True
  | .pushed, op :: _ => op.isRemoval = false
  | .popped _, op :: _ => op.isRemoval = true
  | _, [] => False

/-- How many threads have a role. -/
def State.count (s : State α) (r : Role) : Nat :=
  s.threads.countP fun t => t.role = r

/-- Threads that have not begun, each with a program. -/
def State.start (b : Buffer α) (programs : List (List (Operation α))) : State α :=
  ⟨b, programs.map fun program => { program }⟩

/-- What a thread does in one step. -/
inductive Step (b : Buffer α) (t : Thread α) : Act α → Buffer α → Thread α → Prop
  /-- A permit to fill a slot is taken. -/
  | permitPush {a : α} {ops : List (Operation α)} {n : Nat} (hphase : t.phase = .ready)
      (hprogram : t.program = .insert a :: ops) (hpermits : b.writeSlots.permits = n + 1) :
      Step b t .permit { b with writeSlots := ⟨n⟩ } { t with phase := .permitted }
  /-- A permit to empty a slot is taken. -/
  | permitPop {op : Operation α} {ops : List (Operation α)} {n : Nat} (hphase : t.phase = .ready)
      (hprogram : t.program = op :: ops) (hremoval : op.isRemoval = true)
      (hpermits : b.readSlots.permits = n + 1) :
      Step b t .permit { b with readSlots := ⟨n⟩ } { t with phase := .permitted }
  /-- There is no permit to empty a slot, and the thread does not wait for one. -/
  | refuse {ops : List (Operation α)} (hphase : t.phase = .ready)
      (hprogram : t.program = .tryRemove :: ops) (hnone : b.readSlots.permits = 0) :
      Step b t .refuse b (t.done .empty)
  /-- A slot is filled. -/
  | push {a : α} {ops : List (Operation α)} {r : Ring α} (hphase : t.phase = .permitted)
      (hprogram : t.program = .insert a :: ops) (hpush : b.ring.push? a = some r) :
      Step b t (.push a) { b with ring := r, len := b.len + 1 } { t with phase := .pushed }
  /-- A slot is emptied. -/
  | pop {op : Operation α} {ops : List (Operation α)} {a : α} {r : Ring α}
      (hphase : t.phase = .permitted) (hprogram : t.program = op :: ops)
      (hremoval : op.isRemoval = true) (hpop : b.ring.pop? = some (a, r)) :
      Step b t (.pop a) { b with ring := r, len := b.len - 1 } { t with phase := .popped a }
  /-- A permit to empty a slot is given back. -/
  | returnInsert {op : Operation α} {ops : List (Operation α)} (hphase : t.phase = .pushed)
      (hprogram : t.program = op :: ops) (hword : b.readSlots.permits + 1 < Word.limit) :
      Step b t .returnInsert { b with readSlots := ⟨b.readSlots.permits + 1⟩ } (t.done .inserted)
  /-- A permit to fill a slot is given back. -/
  | returnRemove {op : Operation α} {ops : List (Operation α)} {a : α}
      (hphase : t.phase = .popped a) (hprogram : t.program = op :: ops)
      (hword : b.writeSlots.permits + 1 < Word.limit) :
      Step b t (.returnRemove a) { b with writeSlots := ⟨b.writeSlots.permits + 1⟩ }
        (t.done (.removed a))

/-! ### The relation and the function -/

variable {b b' : Buffer α} {t t' : Thread α} {x : Act α}

/-- What the relation allows the step function does. -/
theorem Step.threadStep?_eq (h : Step b t x b' t') : threadStep? b t = some (x, b', t') := by
  cases h with
  | @permitPush a ops n hphase hprogram hpermits =>
      have hacquire : b.writeSlots.acquire? = some ⟨n⟩ := acquire?_eq_some_iff.2 hpermits
      simp [threadStep?, hphase, hprogram, takeWrite?, hacquire]
  | @permitPop op ops n hphase hprogram hremoval hpermits =>
      have hacquire : b.readSlots.acquire? = some ⟨n⟩ := acquire?_eq_some_iff.2 hpermits
      cases op with
      | insert a => cases hremoval
      | remove => simp [threadStep?, hphase, hprogram, takeRead?, hacquire]
      | tryRemove => simp [threadStep?, hphase, hprogram, takeRead?, hacquire]
  | refuse hphase hprogram hnone =>
      have hacquire := Semaphore.acquire?_eq_none_iff.2 hnone
      simp [threadStep?, hphase, hprogram, takeRead?, hacquire]
  | push hphase hprogram hpush =>
      simp [threadStep?, hphase, hprogram, Buffer.push?, hpush]
  | @pop op ops a r hphase hprogram hremoval hpop =>
      cases op with
      | insert a => cases hremoval
      | remove => simp [threadStep?, hphase, hprogram, Buffer.pop?, hpop]
      | tryRemove => simp [threadStep?, hphase, hprogram, Buffer.pop?, hpop]
  | returnInsert hphase hprogram hword =>
      have hrelease := release_eq_ok_iff.2 ⟨hword, rfl⟩
      simp [threadStep?, hphase, hprogram, giveRead?, hrelease, Except.toOption]
  | returnRemove hphase hprogram hword =>
      have hrelease := release_eq_ok_iff.2 ⟨hword, rfl⟩
      simp [threadStep?, hphase, hprogram, giveWrite?, hrelease, Except.toOption]

/-- A permit that was given back. -/
private theorem ok_of_toOption {s s' : Semaphore} (h : s.release.toOption = some s') :
    s.permits + 1 < Word.limit ∧ s' = ⟨s.permits + 1⟩ := by
  cases hs : s.release with
  | ok r =>
      rw [hs] at h
      cases h
      exact release_eq_ok_iff.1 hs
  | error e =>
      rw [hs] at h
      cases h

section

variable {ops : List (Operation α)} {effects : List (Effect α)}

private theorem step_of_ready {op : Operation α}
    (h : threadStep? b ⟨op :: ops, .ready, effects⟩ = some (x, b', t')) :
    Step b ⟨op :: ops, .ready, effects⟩ x b' t' := by
  cases op with
  | insert a =>
      simp only [threadStep?, takeWrite?, Option.map_map, Option.map_eq_some_iff] at h
      obtain ⟨s, hs, heq⟩ := h
      cases heq
      exact .permitPush rfl rfl (acquire?_eq_some_iff.1 hs)
  | remove =>
      simp only [threadStep?, takeRead?, Option.map_map, Option.map_eq_some_iff] at h
      obtain ⟨s, hs, heq⟩ := h
      cases heq
      exact .permitPop rfl rfl rfl (acquire?_eq_some_iff.1 hs)
  | tryRemove =>
      cases hs : b.readSlots.acquire? with
      | some s =>
          simp only [threadStep?, takeRead?, hs, Option.map_some, Option.some.injEq] at h
          cases h
          exact .permitPop rfl rfl rfl (acquire?_eq_some_iff.1 hs)
      | none =>
          simp only [threadStep?, takeRead?, hs, Option.map_none, Option.some.injEq] at h
          cases h
          exact .refuse rfl rfl (Semaphore.acquire?_eq_none_iff.1 hs)

private theorem step_of_permitted {op : Operation α}
    (h : threadStep? b ⟨op :: ops, .permitted, effects⟩ = some (x, b', t')) :
    Step b ⟨op :: ops, .permitted, effects⟩ x b' t' := by
  cases op with
  | insert a =>
      simp only [threadStep?, Buffer.push?, Option.map_map, Option.map_eq_some_iff] at h
      obtain ⟨r, hr, heq⟩ := h
      cases heq
      exact .push rfl rfl hr
  | remove =>
      simp only [threadStep?, Buffer.pop?, Option.map_map, Option.map_eq_some_iff] at h
      obtain ⟨⟨a, r⟩, hr, heq⟩ := h
      cases heq
      exact .pop rfl rfl rfl hr
  | tryRemove =>
      simp only [threadStep?, Buffer.pop?, Option.map_map, Option.map_eq_some_iff] at h
      obtain ⟨⟨a, r⟩, hr, heq⟩ := h
      cases heq
      exact .pop rfl rfl rfl hr

end

/-- A thread takes exactly the steps of the relation. -/
theorem threadStep?_eq_some_iff : threadStep? b t = some (x, b', t') ↔ Step b t x b' t' := by
  refine ⟨fun h => ?_, Step.threadStep?_eq⟩
  obtain ⟨program, phase, effects⟩ := t
  cases program with
  | nil => cases phase <;> cases h
  | cons op ops =>
      cases phase with
      | ready => exact step_of_ready h
      | permitted => exact step_of_permitted h
      | pushed =>
          simp only [threadStep?, giveRead?, Option.map_map, Option.map_eq_some_iff] at h
          obtain ⟨s, hs, heq⟩ := h
          obtain ⟨hword, rfl⟩ := ok_of_toOption hs
          cases heq
          exact .returnInsert rfl rfl hword
      | popped a =>
          simp only [threadStep?, giveWrite?, Option.map_map, Option.map_eq_some_iff] at h
          obtain ⟨s, hs, heq⟩ := h
          obtain ⟨hword, rfl⟩ := ok_of_toOption hs
          cases heq
          exact .returnRemove rfl rfl hword

/-- The machine takes the steps of its threads. -/
theorem act?_eq_some_iff {s s' : State α} {i : Nat} :
    act? s i = some (x, s') ↔
      ∃ t b' t', s.threads[i]? = some t ∧ Step s.buffer t x b' t' ∧
        s' = ⟨b', s.threads.set i t'⟩ := by
  simp only [act?, Option.map_eq_some_iff, Option.bind_eq_some_iff]
  constructor
  · rintro ⟨⟨y, b', t'⟩, ⟨t, ht, hstep⟩, heq⟩
    cases heq
    exact ⟨t, b', t', ht, threadStep?_eq_some_iff.1 hstep, rfl⟩
  · rintro ⟨t, b', t', ht, hstep, rfl⟩
    exact ⟨(x, b', t'), ⟨t, ht, threadStep?_eq_some_iff.2 hstep⟩, rfl⟩

/-- A step of the machine does something. -/
theorem step?_eq_some_iff {s s' : State α} {i : Nat} :
    step? s i = some s' ↔ ∃ x, act? s i = some (x, s') := by
  rw [step?, Option.map_eq_some_iff]
  constructor
  · rintro ⟨⟨x, s''⟩, hact, rfl⟩
    exact ⟨x, hact⟩
  · rintro ⟨x, hact⟩
    exact ⟨(x, s'), hact, rfl⟩

/-! ### Threads -/

/-- A thread that fits its operation goes on to do so. -/
theorem Step.fits (h : Step b t x b' t') : t'.Fits := by
  cases h with
  | permitPush hphase hprogram hpermits => simp [Thread.Fits, hprogram]
  | permitPop hphase hprogram hremoval hpermits => simp [Thread.Fits, hprogram]
  | refuse hphase hprogram hnone => trivial
  | push hphase hprogram hpush => simp [Thread.Fits, hprogram, Operation.isRemoval]
  | pop hphase hprogram hremoval hpop => simp [Thread.Fits, hprogram, hremoval]
  | returnInsert hphase hprogram hword => trivial
  | returnRemove hphase hprogram hword => trivial

/-- A thread takes part in a removal exactly if its operation is one. -/
theorem Thread.role_of_removal {op : Operation α} {ops : List (Operation α)}
    (hphase : t.phase = .permitted) (hprogram : t.program = op :: ops)
    (hremoval : op.isRemoval = true) : t.role = .popping := by
  cases op with
  | insert a => cases hremoval
  | remove => simp [Thread.role, hphase, hprogram]
  | tryRemove => simp [Thread.role, hphase, hprogram]

/-- The threads of a role after one of them has changed. -/
theorem count_set {s : State α} {i : Nat} (ht : s.threads[i]? = some t) (b' : Buffer α)
    (t' : Thread α) (r : Role) :
    State.count ⟨b', s.threads.set i t'⟩ r + (if t.role = r then 1 else 0) =
      s.count r + if t'.role = r then 1 else 0 :=
  countP_decide_set_of_some (fun t : Thread α => t.role = r) ht t'

/-! ### Work -/

/-- A step uses up some of the work of its thread. -/
theorem Step.work_lt (h : Step b t x b' t') : t'.work < t.work := by
  cases h with
  | permitPush hphase hprogram hpermits =>
      simp only [Thread.work, hphase, hprogram, List.length_cons]
      omega
  | permitPop hphase hprogram hremoval hpermits =>
      simp only [Thread.work, hphase, hprogram, List.length_cons]
      omega
  | refuse hphase hprogram hnone =>
      simp only [Thread.work, Thread.done, hphase, hprogram, List.length_cons, List.tail_cons]
      omega
  | push hphase hprogram hpush =>
      simp only [Thread.work, hphase, hprogram, List.length_cons]
      omega
  | pop hphase hprogram hremoval hpop =>
      simp only [Thread.work, hphase, hprogram, List.length_cons]
      omega
  | returnInsert hphase hprogram hword =>
      simp only [Thread.work, Thread.done, hphase, hprogram, List.length_cons, List.tail_cons]
      omega
  | returnRemove hphase hprogram hword =>
      simp only [Thread.work, Thread.done, hphase, hprogram, List.length_cons, List.tail_cons]
      omega

/-- Every step uses up some of the work that the threads have. -/
theorem work_lt_of_step? {s s' : State α} {i : Nat} (h : step? s i = some s') :
    s'.work < s.work := by
  obtain ⟨x, hact⟩ := step?_eq_some_iff.1 h
  obtain ⟨t, b', t', ht, hstep, rfl⟩ := act?_eq_some_iff.1 hact
  have hset := exactSum_map_set Thread.work ht t'
  have hless := hstep.work_lt
  simp only [State.work]
  omega

/-- Threads that have not begun have three steps to take for each operation. -/
theorem work_start (b : Buffer α) (programs : List (List (Operation α))) :
    (State.start b programs).work = 3 * exactSum (programs.map List.length) := by
  have hshare : ∀ program ∈ programs,
      Thread.work ({ program } : Thread α) = 3 * program.length + 0 := by
    intro program _
    rfl
  have hwork := exactSum_map_affine hshare
  rw [Nat.zero_mul, Nat.add_zero] at hwork
  rw [← hwork, State.work, State.start, List.map_map]
  rfl

/-! ### The run of the program -/

/-- The run of the program consists of the steps of the threads. -/
theorem exists_run?_drive (s : State α) : ∃ is, Schedule.run? step? s is = some (drive s) := by
  obtain ⟨is, -, hrun⟩ :=
    Schedule.exists_run?_settle step? State.work 3 (List.range s.threads.length) s
  exact ⟨is, hrun⟩

theorem reachable_drive (s : State α) : Schedule.Reachable step? s (drive s) := by
  obtain ⟨is, hrun⟩ := exists_run?_drive s
  exact Schedule.reachable_run? .start hrun

theorem length_threads_of_reachable {s u : State α} (h : Schedule.Reachable step? s u) :
    u.threads.length = s.threads.length := by
  refine h.invariant (P := fun u => u.threads.length = s.threads.length) rfl ?_
  rintro v i v' hv hstep
  obtain ⟨x, hact⟩ := step?_eq_some_iff.1 hstep
  obtain ⟨t, b', t', -, -, rfl⟩ := act?_eq_some_iff.1 hact
  rwa [List.length_set]

/-- No thread can go on after the run of the program. -/
theorem drive_stuck (s : State α) (i : Nat) : step? (drive s) i = none := by
  by_cases hi : i < s.threads.length
  · exact Schedule.settle_stuck (P := fun _ => True)
      (fun s i _ s' _ hstep => ⟨trivial, work_lt_of_step? hstep⟩) (by decide) trivial i
      (List.mem_range.2 hi)
  · have hlength := length_threads_of_reachable (reachable_drive s)
    have hnone : (drive s).threads[i]? = none :=
      List.getElem?_eq_none (by rw [hlength]; exact Nat.le_of_not_lt hi)
    rw [step?, act?, hnone]
    rfl

end Newsroom.Buffer
