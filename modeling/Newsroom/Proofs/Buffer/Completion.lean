import Newsroom.Proofs.Buffer.Fifo

/-!
# When all threads come to their end

Threads each of which only inserts or only removes, and waits whenever it has to, come to
their end exactly if the messages add up to what the buffer can hold.

## Main Definitions

* `Uniform` — a program that only inserts, or only removes and waits for its messages
* `insertions`, `removals` — how many messages some programs put in and take out
* `State.due` — what the threads have still to do with the ring

## Main Statements

* `balance_of_reachable` — the messages in the ring are those of the beginning, with what
  was put in and without what was taken out
* `stuck_cases` — threads that insert and threads that remove never wait at the same time
* `completes_exactly` — the threads come to their end, in a bounded number of steps, if
  and only if the messages that they leave behind are none too few and none too many
* `exists_atRest` — a buffer may hold any number of messages up to its capacity
-/

namespace Newsroom.Buffer

variable {α : Type} {capacity : Nat} {as : List α} {b : Buffer α} {s s' : State α} {t : Thread α}
  {programs : List (List (Operation α))}

/-- A program that only inserts, or only removes, and waits where it has to. -/
def Uniform (program : List (Operation α)) : Prop :=
  (∀ op ∈ program, op.isRemoval = false) ∨ ∀ op ∈ program, op = .remove

/-- How many messages some programs put in. -/
def insertions (programs : List (List (Operation α))) : Nat :=
  exactSum (programs.map fun program => (program.filterMap Operation.message?).length)

/-- How many messages some programs take out. -/
def removals (programs : List (List (Operation α))) : Nat :=
  exactSum (programs.map fun program => program.countP Operation.isRemoval)

/-- What the threads have still to do with the ring. -/
def State.due (s : State α) : List (List (Operation α)) := s.threads.map Thread.due

/-! ### Uniform programs -/

theorem Uniform.suffix {program rest : List (Operation α)} (h : Uniform program)
    (hrest : rest <:+ program) : Uniform rest := by
  rcases h with hinserts | hremoves
  · exact .inl fun op hop => hinserts op (hrest.subset hop)
  · exact .inr fun op hop => hremoves op (hrest.subset hop)

/-- A program that only inserts takes nothing out. -/
theorem Uniform.removals_of_insert {a : α} {ops : List (Operation α)}
    (h : Uniform (.insert a :: ops)) :
    (Operation.insert a :: ops).countP Operation.isRemoval = 0 := by
  rcases h with hinserts | hremoves
  · refine List.countP_eq_zero.2 fun op hop => ?_
    rw [hinserts op hop]
    exact Bool.false_ne_true
  · cases hremoves _ List.mem_cons_self

/-- A program that only removes puts nothing in. -/
theorem Uniform.insertions_of_remove {ops : List (Operation α)} (h : Uniform (.remove :: ops)) :
    (Operation.remove :: ops).filterMap Operation.message? = [] := by
  rcases h with hinserts | hremoves
  · cases hinserts _ List.mem_cons_self
  · refine List.filterMap_eq_nil_iff.2 fun op hop => ?_
    rw [hremoves op hop]
    rfl

theorem filterMap_message?_insert (a : α) (ops : List (Operation α)) :
    (Operation.insert a :: ops).filterMap Operation.message? =
      a :: ops.filterMap Operation.message? :=
  List.filterMap_cons_some rfl

/-- An operation inserts or removes. -/
theorem length_eq_insertions_add_removals (programs : List (List (Operation α))) :
    exactSum (programs.map List.length) = insertions programs + removals programs := by
  have hlength : ∀ program : List (Operation α), program.length =
      (program.filterMap Operation.message?).length + program.countP Operation.isRemoval := by
    intro program
    induction program with
    | nil => rfl
    | cons op ops ih =>
        cases op with
        | insert a =>
            rw [List.length_cons, ih, filterMap_message?_insert, List.length_cons,
              List.countP_cons_of_neg Bool.false_ne_true]
            omega
        | remove =>
            rw [List.length_cons, ih, List.filterMap_cons_none rfl, List.countP_cons_of_pos rfl]
            omega
        | tryRemove =>
            rw [List.length_cons, ih, List.filterMap_cons_none rfl, List.countP_cons_of_pos rfl]
            omega
  rw [insertions, removals, ← exactSum_map_add]
  congr 2
  funext program
  exact hlength program

/-! ### The balance -/

/-- A step leaves a thread with the end of its program. -/
theorem Step.program_suffix {b' : Buffer α} {t' : Thread α} {x : Act α} (h : Step b t x b' t') :
    t'.program <:+ t.program := by
  cases h with
  | permitPush hphase hprogram hpermits => exact List.suffix_rfl
  | permitPop hphase hprogram hremoval hpermits => exact List.suffix_rfl
  | push hphase hprogram hpush => exact List.suffix_rfl
  | pop hphase hprogram hremoval hpop => exact List.suffix_rfl
  | refuse hphase hprogram hnone => exact List.tail_suffix _
  | returnInsert hphase hprogram hword => exact List.tail_suffix _
  | returnRemove hphase hprogram hword => exact List.tail_suffix _

/-- A thread of which only insertions are left takes nothing out. -/
theorem Step.popped_eq_nil {b' : Buffer α} {t' : Thread α} {x : Act α} (h : Step b t x b' t')
    (hinserts : ∀ op ∈ t.program, op.isRemoval = false) : x.popped = [] := by
  cases h with
  | pop hphase hprogram hremoval hpop =>
      rw [hprogram] at hinserts
      cases hremoval.symm.trans (hinserts _ List.mem_cons_self)
  | _ => rfl

/-- A thread of which only removals are left puts nothing in. -/
theorem Step.pushed_eq_nil {b' : Buffer α} {t' : Thread α} {x : Act α} (h : Step b t x b' t')
    (hremoves : ∀ op ∈ t.program, op.isRemoval = true) : x.pushed = [] := by
  cases h with
  | push hphase hprogram hpush =>
      rw [hprogram] at hremoves
      cases hremoves _ List.mem_cons_self
  | _ => rfl

/-- A thread that takes a step had something to do. -/
theorem Step.program_ne_nil {b' : Buffer α} {t' : Thread α} {x : Act α} (h : Step b t x b' t') :
    t.program ≠ [] := by
  cases h with
  | permitPush hphase hprogram hpermits => simp [hprogram]
  | permitPop hphase hprogram hremoval hpermits => simp [hprogram]
  | refuse hphase hprogram hnone => simp [hprogram]
  | push hphase hprogram hpush => simp [hprogram]
  | pop hphase hprogram hremoval hpop => simp [hprogram]
  | returnInsert hphase hprogram hword => simp [hprogram]
  | returnRemove hphase hprogram hword => simp [hprogram]

/-- Wherever the threads come to, each has the end of its program left. -/
theorem exists_suffix_of_reachable {i : Nat} (hreach : Schedule.Reachable step? s s')
    (ht : s.threads[i]? = some t) :
    ∃ t', s'.threads[i]? = some t' ∧ t'.program <:+ t.program := by
  apply hreach.invariant (P := fun u => ∃ t', u.threads[i]? = some t' ∧ t'.program <:+ t.program)
    ⟨t, ht, List.suffix_rfl⟩
  rintro u j u' ⟨t', ht', hsuffix⟩ hstep
  obtain ⟨x, hact⟩ := step?_eq_some_iff.1 hstep
  obtain ⟨v, b', v', hv, hthread, rfl⟩ := act?_eq_some_iff.1 hact
  by_cases hij : i = j
  · subst hij
    cases ht'.symm.trans hv
    exact ⟨v', by rw [getElem?_set_of_some hv, if_pos rfl], hthread.program_suffix.trans hsuffix⟩
  · exact ⟨t', by rw [getElem?_set_of_some hv, if_neg hij, ht'], hsuffix⟩

/-- A thread that waits for its messages is not refused. -/
theorem Step.ne_refuse {b' : Buffer α} {t' : Thread α} {x : Act α} (h : Step b t x b' t')
    (huniform : Uniform t.program) : x ≠ .refuse := by
  rintro rfl
  cases h with
  | refuse hphase hprogram hnone =>
      rw [hprogram] at huniform
      rcases huniform with hinserts | hremoves
      · cases hinserts _ List.mem_cons_self
      · cases hremoves _ List.mem_cons_self

/-- The messages in the ring, with those that were taken out, are those of the beginning
with those that were put in. -/
structure Balanced (capacity : Nat) (before : List α) (programs : List (List (Operation α)))
    (as : List α) (s : State α) : Prop where
  accounted : Accounted capacity as s
  uniform : ∀ t ∈ s.threads, Uniform t.program
  balance : as.length + insertions s.due + removals programs =
    before.length + insertions programs + removals s.due

/-- What is due after a thread has changed, by what was due before. -/
theorem due_set {i : Nat} (ht : s.threads[i]? = some t) (b' : Buffer α) (t' : Thread α) :
    insertions (State.due ⟨b', s.threads.set i t'⟩) + t.unpushed.length =
        insertions s.due + t'.unpushed.length ∧
      removals (State.due ⟨b', s.threads.set i t'⟩) + t.due.countP Operation.isRemoval =
        removals s.due + t'.due.countP Operation.isRemoval := by
  simp only [insertions, removals, State.due, List.map_map]
  exact ⟨exactSum_map_set (fun t : Thread α => t.unpushed.length) ht t',
    exactSum_map_set (fun t : Thread α => t.due.countP Operation.isRemoval) ht t'⟩

theorem Balanced.step {before : List α} {i : Nat} (h : Balanced capacity before programs as s)
    (hstep : step? s i = some s') : ∃ as', Balanced capacity before programs as' s' := by
  obtain ⟨x, hact⟩ := step?_eq_some_iff.1 hstep
  obtain ⟨as', haccounted, hflow⟩ := h.accounted.step hact
  obtain ⟨t, b', t', ht, hthread, rfl⟩ := act?_eq_some_iff.1 hact
  have huniform := h.uniform t (List.mem_of_getElem? ht)
  refine ⟨as', haccounted, fun u hu => ?_, ?_⟩
  · rcases mem_of_mem_set hu with rfl | hmem
    · exact huniform.suffix hthread.program_suffix
    · exact h.uniform u hmem
  · obtain ⟨ops, hdue, -, hremoved⟩ := hthread.due
    obtain ⟨hput, htaken⟩ := due_set ht b' t'
    have hbalance := h.balance
    have hmoved := congrArg List.length hflow
    have hpushed := congrArg List.length hthread.unpushed
    rw [List.length_append, List.length_append] at hmoved
    rw [List.length_append] at hpushed
    rw [hdue, List.countP_append, hremoved (hthread.ne_refuse huniform)] at htaken
    omega

/-- The messages balance wherever the threads come to. -/
theorem balance_of_reachable (hrest : b.AtRest capacity as)
    (huniform : ∀ program ∈ programs, Uniform program)
    (hreach : Schedule.Reachable step? (State.start b programs) s) :
    ∃ as', Balanced capacity as programs as' s := by
  apply hreach.invariant (P := fun s => ∃ as', Balanced capacity as programs as' s)
  · have hdue : (State.start b programs).due = programs := by
      simp [State.due, State.start, Function.comp_def, Thread.due]
    refine ⟨as, hrest.accounted (ready_start b programs), fun t ht => ?_, by rw [hdue]⟩
    obtain ⟨program, hprogram, rfl⟩ := List.mem_map.1 ht
    exact huniform program hprogram
  · rintro s i s' ⟨as', h⟩ hstep
    exact h.step hstep

/-! ### Threads that wait -/

/-- Where no thread can go on, each of them has ended or waits for a permit. -/
theorem Accounted.ended_or_waits (h : Accounted capacity as s) (hword : capacity < Word.limit)
    (hstuck : ∀ i, step? s i = none) :
    ∀ u ∈ s.threads, u.phase = .ready ∧ (u.program = [] ∨ Waits s.buffer u) := by
  intro u hu
  by_cases hended : u.program = []
  · exact ⟨(h.fits u hu).phase_of_nil hended, .inl hended⟩
  · obtain ⟨i, hi⟩ := List.mem_iff_getElem?.1 hu
    rcases h.step_or_waits hword hi hended with ⟨s', hs'⟩ | hwaits
    · cases hs'.symm.trans (hstuck i)
    · exact ⟨hwaits.1, .inr hwaits⟩

/-- Where no thread can go on and some have not ended, either all of these insert into a
full buffer or all of them remove from an empty one. -/
theorem stuck_cases (h : Accounted capacity as s) (hword : capacity < Word.limit)
    (huniform : ∀ t ∈ s.threads, Uniform t.program) (hstuck : ∀ i, step? s i = none)
    (ht : t ∈ s.threads) (hunfinished : t.program ≠ []) :
    (as.length = capacity ∧ removals s.due = 0 ∧ 0 < insertions s.due) ∨
      (as.length = 0 ∧ insertions s.due = 0 ∧ 0 < removals s.due) := by
  have hwaits := h.ended_or_waits hword hstuck
  have hrest := h.atRest fun u hu => (hwaits u hu).1
  have hwrites := hrest.writes
  have hreads := hrest.reads
  have hpos := Nat.zero_lt_of_lt h.ring.head_lt
  have hdue : ∀ u ∈ s.threads, u.due = u.program := by
    intro u hu
    rw [Thread.due, (hwaits u hu).1]
  have hinsertions : insertions s.due = exactSum (s.threads.map fun u => u.unpushed.length) := by
    rw [insertions, State.due, List.map_map]
    rfl
  have hremovals : removals s.due =
      exactSum (s.threads.map fun u => u.due.countP Operation.isRemoval) := by
    rw [removals, State.due, List.map_map]
    rfl
  rcases (hwaits t ht).2.resolve_left hunfinished with
    ⟨-, ⟨a, ops, hprogram, hnone⟩ | ⟨ops, hprogram, hnone⟩⟩
  · -- the buffer is full, so no thread waits for a message
    refine .inl ⟨by omega, ?_, ?_⟩
    · rw [hremovals]
      refine exactSum_map_eq_zero fun u hu => ?_
      rw [hdue u hu]
      rcases (hwaits u hu).2 with hended | ⟨-, ⟨c, rest, hinsert, -⟩ | ⟨rest, -, hempty⟩⟩
      · rw [hended]
        rfl
      · rw [hinsert]
        exact Uniform.removals_of_insert (hinsert ▸ huniform u hu)
      · omega
    · have hshare := le_exactSum_map (fun u : Thread α => u.unpushed.length) ht
      rw [Thread.unpushed, hdue t ht, hprogram, filterMap_message?_insert,
        List.length_cons] at hshare
      omega
  · -- the buffer is empty, so no thread waits for room
    refine .inr ⟨by omega, ?_, ?_⟩
    · rw [hinsertions]
      refine exactSum_map_eq_zero fun u hu => ?_
      rw [Thread.unpushed, hdue u hu]
      rcases (hwaits u hu).2 with hended | ⟨-, ⟨c, rest, -, hfull⟩ | ⟨rest, hremove, -⟩⟩
      · rw [hended]
        rfl
      · omega
      · rw [hremove, Uniform.insertions_of_remove (hremove ▸ huniform u hu)]
        rfl
    · have hshare := le_exactSum_map (fun u : Thread α => u.due.countP Operation.isRemoval) ht
      rw [hdue t ht, hprogram, List.countP_cons_of_pos rfl] at hshare
      omega

/-- Where all threads have ended nothing is due. -/
theorem due_of_finished (h : Accounted capacity as s) (hfinished : ∀ t ∈ s.threads, t.isFinished) :
    s.buffer.AtRest capacity as ∧ insertions s.due = 0 ∧ removals s.due = 0 := by
  have hprogram : ∀ t ∈ s.threads, t.program = [] :=
    fun t ht => List.isEmpty_iff.1 (hfinished t ht)
  have hready : ∀ t ∈ s.threads, t.phase = .ready :=
    fun t ht => (h.fits t ht).phase_of_nil (hprogram t ht)
  have hdue : ∀ ops ∈ s.due, ops = [] := by
    intro ops hops
    obtain ⟨t, ht, rfl⟩ := List.mem_map.1 hops
    rw [Thread.due, hready t ht]
    exact hprogram t ht
  refine ⟨h.atRest hready, exactSum_map_eq_zero fun ops hops => ?_,
    exactSum_map_eq_zero fun ops hops => ?_⟩
  · rw [hdue ops hops]
    rfl
  · rw [hdue ops hops]
    rfl

/-! ### Exactly when all threads end -/

/-- Where no thread can go on all have ended, if what they leave behind is no less than nothing and
no more than the capacity. -/
theorem Balanced.finished_of_stuck {before : List α} (h : Balanced capacity before programs as s)
    (hword : capacity < Word.limit) (hstuck : ∀ i, step? s i = none)
    (hsome : removals programs ≤ before.length + insertions programs)
    (hroom : before.length + insertions programs ≤ capacity + removals programs) :
    (∀ t ∈ s.threads, t.isFinished) ∧ s.buffer.AtRest capacity as ∧
      as.length + removals programs = before.length + insertions programs := by
  have hbalance := h.balance
  by_cases hunfinished : ∃ t ∈ s.threads, ¬ t.isFinished
  · obtain ⟨t, ht, hprogram⟩ := hunfinished
    have hcases := stuck_cases h.accounted hword h.uniform hstuck ht
      (mt List.isEmpty_iff.2 hprogram)
    omega
  · have hfinished : ∀ t ∈ s.threads, t.isFinished := by simpa using hunfinished
    obtain ⟨hended, hinsertions, hremovals⟩ := due_of_finished h.accounted hfinished
    exact ⟨hfinished, hended, by omega⟩

/-- Threads that only insert or only remove, at a buffer that holds some messages.  The
number of their steps has a bound.  If what they leave behind is no less than nothing and
no more than the capacity, some thread can go on until all have ended, and then the buffer
holds that many messages; otherwise they never all end. -/
theorem completes_exactly {capacity : UInt64} (hrest : b.AtRest capacity.toNat as)
    (huniform : ∀ program ∈ programs, Uniform program) :
    let left : Int := as.length + insertions programs - removals programs
    (∀ is s, Schedule.run? step? (State.start b programs) is = some s →
      is.length ≤ 3 * (insertions programs + removals programs)) ∧
    (0 ≤ left ∧ left ≤ capacity.toNat →
      ∀ s, Schedule.Reachable step? (State.start b programs) s →
        (∃ i s', step? s i = some s') ∨
          (∀ t ∈ s.threads, t.isFinished) ∧ (s.buffer.ring.occupied : Int) = left ∧
            ∃ as', s.buffer.AtRest capacity.toNat as') ∧
    (¬ (0 ≤ left ∧ left ≤ capacity.toNat) →
      ∀ s, Schedule.Reachable step? (State.start b programs) s →
        ∃ t ∈ s.threads, ¬ t.isFinished) := by
  intro left
  have hword := toNat_lt_limit capacity
  refine ⟨?_, ?_, ?_⟩
  · intro is s hrun
    have hlength := Schedule.length_add_work_le (fun _ _ _ => work_lt_of_step?) hrun
    rw [work_start, length_eq_insertions_add_removals] at hlength
    omega
  · rintro ⟨hsome, hroom⟩ s hreach
    obtain ⟨as', h⟩ := balance_of_reachable hrest huniform hreach
    by_cases hgo : ∃ i s', step? s i = some s'
    · exact .inl hgo
    · have hstuck : ∀ i, step? s i = none := by
        intro i
        exact Option.eq_none_iff_forall_ne_some.2 fun s' hs' => hgo ⟨i, s', hs'⟩
      obtain ⟨hfinished, hended, hleft⟩ :=
        h.finished_of_stuck hword hstuck (by omega) (by omega)
      refine .inr ⟨hfinished, ?_, as', hended⟩
      rw [hended.ring.occupied_eq]
      omega
  · intro hnot s hreach
    by_cases hunfinished : ∃ t ∈ s.threads, ¬ t.isFinished
    · exact hunfinished
    · have hfinished : ∀ t ∈ s.threads, t.isFinished := by simpa using hunfinished
      obtain ⟨as', h⟩ := balance_of_reachable hrest huniform hreach
      obtain ⟨hended, hinsertions, hremovals⟩ := due_of_finished h.accounted hfinished
      have hbalance := h.balance
      have hle := hended.ring.length_le
      omega

/-- A buffer may hold any messages for which there is room. -/
theorem exists_atRest (hpos : 0 < capacity) (hle : as.length ≤ capacity) :
    ∃ b : Buffer α, b.AtRest capacity as := by
  obtain ⟨r, hr⟩ := (Ring.holds_empty (α := α) hpos).fill as hle
  exact ⟨⟨r, ⟨capacity - as.length⟩, ⟨as.length⟩, as.length⟩, hr, Nat.sub_add_cancel hle, rfl, rfl⟩

/-- A thread that removes two messages empties a buffer of one slot that another thread
fills again, but two threads that insert do not both end. -/
theorem completes_exactly_one :
    ∃ b : Buffer Nat, b.AtRest (1 : UInt64).toNat [4] ∧
      (∀ s, Schedule.Reachable step? (State.start b [[.remove, .remove], [.insert 5]]) s →
        (∃ i s', step? s i = some s') ∨ (∀ t ∈ s.threads, t.isFinished)) ∧
      ∀ s, Schedule.Reachable step? (State.start b [[.insert 5], [.insert 6, .insert 7]]) s →
        ∃ t ∈ s.threads, ¬ t.isFinished := by
  obtain ⟨b, hrest⟩ : ∃ b : Buffer Nat, b.AtRest (1 : UInt64).toNat [4] :=
    exists_atRest (by decide) (by decide)
  have hmixed : ∀ program ∈ [[.remove, .remove], [Operation.insert 5]], Uniform program := by
    simp [Uniform, Operation.isRemoval]
  have hinserts : ∀ program ∈ [[Operation.insert 5], [.insert 6, .insert 7]], Uniform program := by
    simp [Uniform, Operation.isRemoval]
  refine ⟨b, hrest, fun s hreach => ?_, fun s hreach => ?_⟩
  · rcases (completes_exactly hrest hmixed).2.1 (by decide) s hreach with hgo | hended
    · exact .inl hgo
    · exact .inr hended.1
  · exact (completes_exactly hrest hinserts).2.2 (by decide) s hreach

end Newsroom.Buffer
