import Newsroom.Pipeline.Junction
import Newsroom.Proofs.Buffer.Completion
import Newsroom.Proofs.Buffer.Refusal

/-!
# Buffers among threads

A buffer at which a dispatcher and other threads are at work, step by step, with a number of its
messages that anyone may read.

## Main Definitions

* `Port.Fresh` — a buffer at which nothing has happened
* `Port.Kept` — the accounts of a port, by what its threads have done
* `Port.Tended` — a source from which only the dispatcher takes
* `Port.Served` — the buffer of a category into which the dispatcher puts

## Main Statements

* `act?_cases` — the steps of a thread at a port
* `Kept.act`, `Kept.begin` — the accounts after a step, and when an operation begins
* `Tended.other`, `Tended.call` — a source after a step of another thread, and of the dispatcher
* `Tended.left` — what is left in a source whose number of messages is read as zero
* `Served.other`, `Served.call` — the buffer of a category after such steps

## Design Notes

A thread that has changed the ring has the lock until it has changed the number.  Since no other
thread changes the ring meanwhile, the number differs from the length of the ring by that one
message at most, and an insertion to which it belongs has not returned.
-/

namespace Newsroom.Port

open Buffer (Accounted Arrival arrivals pushes pops messagesOf)

variable {α : Type} {p p' : Port α} {acts : List (Nat × Buffer.Act (Message α))} {x : Act α}
  {j : Nat}

/-- What a thread does with the buffer of a port. -/
def Act.inBuffer (j : Nat) : Act α → List (Nat × Buffer.Act (Message α))
  | does x => [(j, x)]
  | counts => []

/-- The accounts of a port, by what its threads have done with the buffer. -/
structure Kept (acts : List (Nat × Buffer.Act (Message α))) (p : Port α) : Prop where
  /-- What came out of the ring and what is in it is what went into it. -/
  ordered : ∃ capacity as, Accounted capacity as p.state ∧
    (pops acts).map Prod.snd ++ as = (pushes acts).map Prod.snd
  unlocked : p.locked = none → p.hint = p.state.buffer.len
  /-- While a thread has the lock, the number lags behind by the message that it moved. -/
  locked : ∀ j, p.locked = some j → ∃ t, p.state.threads[j]? = some t ∧
    ((t.phase = .pushed ∧ p.state.buffer.len = p.hint + 1 ∧
        ∃ es a, arrivals acts = es ++ [⟨j, a, false⟩]) ∨
      ∃ a, t.phase = .popped a ∧ p.hint = p.state.buffer.len + 1)

/-- A source from which only the dispatcher takes, and what it has taken. -/
structure Tended (polling : Prop) (taken : List (Message α))
    (acts : List (Nat × Buffer.Act (Message α))) (p : Port α) : Prop where
  kept : p.Kept acts
  writers : ∀ (j : Nat) (t : Buffer.Thread (Message α)), p.state.threads[j + 1]? = some t →
    ∀ op ∈ t.program, op.isRemoval = false
  own : ∃ u, p.state.threads[0]? = some u ∧ (pops acts).map Prod.snd = taken ++ u.inHand ∧
    (u.phase = .ready ∨ polling ∧ u.program = [.tryRemove])

/-- The buffer of a category into which the dispatcher puts messages, and what it has put
there. -/
def Served (doing : Option (Message α)) (sent : List (Message α))
    (acts : List (Nat × Buffer.Act (Message α))) (p : Port α) : Prop :=
  ∃ u, p.state.threads[0]? = some u ∧
    ((u.phase = .ready ∧ messagesOf 0 (pushes acts) = sent) ∨
      ∃ m, doing = some m ∧ u.program = [.insert m] ∧
        ((u.phase = .permitted ∧ messagesOf 0 (pushes acts) = sent) ∨
          (u.phase = .pushed ∧ messagesOf 0 (pushes acts) = sent ++ [m])))

/-- A buffer that was made, at which nothing has happened, with what other threads will do. -/
structure Fresh (programs : List (List (Buffer.Operation (Message α)))) (p : Port α) : Prop where
  made : ∃ capacity b, Buffer.make p.name capacity = .ok b ∧
    p.state = Buffer.State.start b ([] :: programs)
  hint : p.hint = 0
  locked : p.locked = none

/-! ### Steps of a thread -/

/-- A thread that has the lock changes the number.  Another one takes a step at the buffer, for
which it may need the lock. -/
theorem act?_cases (h : p.act? j = some (x, p')) :
    (p.locked = some j ∧ x = .counts ∧ p' = { p with hint := p.counted j, locked := none }) ∨
      ∃ y s, p.locked ≠ some j ∧ Buffer.act? p.state j = some (y, s) ∧ x = .does y ∧
        ((needsLock y = true ∧ p.locked = none ∧ p' = { p with state := s, locked := some j }) ∨
          needsLock y = false ∧ p' = { p with state := s }) := by
  unfold act? at h
  split at h
  · next hlocked =>
    cases h
    exact .inl ⟨hlocked, rfl, rfl⟩
  · next hlocked =>
    obtain ⟨⟨y, s⟩, hact, h⟩ := Option.bind_eq_some_iff.1 h
    refine .inr ⟨y, s, hlocked, hact, ?_⟩
    split at h
    · next hneeds =>
      split at h
      · next hfree =>
        cases h
        exact ⟨rfl, .inl ⟨hneeds, hfree, rfl⟩⟩
      · cases h
    · next hneeds =>
      cases h
      exact ⟨rfl, .inr ⟨by simpa using hneeds, rfl⟩⟩

theorem name_of_act (h : p.act? j = some (x, p')) : p'.name = p.name := by
  rcases act?_cases h with ⟨-, -, rfl⟩ | ⟨y, s, -, -, -, ⟨-, -, rfl⟩ | ⟨-, rfl⟩⟩ <;> rfl

/-- What changes the ring puts a message in or takes one out. -/
theorem needsLock_eq_false {y : Buffer.Act (Message α)} (h : needsLock y = false) :
    y.pushed = [] ∧ y.popped = [] := by
  cases y with
  | push a => cases h
  | pop a => cases h
  | _ => exact ⟨rfl, rfl⟩

/-- A step at the ring leaves its thread with the message that it moved. -/
theorem phase_of_needsLock {b b' : Buffer (Message α)} {t t' : Buffer.Thread (Message α)}
    {y : Buffer.Act (Message α)} (h : Buffer.Step b t y b' t') (hneeds : needsLock y = true) :
    (∃ a, y = .push a ∧ t'.phase = .pushed) ∨ ∃ a, y = .pop a ∧ t'.phase = .popped a := by
  cases h with
  | push hphase hprogram hpush => exact .inl ⟨_, rfl, rfl⟩
  | pop hphase hprogram hremoval hpop => exact .inr ⟨_, rfl, rfl⟩
  | permitPush hphase hprogram hpermits => cases hneeds
  | permitPop hphase hprogram hremoval hpermits => cases hneeds
  | refuse hphase hprogram hnone => cases hneeds
  | returnInsert hphase hprogram hword => cases hneeds
  | returnRemove hphase hprogram hword => cases hneeds

/-- The ring after a step, by what went into it and came out. -/
theorem Kept.ordered_act (h : p.Kept acts) {y : Buffer.Act (Message α)}
    {s : Buffer.State (Message α)} (hact : Buffer.act? p.state j = some (y, s)) :
    (∃ capacity as, Accounted capacity as s ∧ (pops (acts ++ [(j, y)])).map Prod.snd ++ as =
        (pushes (acts ++ [(j, y)])).map Prod.snd) ∧
      s.buffer.len + y.popped.length = p.state.buffer.len + y.pushed.length := by
  obtain ⟨capacity, as, haccounted, horder⟩ := h.ordered
  obtain ⟨as', haccounted', hflow⟩ := haccounted.step hact
  refine ⟨⟨capacity, as', haccounted', ?_⟩, ?_⟩
  · rw [Buffer.pops_concat, Buffer.pushes_concat, List.map_append, List.map_append, ← horder]
    simp [Function.comp_def, hflow]
  · have hlength := congrArg List.length hflow
    rw [List.length_append, List.length_append] at hlength
    rw [haccounted.len, haccounted'.len]
    omega

/-- A thread changes the number and gives the lock back. -/
theorem Kept.act_counts (h : p.Kept acts) (hlocked : p.locked = some j) :
    Kept acts { p with hint := p.counted j, locked := none } := by
  obtain ⟨t, ht, hlag⟩ := h.locked j hlocked
  refine
    { ordered := h.ordered
      unlocked := fun _ => ?_
      locked := fun _ hnone => nomatch hnone }
  show p.counted j = p.state.buffer.len
  rcases hlag with ⟨hphase, hlen, -⟩ | ⟨a, hphase, hlen⟩
  · simp only [counted, ht, Option.map_some, hphase]
    exact hlen.symm
  · simp only [counted, ht, Option.map_some, hphase]
    omega

/-- A thread changes the ring and has the lock. -/
theorem Kept.act_ring (h : p.Kept acts) {y : Buffer.Act (Message α)}
    {s : Buffer.State (Message α)} (hact : Buffer.act? p.state j = some (y, s))
    (hneeds : needsLock y = true) (hfree : p.locked = none) :
    Kept (acts ++ [(j, y)]) { p with state := s, locked := some j } := by
  obtain ⟨hordered, hlen⟩ := h.ordered_act hact
  obtain ⟨t, b', t', ht, hthread, hs⟩ := Buffer.act?_eq_some_iff.1 hact
  have hhint := h.unlocked hfree
  have hself : s.threads[j]? = some t' := by
    rw [hs]
    exact List.getElem?_set_self (List.getElem?_eq_some_iff.1 ht).1
  refine
    { ordered := hordered
      unlocked := fun hnone => nomatch hnone
      locked := fun k hk => ?_ }
  cases hk
  refine ⟨t', hself, ?_⟩
  rcases phase_of_needsLock hthread hneeds with ⟨a, rfl, hphase⟩ | ⟨a, rfl, hphase⟩
  · refine .inl ⟨hphase, ?_, _, a, Buffer.arrivals_concat j _⟩
    show s.buffer.len = p.hint + 1
    rw [hhint]
    exact hlen
  · refine .inr ⟨a, hphase, ?_⟩
    show p.hint = s.buffer.len + 1
    rw [hhint]
    exact hlen.symm

/-- A thread does something else, while another one may have the lock. -/
theorem Kept.act_free (h : p.Kept acts) {y : Buffer.Act (Message α)}
    {s : Buffer.State (Message α)} (hact : Buffer.act? p.state j = some (y, s))
    (hneeds : needsLock y = false) (hother : p.locked ≠ some j) :
    Kept (acts ++ [(j, y)]) { p with state := s } := by
  obtain ⟨hordered, hlen⟩ := h.ordered_act hact
  obtain ⟨t, b', t', ht, -, hs⟩ := Buffer.act?_eq_some_iff.1 hact
  obtain ⟨hpushed, hpopped⟩ := needsLock_eq_false hneeds
  rw [hpushed, hpopped] at hlen
  have hsame : s.buffer.len = p.state.buffer.len := hlen
  refine
    { ordered := hordered
      unlocked := fun hnone => (h.unlocked hnone).trans hsame.symm
      locked := fun k hk => ?_ }
  have hkj : k ≠ j := by
    rintro rfl
    exact hother hk
  obtain ⟨u, hu, hlag⟩ := h.locked k hk
  refine ⟨u, ?_, ?_⟩
  · show s.threads[k]? = some u
    rw [hs]
    exact (List.getElem?_set_ne (Ne.symm hkj)).trans hu
  · show (_ ∧ s.buffer.len = _ ∧ _) ∨ ∃ a, _ ∧ _ = s.buffer.len + 1
    rw [hsame]
    refine hlag.imp_left fun ⟨hphase, hlen, es, a, harrivals⟩ => ⟨hphase, hlen, ?_⟩
    refine ⟨es.map fun e => e.after j y, a, ?_⟩
    rw [Buffer.arrivals_concat, harrivals, hpushed]
    simp [Arrival.after, Ne.symm hkj]

/-- The accounts after a step of any thread. -/
theorem Kept.act (h : p.Kept acts) (hact : p.act? j = some (x, p')) :
    p'.Kept (acts ++ x.inBuffer j) := by
  rcases act?_cases hact with ⟨hlocked, rfl, rfl⟩ | ⟨y, s, hother, hstep, rfl, hring⟩
  · rw [Act.inBuffer, List.append_nil]
    exact h.act_counts hlocked
  · rcases hring with ⟨hneeds, hfree, rfl⟩ | ⟨hneeds, rfl⟩
    · exact h.act_ring hstep hneeds hfree
    · exact h.act_free hstep hneeds hother

/-- A thread leaves the others as they are. -/
theorem threads_of_act (h : p.act? j = some (x, p')) {k : Nat} (hkj : k ≠ j) :
    p'.state.threads[k]? = p.state.threads[k]? := by
  rcases act?_cases h with ⟨-, rfl, rfl⟩ | ⟨y, s, -, hstep, rfl, hring⟩
  · rfl
  · obtain ⟨t, b', t', -, -, rfl⟩ := Buffer.act?_eq_some_iff.1 hstep
    rcases hring with ⟨-, -, rfl⟩ | ⟨-, rfl⟩
    · exact List.getElem?_set_ne (Ne.symm hkj)
    · exact List.getElem?_set_ne (Ne.symm hkj)

/-- A thread itself changes only with what it does in the buffer. -/
theorem thread_of_act (h : p.act? j = some (x, p')) {t : Buffer.Thread (Message α)}
    (ht : p.state.threads[j]? = some t) :
    ∃ t', p'.state.threads[j]? = some t' ∧
      ((x = .counts ∧ t' = t) ∨ ∃ y b', x = .does y ∧ Buffer.Step p.state.buffer t y b' t') := by
  rcases act?_cases h with ⟨-, rfl, rfl⟩ | ⟨y, s, -, hstep, rfl, hring⟩
  · exact ⟨t, ht, .inl ⟨rfl, rfl⟩⟩
  · obtain ⟨u, b', t', hu, hthread, rfl⟩ := Buffer.act?_eq_some_iff.1 hstep
    cases ht.symm.trans hu
    have hself : (p.state.threads.set j t')[j]? = some t' :=
      List.getElem?_set_self (List.getElem?_eq_some_iff.1 ht).1
    rcases hring with ⟨-, -, rfl⟩ | ⟨-, rfl⟩
    · exact ⟨t', hself, .inr ⟨y, b', rfl, hthread⟩⟩
    · exact ⟨t', hself, .inr ⟨y, b', rfl, hthread⟩⟩

/-! ### Operations of the dispatcher -/

/-- The dispatcher that is in the middle of an operation does not begin another. -/
theorem begin_eq_self {op : Buffer.Operation (Message α)} {u : Buffer.Thread (Message α)}
    (hu : p.state.threads[0]? = some u) (hprogram : u.program = [op]) : p.begin op = p := by
  have hthreads : (p.state.threads.modify 0 fun t => { t with program := [op] }) =
      p.state.threads := by
    cases hts : p.state.threads with
    | nil => rfl
    | cons t ts =>
        rw [hts] at hu
        cases hu
        obtain ⟨program, phase, effects⟩ := u
        cases hprogram
        rfl
  rw [begin, hthreads]

theorem threads_begin (p : Port α) (op : Buffer.Operation (Message α))
    {u : Buffer.Thread (Message α)} (hu : p.state.threads[0]? = some u) :
    (p.begin op).state.threads = p.state.threads.set 0 { u with program := [op] } := by
  show p.state.threads.modify 0 _ = _
  cases hts : p.state.threads with
  | nil => rfl
  | cons t ts =>
      rw [hts] at hu
      cases hu
      rfl

/-- The dispatcher is in the operation that it has begun or goes on with. -/
theorem thread_begin (p : Port α) (op : Buffer.Operation (Message α))
    {u : Buffer.Thread (Message α)} (hu : p.state.threads[0]? = some u) :
    (p.begin op).state.threads[0]? = some { u with program := [op] } := by
  rw [threads_begin p op hu]
  exact List.getElem?_set_self (List.getElem?_eq_some_iff.1 hu).1

/-- An operation begins when the dispatcher has done nothing for it yet. -/
theorem Kept.begin (h : p.Kept acts) (op : Buffer.Operation (Message α))
    {u : Buffer.Thread (Message α)} (hu : p.state.threads[0]? = some u)
    (hready : u.phase = .ready) :
    (p.begin op).Kept acts := by
  obtain ⟨capacity, as, haccounted, horder⟩ := h.ordered
  have hthreads := threads_begin p op hu
  have hcount : ∀ r, (p.begin op).state.count r = p.state.count r := by
    intro r
    have hset := Buffer.count_set hu p.state.buffer { u with program := [op] } r
    have hrole : Buffer.Thread.role { u with program := [op] } = u.role := by
      simp [Buffer.Thread.role, hready]
    rw [hrole] at hset
    rw [Buffer.State.count, hthreads]
    exact Nat.add_right_cancel hset
  refine
    { ordered := ⟨capacity, as, ?_, horder⟩
      unlocked := h.unlocked
      locked := fun k hk => ?_ }
  · refine
      { ring := haccounted.ring
        writes := by rw [hcount, hcount]; exact haccounted.writes
        reads := by rw [hcount, hcount]; exact haccounted.reads
        len := haccounted.len
        fits := fun t ht => ?_ }
    rw [hthreads] at ht
    rcases mem_of_mem_set ht with rfl | hmem
    · simp [Buffer.Thread.Fits, hready]
    · exact haccounted.fits t hmem
  · obtain ⟨t, ht, hlag⟩ := h.locked k hk
    have hk0 : k ≠ 0 := by
      rintro rfl
      cases hu.symm.trans ht
      rcases hlag with ⟨hphase, -⟩ | ⟨a, hphase, -⟩
      · cases hready.symm.trans hphase
      · cases hready.symm.trans hphase
    refine ⟨t, ?_, hlag⟩
    rw [hthreads]
    exact (List.getElem?_set_ne (Ne.symm hk0)).trans ht

/-! ### Sources -/

/-- A source at which nothing has happened. -/
theorem Fresh.tended {programs : List (List (Buffer.Operation (Message α)))} (h : p.Fresh programs)
    (hinserts : ∀ program ∈ programs, ∀ op ∈ program, op.isRemoval = false) (P : Prop) :
    Tended P [] [] p := by
  obtain ⟨capacity, b, hmake, hstate⟩ := h.made
  have haccounted := Buffer.accounted_of_make hmake ([] :: programs)
  rw [← hstate] at haccounted
  refine
    { kept :=
        { ordered := ⟨capacity, [], haccounted, rfl⟩
          unlocked := fun _ => h.hint.trans haccounted.len.symm
          locked := fun j hj => nomatch h.locked.symm.trans hj }
      writers := fun j t ht op hop => ?_
      own := ⟨{ program := [] }, by rw [hstate]; rfl, rfl, .inl rfl⟩ }
  rw [hstate, Buffer.State.start, List.map_cons, List.getElem?_cons_succ, List.getElem?_map] at ht
  obtain ⟨program, hprogram, rfl⟩ := Option.map_eq_some_iff.1 ht
  exact hinserts program (List.mem_of_getElem? hprogram) op hop

/-- While the dispatcher is ready it may be about to do anything. -/
theorem Tended.mono {P Q : Prop} {taken : List (Message α)} (h : Tended P taken acts p)
    (hPQ : P → Q) : Tended Q taken acts p := by
  obtain ⟨u, hu, hpops, hphase⟩ := h.own
  exact ⟨h.kept, h.writers, u, hu, hpops, hphase.imp_right fun ⟨hP, hprogram⟩ => ⟨hPQ hP, hprogram⟩⟩

/-- What a thread does that only puts messages in. -/
theorem popped_of_insertions {b b' : Buffer (Message α)} {t t' : Buffer.Thread (Message α)}
    {y : Buffer.Act (Message α)} (h : Buffer.Step b t y b' t')
    (hinserts : ∀ op ∈ t.program, op.isRemoval = false) : y.popped = [] := by
  cases h with
  | @pop op ops a r hphase hprogram hremoval hpop =>
      have hinsert := hinserts op (hprogram ▸ List.mem_cons_self)
      rw [hremoval] at hinsert
      cases hinsert
  | _ => rfl

/-- A source after a step of a thread other than that of the dispatcher. -/
theorem Tended.other {P : Prop} {taken : List (Message α)} (h : Tended P taken acts p)
    (hact : p.act? (j + 1) = some (x, p')) : Tended P taken (acts ++ x.inBuffer (j + 1)) p' := by
  have hthread : ∀ t, p.state.threads[j + 1]? = some t → ∃ t', p'.state.threads[j + 1]? = some t' ∧
      t'.program <:+ t.program ∧ pops (acts ++ x.inBuffer (j + 1)) = pops acts := by
    intro t ht
    obtain ⟨t', ht', hsame | ⟨y, b', rfl, hstep⟩⟩ := thread_of_act hact ht
    · obtain ⟨rfl, rfl⟩ := hsame
      exact ⟨t', ht', List.suffix_rfl, by rw [Act.inBuffer, List.append_nil]⟩
    · refine ⟨t', ht', hstep.program_suffix, ?_⟩
      rw [Act.inBuffer, Buffer.pops_concat, popped_of_insertions hstep (h.writers j t ht)]
      exact List.append_nil _
  obtain ⟨t, ht⟩ : ∃ t, p.state.threads[j + 1]? = some t := by
    rcases act?_cases hact with ⟨hlocked, -, -⟩ | ⟨y, s, -, hstep, -, -⟩
    · obtain ⟨t, ht, -⟩ := h.kept.locked _ hlocked
      exact ⟨t, ht⟩
    · obtain ⟨t, -, -, ht, -⟩ := Buffer.act?_eq_some_iff.1 hstep
      exact ⟨t, ht⟩
  obtain ⟨t', ht', hsuffix, hpops⟩ := hthread t ht
  obtain ⟨u, hu, hown, hphase⟩ := h.own
  refine
    { kept := h.kept.act hact
      writers := fun k v hv op hop => ?_
      own := ⟨u, (threads_of_act hact (Nat.zero_ne_add_one j)).trans hu, by rwa [hpops], hphase⟩ }
  by_cases hkj : k = j
  · subst hkj
    cases hv.symm.trans ht'
    exact h.writers k t ht op (hsuffix.subset hop)
  · rw [threads_of_act hact (by omega)] at hv
    exact h.writers k v hv op hop

/-- The thread of the dispatcher after a step at a source. -/
theorem own_of_step {b b' : Buffer (Message α)} {t t' : Buffer.Thread (Message α)}
    {y : Buffer.Act (Message α)} {taken : List (Message α)} (h : Buffer.Step b t y b' t')
    (hprogram : t.program = [.tryRemove]) (hfits : t.Fits)
    (hpops : (pops acts).map Prod.snd = taken ++ t.inHand) :
    ((Act.does y).found? = none ∧ t'.program = [.tryRemove] ∧
        (pops (acts ++ [(0, y)])).map Prod.snd = taken ++ t'.inHand) ∨
      ∃ m : Option (Message α), (Act.does y).found? = some m ∧ t'.phase = .ready ∧
        (pops (acts ++ [(0, y)])).map Prod.snd = (taken ++ m.toList) ++ t'.inHand := by
  rw [Buffer.pops_concat, List.map_append, hpops]
  cases h with
  | permitPush hphase hinsert hpermits => cases hprogram.symm.trans hinsert
  | permitPop hphase hop hremoval hpermits =>
      exact .inl ⟨rfl, hprogram, by simp [Buffer.Act.popped, Buffer.Thread.inHand, hphase]⟩
  | refuse hphase hop hnone =>
      refine .inr ⟨none, rfl, rfl, ?_⟩
      simp [Buffer.Act.popped, Buffer.Thread.inHand, Buffer.Thread.done, hphase]
  | push hphase hinsert hpush => cases hprogram.symm.trans hinsert
  | @pop op ops a r hphase hop hremoval hpop =>
      exact .inl ⟨rfl, hprogram, by simp [Buffer.Act.popped, Buffer.Thread.inHand, hphase]⟩
  | @returnInsert op ops hphase hop hword =>
      -- an insertion is not what the dispatcher does here
      simp [Buffer.Thread.Fits, hphase, hprogram, Buffer.Operation.isRemoval] at hfits
  | @returnRemove op ops a hphase hop hword =>
      refine .inr ⟨some a, rfl, rfl, ?_⟩
      simp [Buffer.Act.popped, Buffer.Thread.inHand, Buffer.Thread.done, hphase]

/-- A source after a step of the dispatcher, which has found a message there, or none, or has not
come to an end. -/
theorem Tended.call {P : Prop} {taken : List (Message α)} (h : Tended P taken acts p)
    (hcall : p.call? .tryRemove = some (x, p')) :
    (x.found? = none ∧ Tended True taken (acts ++ x.inBuffer 0) p') ∨
      ∃ m : Option (Message α), x.found? = some m ∧
        Tended False (taken ++ m.toList) (acts ++ x.inBuffer 0) p' := by
  obtain ⟨u, hu, hpops, hphase⟩ := h.own
  have hbegin := thread_begin p .tryRemove hu
  have hkept : (p.begin .tryRemove).Kept acts := by
    rcases hphase with hready | ⟨-, hprogram⟩
    · exact h.kept.begin _ hu hready
    · rw [begin_eq_self hu hprogram]
      exact h.kept
  have hwriters : ∀ (j : Nat) (t : Buffer.Thread (Message α)), p'.state.threads[j + 1]? = some t →
      ∀ op ∈ t.program, op.isRemoval = false := by
    intro j t ht
    rw [threads_of_act hcall (Nat.succ_ne_zero j), threads_begin p _ hu,
      List.getElem?_set_ne (Nat.zero_ne_add_one j)] at ht
    exact h.writers j t ht
  obtain ⟨t', ht', hsame | ⟨y, b', rfl, hstep⟩⟩ := thread_of_act hcall hbegin
  · obtain ⟨rfl, rfl⟩ := hsame
    refine .inl ⟨rfl, hkept.act hcall, hwriters, _, ht', ?_, .inr ⟨trivial, rfl⟩⟩
    rw [Act.inBuffer, List.append_nil]
    exact hpops
  · obtain ⟨capacity, as, haccounted, -⟩ := hkept.ordered
    have hfits := haccounted.fits _ (List.mem_of_getElem? hbegin)
    rcases own_of_step hstep rfl hfits hpops with
      ⟨hfound, hprogram, hown⟩ | ⟨m, hfound, hready, hown⟩
    · exact .inl ⟨hfound, hkept.act hcall, hwriters, t', ht', hown, .inr ⟨trivial, hprogram⟩⟩
    · exact .inr ⟨m, hfound, hkept.act hcall, hwriters, t', ht', hown, .inl hready⟩

/-- What is left in a source when the dispatcher reads that it is empty: at most one message,
and this of an insertion that has not returned. -/
theorem Tended.left {taken : List (Message α)} (h : Tended False taken acts p)
    (hzero : p.hint = 0) :
    ∃ es left, arrivals acts = es ++ left ∧ es.map Arrival.message = taken ∧
      left.length ≤ 1 ∧ ∀ e ∈ left, e.returned = false := by
  obtain ⟨capacity, as, haccounted, horder⟩ := h.kept.ordered
  obtain ⟨u, hu, hpops, hphase⟩ := h.own
  have hready : u.phase = .ready := hphase.resolve_right fun hfalse => hfalse.1
  have hmessages : (arrivals acts).map Arrival.message = taken ++ as := by
    have hpushes := congrArg (List.map Prod.snd) (Buffer.map_arrivals acts)
    rw [List.map_map, ← horder, hpops] at hpushes
    simpa [Function.comp_def, Buffer.Thread.inHand, hready] using hpushes
  have hlen := haccounted.len
  cases hlocked : p.locked with
  | none =>
      have hnil : as = [] := by
        rw [← List.length_eq_zero_iff, ← hlen, ← h.kept.unlocked hlocked, hzero]
      refine ⟨arrivals acts, [], (List.append_nil _).symm, ?_, Nat.zero_le _,
        fun e he => absurd he List.not_mem_nil⟩
      rw [hmessages, hnil, List.append_nil]
  | some j =>
      obtain ⟨t, ht, ⟨-, hlag, es, a, harrivals⟩ | ⟨a, hpopped, -⟩⟩ := h.kept.locked j hlocked
      · have hone : as.length = 1 := by omega
        refine ⟨es, [⟨j, a, false⟩], harrivals, ?_, Nat.le_refl _, by simp⟩
        rw [harrivals, List.map_append] at hmessages
        exact (List.append_inj' hmessages hone.symm).1
      · -- nobody but the dispatcher takes a message out, and it is ready
        have hfits := haccounted.fits t (List.mem_of_getElem? ht)
        cases j with
        | zero =>
            cases hu.symm.trans ht
            cases hready.symm.trans hpopped
        | succ j =>
            have hinserts := h.writers j t ht
            cases hprogram : t.program with
            | nil => simp [Buffer.Thread.Fits, hpopped, hprogram] at hfits
            | cons op ops =>
                have hinsert := hinserts op (hprogram ▸ List.mem_cons_self)
                simp [Buffer.Thread.Fits, hpopped, hprogram, hinsert] at hfits

/-! ### Buffers of the categories -/

/-- The buffer of a category at which nothing has happened. -/
theorem Fresh.served {programs : List (List (Buffer.Operation (Message α)))} (h : p.Fresh programs)
    (doing : Option (Message α)) : Served doing [] [] p := by
  obtain ⟨capacity, b, -, hstate⟩ := h.made
  exact ⟨{ program := [] }, by rw [hstate]; rfl, .inl ⟨rfl, rfl⟩⟩

theorem Served.mono {doing doing' : Option (Message α)} {sent : List (Message α)}
    (h : Served doing sent acts p) (hdoing : doing = none) : Served doing' sent acts p := by
  obtain ⟨u, hu, hready | ⟨m, hm, -⟩⟩ := h
  · exact ⟨u, hu, .inl hready⟩
  · rw [hdoing] at hm
    cases hm

/-- What a step of a thread adds to what another has put in. -/
theorem messagesOf_inBuffer {k : Nat} (hkj : k ≠ j) (x : Act α) :
    messagesOf k (pushes (acts ++ x.inBuffer j)) = messagesOf k (pushes acts) := by
  cases x with
  | counts => rw [Act.inBuffer, List.append_nil]
  | does y => rw [Act.inBuffer, Buffer.pushes_concat, Buffer.messagesOf_append,
      if_neg (Ne.symm hkj), List.append_nil]

/-- The buffer of a category after a step of a thread other than that of the dispatcher. -/
theorem Served.other {doing : Option (Message α)} {sent : List (Message α)}
    (h : Served doing sent acts p) (hact : p.act? (j + 1) = some (x, p')) :
    Served doing sent (acts ++ x.inBuffer (j + 1)) p' := by
  obtain ⟨u, hu, hphase⟩ := h
  refine ⟨u, (threads_of_act hact (Nat.zero_ne_add_one j)).trans hu, ?_⟩
  rw [messagesOf_inBuffer (Nat.zero_ne_add_one j)]
  exact hphase

/-- The buffer of a category after a step of the dispatcher, by which its insertion returns or
does not. -/
theorem Served.call {m : Message α} {sent : List (Message α)} (h : Served (some m) sent acts p)
    (hcall : p.call? (.insert m) = some (x, p')) :
    (x = .does .returnInsert ∧ Served none (sent ++ [m]) (acts ++ x.inBuffer 0) p') ∨
      (x ≠ .does .returnInsert ∧ (∀ a, x = .does (.push a) → a = m) ∧
        Served (some m) sent (acts ++ x.inBuffer 0) p') := by
  obtain ⟨u, hu, hown⟩ := h
  have hbegin := thread_begin p (.insert m) hu
  have hphase : (u.phase = .ready ∧ messagesOf 0 (pushes acts) = sent) ∨
      (u.phase = .permitted ∧ messagesOf 0 (pushes acts) = sent) ∨
      (u.phase = .pushed ∧ messagesOf 0 (pushes acts) = sent ++ [m]) := by
    rcases hown with hready | ⟨m', hm, -, hgoing⟩
    · exact .inl hready
    · cases hm
      exact .inr hgoing
  obtain ⟨t', ht', hsame | ⟨y, b', rfl, hstep⟩⟩ := thread_of_act hcall hbegin
  · obtain ⟨rfl, rfl⟩ := hsame
    refine .inr ⟨nofun, nofun, _, ht', ?_⟩
    rw [Act.inBuffer, List.append_nil]
    rcases hphase with hready | hgoing
    · exact .inl hready
    · exact .inr ⟨m, rfl, rfl, hgoing⟩
  · have hsent : messagesOf 0 (pushes (acts ++ [(0, y)])) =
        messagesOf 0 (pushes acts) ++ y.pushed := by
      rw [Buffer.pushes_concat, Buffer.messagesOf_append, if_pos rfl]
    rw [Act.inBuffer]
    cases hstep with
    | permitPush hready hinsert hpermits =>
        refine .inr ⟨nofun, nofun, _, ht', .inr ⟨m, rfl, rfl, .inl ⟨rfl, ?_⟩⟩⟩
        have hready' : u.phase = .ready := hready
        simpa [hready', hsent, Buffer.Act.pushed] using hphase
    | permitPop hready hop hremoval hpermits =>
        cases hop
        cases hremoval
    | refuse hready hop hnone => cases hop
    | push hpermitted hinsert hpush =>
        cases hinsert
        refine .inr ⟨nofun, fun a ha => by cases ha; rfl, _, ht',
          .inr ⟨m, rfl, rfl, .inr ⟨rfl, ?_⟩⟩⟩
        have hpermitted' : u.phase = .permitted := hpermitted
        simpa [hpermitted', hsent, Buffer.Act.pushed] using hphase
    | pop hpermitted hop hremoval hpop =>
        cases hop
        cases hremoval
    | returnInsert hpushed hop hword =>
        refine .inl ⟨rfl, _, ht', .inl ⟨rfl, ?_⟩⟩
        have hpushed' : u.phase = .pushed := hpushed
        simpa [hpushed', hsent, Buffer.Act.pushed] using hphase
    | returnRemove hpopped hop hword =>
        have hpopped' : u.phase = .popped _ := hpopped
        simp [hpopped'] at hphase

end Newsroom.Port
