import Newsroom.Buffer.Session
import Newsroom.Proofs.Buffer.Attempt

/-!
# The answers of a session

What the caller of a session is told is what its operation comes to among the steps of the
threads, and it is told that an operation would block exactly if there is no order of the
steps in which that comes to an end.

## Main Definitions

* `NeverEnds` — a thread does not come to its end in whatever order the threads go on
* `Session.Orderly`, `Session.Settled` — a session between two requests
* `Session.Tells` — the answers, by what the machine can come to

## Main Statements

* `Settled.not_waits` — a caller that need not wait at once never has to
* `Settled.perform_eq_wouldBlock_iff` — when the caller is told that an operation would block
* `Settled.tells`, `Tells.settled` — every answer of a settled session is one that its machine can
  come to, and leaves it settled
* `tells_of_reachable` — so it is whatever the caller has asked for before

## Design Notes

A session asks its machine for one run only, and this run decides for all others: a caller
that has to wait at once waits for ever, since the other thread has come as far as it can
before.
-/

namespace Newsroom.Buffer

variable {α : Type} {capacity : Nat} {before : List α} {op : Operation α} {u : State α}
  {t : Thread α}

/-! ### Sessions -/

/-- A thread does not come to its end, in whatever order the threads take their steps. -/
def NeverEnds (s : State α) (i : Nat) : Prop :=
  ∀ u, Schedule.Reachable step? s u → ∀ t, u.threads[i]? = some t → ¬ t.isFinished

/-- Whether a thread of a kind takes messages out. -/
def Background.removes : Background → Bool
  | .inserting => false
  | .removing => true

namespace Session

variable {s s' : Session α} {caller : Thread α}

/-- The request for an operation. -/
def Request.ofOperation : Operation α → Request α
  | .insert a => .insert a
  | .remove => .remove
  | .tryRemove => .tryRemove

/-- The thread that a request starts. -/
def Request.thread? : Request α → Option (Background × List (Operation α))
  | .startInserting messages => some (.inserting, messages.map .insert)
  | .startRemoving n => some (.removing, List.replicate n .remove)
  | _ => .none

/-- A session at a buffer at rest, with a thread that is in the middle of nothing. -/
structure Orderly (capacity : Nat) (before : List α) (s : Session α) : Prop where
  atRest : s.buffer.AtRest capacity before
  background : ∀ kind t, s.background = some (kind, t) →
    t.phase = .ready ∧ ∀ op ∈ t.program, op.isRemoval = kind.removes

/-- A session whose thread has come as far as it can. -/
structure Settled (capacity : Nat) (before : List α) (s : Session α) : Prop
    extends Orderly capacity before s where
  waits : ∀ kind t, s.background = some (kind, t) → t.program = [] ∨ Waits s.buffer t

/-- What a session tells its caller of a request, with the session after it. -/
inductive Tells (s : Session α) : Request α → Session α → Answer α → Prop
  /-- The thread that was started has to be joined before. -/
  | busy {r : Request α} (hrefuses : s.refuses r = true) : Tells s r s .busy
  /-- The operation comes to its end, and does to the messages what it does to a queue. -/
  | ends {op : Operation α} {u : State α} {t : Thread α} {e : Effect α} {rest : List α}
      (hfree : s.refuses (.ofOperation op) = false)
      (hreach : Schedule.Reachable step? (s.machine { program := [op] }) u)
      (hstuck : ∀ i, step? u i = none) (ht : u.threads[0]? = some t) (hended : t.program = [])
      (heffects : t.effects = [e]) (hcompletes : Completes s.buffer.ring.contents rest op e) :
      Tells s (.ofOperation op) (s.after u) (.ofEffect e)
  /-- The operation never comes to its end. -/
  | blocks {op : Operation α} (hfree : s.refuses (.ofOperation op) = false)
      (hnever : NeverEnds (s.machine { program := [op] }) 0) :
      Tells s (.ofOperation op) s .wouldBlock
  /-- A thread is started, and comes as far as it can. -/
  | starts {r : Request α} {kind : Background} {program : List (Operation α)} {u : State α}
      (hthread : r.thread? = some (kind, program)) (hfree : s.refuses r = false)
      (hreach : Schedule.Reachable step?
        ({ s with background := some (kind, { program }) }.machine { program := [] }) u)
      (hstuck : ∀ i, step? u i = none) :
      Tells s r ({ s with background := some (kind, { program }) }.after u) .started
  /-- There is no thread to wait for. -/
  | nobody (hnone : s.background = none) : Tells s .join s .none
  /-- The thread has come to its end. -/
  | joins {kind : Background} {t : Thread α} (hsome : s.background = some (kind, t))
      (hended : t.program = []) : Tells s .join { s with background := none } (.ofThread kind t)
  /-- The thread never comes to its end. -/
  | waits (hsome : s.background.isSome = true)
      (hnever : NeverEnds (s.machine { program := [] }) 1) : Tells s .join s .wouldBlock

/-! ### Between two requests -/

theorem mem_machine (ht : t ∈ (s.machine caller).threads) :
    t = caller ∨ ∃ kind, s.background = some (kind, t) := by
  rcases List.mem_cons.1 ht with rfl | hbackground
  · exact .inl rfl
  · obtain ⟨⟨kind, t'⟩, hsome, rfl⟩ := Option.map_eq_some_iff.1 (Option.mem_toList.1 hbackground)
    exact .inr ⟨kind, hsome⟩

/-- The thread that was started is the second of the machine. -/
theorem machine_background {kind : Background} (hsome : s.background = some (kind, t)) :
    (s.machine caller).threads = [caller, t] := by
  simp [machine, hsome]

theorem Orderly.ready (h : s.Orderly capacity before) (hcaller : caller.phase = .ready) :
    ∀ t ∈ (s.machine caller).threads, t.phase = .ready := by
  intro t ht
  rcases mem_machine ht with rfl | ⟨kind, hsome⟩
  · exact hcaller
  · exact (h.background kind t hsome).1

/-- Where the machine of a session comes to rest the session is settled. -/
theorem Orderly.after (h : s.Orderly capacity before) (hword : capacity < Word.limit)
    (hcaller : caller.phase = .ready) (hreach : Schedule.Reachable step? (s.machine caller) u)
    (hstuck : ∀ i, step? u i = none) : ∃ after, (s.after u).Settled capacity after := by
  have haccounted : Accounted capacity before (s.machine caller) :=
    AtRest.accounted h.atRest (h.ready hcaller)
  obtain ⟨after, haccounted⟩ := haccounted.of_reachable hreach
  have hwaits := haccounted.ended_or_waits hword hstuck
  -- the thread that was started has kept its place, and the end of its program
  have hbackground : ∀ kind t', (s.after u).background = some (kind, t') →
      t' ∈ u.threads ∧ ∀ op ∈ t'.program, op.isRemoval = kind.removes := by
    intro kind t' hsome'
    obtain ⟨⟨kind, t⟩, hsome, heq⟩ := Option.map_eq_some_iff.1 hsome'
    have ht : (s.machine caller).threads[1]? = some t := by rw [machine_background hsome]; rfl
    obtain ⟨t₁, ht₁, hsuffix⟩ := exists_suffix_of_reachable hreach ht
    simp only [ht₁, Option.getD_some] at heq
    cases heq
    exact ⟨List.mem_of_getElem? ht₁, fun op hop =>
      (h.background kind t hsome).2 op (hsuffix.subset hop)⟩
  exact ⟨after,
    { atRest := haccounted.atRest fun t ht => (hwaits t ht).1
      background := fun kind t hsome =>
        ⟨(hwaits t (hbackground kind t hsome).1).1, (hbackground kind t hsome).2⟩
      waits := fun kind t hsome => (hwaits t (hbackground kind t hsome).1).2 }⟩

/-- A session at a buffer at rest with no thread is settled. -/
theorem settled_of_nobody (hrest : s.buffer.AtRest capacity before)
    (hnone : s.background = none) : s.Settled capacity before where
  atRest := hrest
  background _ _ hsome := by cases hnone.symm.trans hsome
  waits _ _ hsome := by cases hnone.symm.trans hsome

/-- A caller that has to wait leaves the machine of a settled session where it is. -/
theorem Settled.stuck (h : s.Settled capacity before)
    (hcaller : caller.program = [] ∨ Waits s.buffer caller) (i : Nat) :
    step? (s.machine caller) i = none := by
  refine stuck_of_waits (fun t ht => ?_) i
  rcases mem_machine ht with rfl | ⟨kind, hsome⟩
  · exact hcaller
  · exact h.waits kind t hsome

/-- A thread of a settled session that cannot go on never ends. -/
theorem Settled.neverEnds {i : Nat} (h : s.Settled capacity before)
    (hcaller : caller.program = [] ∨ Waits s.buffer caller)
    (ht : (s.machine caller).threads[i]? = some t) (hunfinished : t.program ≠ []) :
    NeverEnds (s.machine caller) i := by
  intro u hreach t' ht' hended
  rw [hreach.eq_of_stuck (h.stuck hcaller), ht] at ht'
  cases ht'
  exact hunfinished (List.isEmpty_iff.1 hended)

/-! ### Answers -/

/-- A request that is not refused leaves the thread to do something else than the caller. -/
theorem removes_of_not_refuses {kind : Background} (hfree : s.refuses (.ofOperation op) = false)
    (hsome : s.background = some (kind, t)) :
    kind.removes = !op.isRemoval ∧ op ≠ .tryRemove := by
  rw [refuses, hsome, Option.any_some] at hfree
  cases op <;> cases kind <;> simp_all [Request.ofOperation, Request.isRefusedBy,
    Background.removes, Operation.isRemoval]

/-- The caller begins its operation in a settled session. -/
theorem Settled.attempt (h : s.Settled capacity before)
    (hfree : s.refuses (.ofOperation op) = false) :
    Attempt capacity op before before (s.machine { program := [op] }) := by
  refine
    { accounted := AtRest.accounted h.atRest (h.ready rfl)
      caller := ⟨_, rfl, .inl ⟨rfl, rfl, ?_⟩⟩
      others := fun i t ht => ?_
      alone := fun htry => ?_ }
  · unfold Operation.Leaves
    split
    · exact ⟨List.prefix_rfl, id⟩
    · exact List.suffix_rfl
  · obtain ⟨⟨kind, t'⟩, hsome, rfl⟩ :=
      Option.map_eq_some_iff.1 (Option.mem_toList.1 (List.mem_of_getElem? ht))
    have hother := (removes_of_not_refuses hfree hsome).1
    have hkind := (h.background kind t' hsome).2
    refine ⟨fun op' hop' => (hkind op' hop').trans hother, fun hremoval hnil => ?_⟩
    -- there is room in an empty buffer, and it has nothing to remove
    rcases h.waits kind t' hsome with hended | ⟨-, ⟨a, ops, hprogram, hfull⟩ | ⟨ops, hprogram, -⟩⟩
    · exact hended
    · have hwrites := h.atRest.writes
      have hpos := Nat.zero_lt_of_lt h.atRest.ring.head_lt
      rw [hfull, hnil, List.length_nil] at hwrites
      omega
    · have hremove := hkind .remove (hprogram ▸ List.mem_cons_self)
      rw [hother, hremoval] at hremove
      cases hremove
  · cases hsome : s.background with
    | none => simp [machine, hsome]
    | some b => exact absurd htry (removes_of_not_refuses (t := b.2) hfree hsome).2

/-- A caller that need not wait at once never has to. -/
theorem Settled.not_waits (h : s.Settled capacity before) (hword : capacity < Word.limit)
    (hfree : s.refuses (.ofOperation op) = false)
    (hnow : ¬ Waits s.buffer ({ program := [op] } : Thread α))
    (hreach : Schedule.Reachable step? (s.machine { program := [op] }) u)
    (hstuck : ∀ i, step? u i = none) (ht : u.threads[0]? = some t) : ¬ Waits u.buffer t := by
  obtain ⟨now, hattempt⟩ := (h.attempt hfree).of_reachable hreach
  have hrest := hattempt.accounted.atRest fun v hv =>
    (hattempt.accounted.ended_or_waits hword hstuck v hv).1
  obtain ⟨c, hc, hdoes⟩ := hattempt.caller
  cases ht.symm.trans hc
  rintro ⟨hphase, hwaits⟩
  simp only [Thread.Does, hphase] at hdoes
  have hreads := h.atRest.reads
  have hwrites := h.atRest.writes
  rcases hwaits with ⟨a, ops, hprogram, hnone⟩ | ⟨ops, hprogram, hnone⟩
  · obtain ⟨hop, -, hleaves⟩ := hdoes.of_cons hprogram
    cases hop
    -- the buffer is full, and has been from the beginning
    have hle := List.IsSuffix.length_le (hleaves : now <:+ before)
    have hfull := hrest.writes
    exact hnow ⟨rfl, .inl ⟨a, [], rfl, by omega⟩⟩
  · obtain ⟨hop, -, hleaves⟩ := hdoes.of_cons hprogram
    cases hop
    have hle := List.IsPrefix.length_le (hleaves : before <+: now ∧ (before = [] → now = [])).1
    have hempty := hrest.reads
    exact hnow ⟨rfl, .inr ⟨[], rfl, by omega⟩⟩

/-- The caller is told what comes of its operation, or that it would block. -/
theorem Settled.perform_cases (h : s.Settled capacity before) (hword : capacity < Word.limit)
    (hfree : s.refuses (.ofOperation op) = false) :
    (NeverEnds (s.machine { program := [op] }) 0 ∧ s.perform op = (s, .wouldBlock)) ∨
      ∃ t e rest, (drive (s.machine { program := [op] })).threads[0]? = some t ∧
        t.program = [] ∧ t.effects = [e] ∧ Completes s.buffer.ring.contents rest op e ∧
        s.perform op = (s.after (drive (s.machine { program := [op] })), .ofEffect e) := by
  have hreach := reachable_drive (s.machine { program := [op] })
  have hstuck := drive_stuck (s.machine { program := [op] })
  by_cases hnow : Waits s.buffer ({ program := [op] } : Thread α)
  · have hsame := hreach.eq_of_stuck (h.stuck (.inr hnow))
    refine .inl ⟨h.neverEnds (.inr hnow) rfl (List.cons_ne_nil op []), ?_⟩
    simp only [perform, hsame]
    rfl
  · obtain ⟨now, hattempt⟩ := (h.attempt hfree).of_reachable hreach
    obtain ⟨t, ht, hdoes⟩ := hattempt.caller
    obtain ⟨hphase, hended⟩ :=
      hattempt.accounted.ended_or_waits hword hstuck t (List.mem_of_getElem? ht)
    replace hended := hended.resolve_right (h.not_waits hword hfree hnow hreach hstuck ht)
    simp only [Thread.Does, hphase] at hdoes
    obtain ⟨e, rest, heffects, hcompletes⟩ := hdoes.of_nil hended
    rw [← h.atRest.ring.contents_eq] at hcompletes
    refine .inr ⟨t, e, rest, ht, hended, heffects, hcompletes, ?_⟩
    simp [perform, List.head?_eq_getElem?, ht, heffects]

theorem Settled.tells_perform (h : s.Settled capacity before) (hword : capacity < Word.limit)
    (op : Operation α) (hfree : s.refuses (.ofOperation op) = false) :
    s.Tells (.ofOperation op) (s.perform op).1 (s.perform op).2 := by
  rcases h.perform_cases hword hfree with
    ⟨hnever, hperform⟩ | ⟨t, e, rest, ht, hended, heffects, hcompletes, hperform⟩
  · rw [hperform]
    exact .blocks hfree hnever
  · rw [hperform]
    exact .ends hfree (reachable_drive _) (drive_stuck _) ht hended heffects hcompletes

/-- The caller is told that an operation would block exactly if that never comes to its end. -/
theorem Settled.perform_eq_wouldBlock_iff (h : s.Settled capacity before)
    (hword : capacity < Word.limit) (hfree : s.refuses (.ofOperation op) = false) :
    (s.perform op).2 = .wouldBlock ↔ NeverEnds (s.machine { program := [op] }) 0 := by
  rcases h.perform_cases hword hfree with
    ⟨hnever, hperform⟩ | ⟨t, e, rest, ht, hended, -, -, hperform⟩
  · exact ⟨fun _ => hnever, fun _ => by rw [hperform]⟩
  · rw [hperform]
    have htold : Answer.ofEffect e ≠ .wouldBlock := by cases e <;> exact nofun
    refine ⟨fun hblocked => absurd hblocked htold, fun hnever => ?_⟩
    exact absurd (List.isEmpty_iff.2 hended) (hnever _ (reachable_drive _) t ht)

/-- Every answer of a settled session is one that its machine can come to. -/
theorem Settled.tells (h : s.Settled capacity before) (hword : capacity < Word.limit)
    (r : Request α) : s.Tells r (s.step r).1 (s.step r).2 := by
  cases hrefuses : s.refuses r with
  | true =>
      simp only [step, hrefuses, if_true]
      exact .busy hrefuses
  | false =>
      have hlaunch : ∀ kind program, r.thread? = some (kind, program) →
          s.Tells r (s.launch kind program).1 (s.launch kind program).2 := by
        intro kind program hthread
        exact .starts hthread hrefuses (reachable_drive _) (drive_stuck _)
      simp only [step, hrefuses, Bool.false_eq_true, if_false]
      cases r with
      | insert a => exact h.tells_perform hword (.insert a) hrefuses
      | remove => exact h.tells_perform hword .remove hrefuses
      | tryRemove => exact h.tells_perform hword .tryRemove hrefuses
      | startInserting messages => exact hlaunch _ _ rfl
      | startRemoving n => exact hlaunch _ _ rfl
      | join =>
          dsimp only [join]
          split
          · next hnone => exact .nobody hnone
          · next kind t hsome =>
            split
            · next hended => exact .joins hsome (List.isEmpty_iff.1 hended)
            · next hunfinished =>
              have ht : (s.machine { program := [] }).threads[1]? = some t := by
                rw [machine_background hsome]
                rfl
              exact .waits (by rw [hsome]; rfl)
                (h.neverEnds (.inl rfl) ht (mt List.isEmpty_iff.2 hunfinished))

/-- A session is settled again after each request. -/
theorem Tells.settled {r : Request α} {answer : Answer α} (htells : s.Tells r s' answer)
    (h : s.Settled capacity before) (hword : capacity < Word.limit) :
    ∃ after, s'.Settled capacity after := by
  cases htells with
  | busy hrefuses => exact ⟨before, h⟩
  | ends hfree hreach hstuck ht hended heffects hcompletes =>
      exact h.toOrderly.after hword rfl hreach hstuck
  | blocks hfree hnever => exact ⟨before, h⟩
  | @starts r kind program u hthread hfree hreach hstuck =>
      have horderly : Orderly capacity before
          { s with background := some (kind, { program }) } := by
        refine { atRest := h.atRest, background := fun kind' t hsome => ?_ }
        cases hsome
        refine ⟨rfl, fun op hop => ?_⟩
        cases r with
        | startInserting messages =>
            cases hthread
            obtain ⟨a, -, rfl⟩ := List.mem_map.1 hop
            rfl
        | startRemoving n =>
            cases hthread
            rw [List.eq_of_mem_replicate hop]
            rfl
        | _ => cases hthread
      exact horderly.after hword rfl hreach hstuck
  | nobody hnone => exact ⟨before, h⟩
  | joins hsome hended =>
      exact ⟨before, settled_of_nobody h.atRest rfl⟩
  | waits hsome hnever => exact ⟨before, h⟩

/-- A session is settled whatever its caller has asked for. -/
theorem settled_of_reachable {name : String} {s₀ : Session α} {capacity : UInt64}
    (hstart : start name capacity.toNat = .ok s₀)
    (hreach : Schedule.Reachable (fun s r => some (step s r).1) s₀ s) :
    ∃ before, s.Settled capacity.toNat before := by
  refine hreach.invariant (P := fun s => ∃ before, s.Settled capacity.toNat before) ?_ ?_
  · unfold start at hstart
    cases hmake : Buffer.make (α := α) name capacity.toNat with
    | error fault =>
        rw [hmake] at hstart
        cases hstart
    | ok b =>
        rw [hmake] at hstart
        cases hstart
        exact ⟨[], settled_of_nobody (atRest_of_make hmake) rfl⟩
  · rintro s r s' ⟨before, h⟩ hstep
    cases hstep
    exact (h.tells (toNat_lt_limit capacity) r).settled h (toNat_lt_limit capacity)

/-- Whatever a caller has asked for before, what it is told is what its machine can come to. -/
theorem tells_of_reachable {name : String} {s₀ : Session α} {capacity : UInt64}
    (hstart : start name capacity.toNat = .ok s₀)
    (hreach : Schedule.Reachable (fun s r => some (step s r).1) s₀ s) (r : Request α) :
    s.Tells r (s.step r).1 (s.step r).2 := by
  obtain ⟨before, h⟩ := settled_of_reachable hstart hreach
  exact h.tells (toNat_lt_limit capacity) r

end Session

end Newsroom.Buffer
