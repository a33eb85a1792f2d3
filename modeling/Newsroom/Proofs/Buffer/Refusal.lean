import Newsroom.Proofs.Buffer.Fifo

/-!
# Removals that find nothing

A removal that does not wait is refused when no message is announced.  What is in the ring then,
and of which of it the insertion had returned.

## Main Definitions

* `Arrival` — a message that went into the ring, and whether its insertion has returned
* `arrivals` — the insertions along a trace
* `waiting`, `gone` — those whose message is in the ring, and those whose message has come out

## Main Statements

* `arrivals_concat` — what a further act changes of the insertions before it
* `Pending.act` — an insertion that has not returned is that of a thread that owes its permit
* `refused_when_unannounced` — the messages in the ring when a removal is refused
* `refused_while_returned` — a removal is refused although an insertion has returned

## Design Notes

A permit does not say which message it announces.  A thread may take out a message whose
insertion has not returned, with the permit of a later one; the message of the later one is
then in the ring without a permit, until the first insertion returns.
-/

namespace Newsroom.Buffer

variable {α : Type} {capacity : Nat} {s s' : State α} {acts : List (Nat × Act α)}

/-- A message that went into the ring. -/
structure Arrival (α : Type) where
  /-- The thread that put it in. -/
  thread : Nat
  message : α
  /-- Whether the insertion has returned. -/
  returned : Bool
  deriving DecidableEq, Repr

/-- Whether a step completes an insertion. -/
def Act.endsInsertion : Act α → Bool
  | .returnInsert => true
  | _ => false

/-- The messages that went into the ring along a trace, in this order.  An insertion has
returned if its thread completes one later. -/
def arrivals : List (Nat × Act α) → List (Arrival α)
  | [] => []
  | (i, x) :: acts =>
      (x.pushed.map fun a => ⟨i, a, acts.any fun e => e.1 = i && e.2.endsInsertion⟩) ++
        arrivals acts

/-- The insertions along a trace whose messages have come out of the ring. -/
def gone (acts : List (Nat × Act α)) : List (Arrival α) :=
  (arrivals acts).take (pops acts).length

/-- The insertions along a trace whose messages are in the ring. -/
def waiting (acts : List (Nat × Act α)) : List (Arrival α) :=
  (arrivals acts).drop (pops acts).length

/-- An insertion after an act of some thread. -/
def Arrival.after (e : Arrival α) (i : Nat) (x : Act α) : Arrival α :=
  { e with returned := e.returned || (i = e.thread && x.endsInsertion) }

/-! ### The insertions along a trace -/

/-- A further act adds the message that it puts in, and may complete an insertion. -/
theorem arrivals_concat (i : Nat) (x : Act α) :
    arrivals (acts ++ [(i, x)]) =
      (arrivals acts).map (fun e => e.after i x) ++ x.pushed.map fun a => ⟨i, a, false⟩ := by
  induction acts with
  | nil => simp [arrivals]
  | cons e acts ih =>
      rw [List.cons_append, arrivals, ih, arrivals]
      simp [Arrival.after, Function.comp_def]

/-- They are the messages that went in, each with its thread. -/
theorem map_arrivals (acts : List (Nat × Act α)) :
    (arrivals acts).map (fun e => (e.thread, e.message)) = pushes acts := by
  induction acts with
  | nil => rfl
  | cons e acts ih =>
      rw [arrivals, List.map_append, ih, pushes, pushes, List.flatMap_cons]
      simp [Function.comp_def]

/-- What is in the ring, if what came out of it and what is in it is what went in. -/
theorem map_waiting {as : List α}
    (h : (pops acts).map Prod.snd ++ as = (pushes acts).map Prod.snd) :
    (waiting acts).map Arrival.message = as := by
  have hmessages : (arrivals acts).map Arrival.message = (pushes acts).map Prod.snd := by
    rw [← map_arrivals, List.map_map]
    rfl
  rw [waiting, List.map_drop, hmessages, ← h, ← List.length_map (f := Prod.snd), List.drop_left]

/-- Every insertion is in the ring or has left it. -/
theorem countP_gone_add_waiting (p : Arrival α → Bool) (acts : List (Nat × Act α)) :
    (gone acts).countP p + (waiting acts).countP p = (arrivals acts).countP p := by
  rw [gone, waiting, ← List.countP_append, List.take_append_drop]

/-! ### Insertions that have not returned -/

/-- Whether the insertions of a thread have returned, in turn. -/
def returnsOf (j : Nat) (acts : List (Nat × Act α)) : List Bool :=
  ((arrivals acts).filter fun e => e.thread = j).map Arrival.returned

/-- An insertion that has not returned is the last of a thread that owes a permit. -/
structure Pending (s : State α) (acts : List (Nat × Act α)) : Prop where
  last : ∀ j : Nat, ∃ k, returnsOf j acts =
    List.replicate k true ++ if s.threads[j]?.map Thread.role = some .pushed then [false] else []
  total : (arrivals acts).countP (fun e => !e.returned) = s.count .pushed

/-- A step puts a message in and leaves its thread owing a permit, or gives back what the thread
owes, or does neither. -/
theorem Step.owes {b b' : Buffer α} {t t' : Thread α} {x : Act α} (h : Step b t x b' t') :
    (t.role ≠ .pushed ∧ t'.role = .pushed ∧ x.pushed.length = 1 ∧ x.endsInsertion = false) ∨
      (t.role = .pushed ∧ t'.role ≠ .pushed ∧ x.pushed = [] ∧ x.endsInsertion = true) ∨
      (t.role ≠ .pushed ∧ t'.role ≠ .pushed ∧ x.pushed = [] ∧ x.endsInsertion = false) := by
  cases h with
  | permitPush hphase hprogram hpermits =>
      exact .inr (.inr ⟨by simp [Thread.role, hphase], by simp [Thread.role, hprogram], rfl, rfl⟩)
  | permitPop hphase hprogram hremoval hpermits =>
      have hrole : ({ t with phase := .permitted } : Thread α).role = .popping :=
        Thread.role_of_removal rfl hprogram hremoval
      exact .inr (.inr ⟨by simp [Thread.role, hphase], by simp [hrole], rfl, rfl⟩)
  | refuse hphase hprogram hnone =>
      exact .inr (.inr
        ⟨by simp [Thread.role, hphase], by simp [Thread.role, Thread.done], rfl, rfl⟩)
  | push hphase hprogram hpush =>
      exact .inl
        ⟨by simp [Thread.role, hphase, hprogram], by simp [Thread.role, hprogram], rfl, rfl⟩
  | pop hphase hprogram hremoval hpop =>
      have hrole := Thread.role_of_removal hphase hprogram hremoval
      exact .inr (.inr ⟨by simp [hrole], by simp [Thread.role, hprogram], rfl, rfl⟩)
  | returnInsert hphase hprogram hword =>
      exact .inr (.inl ⟨by simp [Thread.role, hphase, hprogram],
        by simp [Thread.role, Thread.done], rfl, rfl⟩)
  | returnRemove hphase hprogram hword =>
      exact .inr (.inr ⟨by simp [Thread.role, hphase, hprogram],
        by simp [Thread.role, Thread.done], rfl, rfl⟩)

/-- The insertions of a thread after a further act of its own or of another thread. -/
theorem returnsOf_concat (j i : Nat) (x : Act α) :
    returnsOf j (acts ++ [(i, x)]) =
      (returnsOf j acts).map (fun r => r || (i = j && x.endsInsertion)) ++
        if i = j then List.replicate x.pushed.length false else [] := by
  have hthread : ∀ e : Arrival α, (e.after i x).thread = e.thread := fun _ => rfl
  rw [returnsOf, arrivals_concat, List.filter_append, List.map_append, List.filter_map,
    returnsOf, List.map_map, List.map_map]
  congr 1
  · refine List.map_congr_left fun e he => ?_
    have hj : e.thread = j := by simpa [hthread] using (List.mem_filter.1 he).2
    simp [Arrival.after, hj]
  · by_cases hij : i = j
    · have hall : ((x.pushed.map fun a => (⟨i, a, false⟩ : Arrival α)).filter
          fun e => e.thread = j) = x.pushed.map fun a => ⟨i, a, false⟩ := by
        refine List.filter_eq_self.2 fun e he => ?_
        obtain ⟨a, -, rfl⟩ := List.mem_map.1 he
        exact decide_eq_true hij
      rw [if_pos hij, hall, List.map_map]
      exact List.map_const'
    · simp [hij]

/-- An act that completes the insertions of a thread leaves those of the others. -/
theorem countP_after (i : Nat) (x : Act α) (es : List (Arrival α)) :
    (es.map fun e => e.after i x).countP (fun e => !e.returned) +
        (if x.endsInsertion then
          ((es.filter fun e => e.thread = i).map Arrival.returned).countP (!·) else 0) =
      es.countP fun e => !e.returned := by
  induction es with
  | nil => simp
  | cons e es ih =>
      by_cases hends : x.endsInsertion = true
      · simp only [hends, if_true] at ih ⊢
        by_cases hthread : e.thread = i
        · cases hreturned : e.returned <;>
            simp [Arrival.after, hends, hthread, hreturned] at ih ⊢ <;> omega
        · cases hreturned : e.returned <;>
            simp [Arrival.after, hends, Ne.symm hthread, hthread, hreturned] at ih ⊢ <;> omega
      · simp [Arrival.after, hends]

/-- What of a thread has not returned stays the last of its arrivals, and is counted by the
threads that owe a permit. -/
theorem Pending.act {i : Nat} {x : Act α} (h : Pending s acts)
    (hact : act? s i = some (x, s')) : Pending s' (acts ++ [(i, x)]) := by
  obtain ⟨t, b', t', ht, hstep, rfl⟩ := act?_eq_some_iff.1 hact
  obtain ⟨k, hk⟩ := h.last i
  simp only [ht, Option.map_some, Option.some.injEq] at hk
  have howes := hstep.owes
  constructor
  · intro j
    rw [returnsOf_concat, getElem?_set_of_some ht]
    by_cases hji : j = i
    · subst hji
      rw [if_pos rfl, if_pos rfl, hk]
      rcases howes with ⟨hrole, hrole', hpushed, hends⟩ | ⟨hrole, hrole', hpushed, hends⟩ |
        ⟨hrole, hrole', hpushed, hends⟩
      · exact ⟨k, by simp [hrole, hrole', hpushed, hends]⟩
      · exact ⟨k + 1, by simp [hrole, hrole', hpushed, hends, List.replicate_succ']⟩
      · exact ⟨k, by simp [hrole, hrole', hpushed, hends]⟩
    · obtain ⟨n, hn⟩ := h.last j
      rw [if_neg hji, hn]
      exact ⟨n, by simp [Ne.symm hji]⟩
  · have hcount := count_set ht b' t' .pushed
    have htotal := h.total
    have hafter := countP_after i x (arrivals acts)
    have hown : ((returnsOf i acts).countP (!·)) = if t.role = .pushed then 1 else 0 := by
      rw [hk]
      split <;> simp [List.countP_replicate]
    rw [← returnsOf, hown] at hafter
    rw [arrivals_concat, List.countP_append]
    have hnew : (x.pushed.map fun a => (⟨i, a, false⟩ : Arrival α)).countP (fun e => !e.returned) =
        x.pushed.length := by
      simp [List.countP_map, Function.comp_def]
    rw [hnew]
    rcases howes with ⟨hrole, hrole', hpushed, hends⟩ | ⟨hrole, hrole', hpushed, hends⟩ |
        ⟨hrole, hrole', hpushed, hends⟩ <;>
      simp only [hrole, hrole', hpushed, hends, if_true, if_false, List.length_nil,
        Bool.false_eq_true] at hcount hafter ⊢ <;> omega

theorem pending_of_trace? {b : Buffer α} {programs : List (List (Operation α))} {is : List Nat}
    (htrace : trace? (State.start b programs) is = some (acts, s)) : Pending s acts := by
  apply trace_invariant (P := Pending) ?_ ?_ htrace (J := [])
  · intro s J i x s' hpending hact
    exact hpending.act hact
  · refine ⟨fun j => ⟨0, ?_⟩, ?_⟩
    · have hrole : (State.start b programs).threads[j]?.map Thread.role ≠ some .pushed := by
        simp [State.start, Thread.role]
      rw [if_neg hrole]
      rfl
    · rw [count_of_ready (ready_start b programs) (by decide)]
      rfl

/-! ### Refusals -/

/-- If all insertions are those of one thread, and a message is in the ring, then those whose
messages have come out have returned. -/
theorem Pending.countP_gone {j : Nat} (h : Pending s acts) (hown : ∀ e ∈ pushes acts, e.1 = j)
    (hring : waiting acts ≠ []) : (gone acts).countP (fun e => !e.returned) = 0 := by
  obtain ⟨k, hk⟩ := h.last j
  have hall : (arrivals acts).filter (fun e => e.thread = j) = arrivals acts := by
    refine List.filter_eq_self.2 fun e he => decide_eq_true ?_
    refine hown (e.thread, e.message) ?_
    rw [← map_arrivals]
    exact List.mem_map_of_mem he
  have hsplit : (gone acts).map Arrival.returned ++ (waiting acts).map Arrival.returned =
      List.replicate k true ++
        if s.threads[j]?.map Thread.role = some .pushed then [false] else [] := by
    rw [← hk, returnsOf, hall, ← List.map_append, gone, waiting, List.take_append_drop]
  have hlength := congrArg List.length hsplit
  have hpos := List.length_pos_iff.2 hring
  -- one insertion at most has not returned, and that is the last
  have hle : ((gone acts).map Arrival.returned).length ≤ (List.replicate k true).length := by
    simp only [List.length_append, List.length_map, List.length_replicate] at hlength ⊢
    split at hlength <;> simp at hlength <;> omega
  obtain ⟨rest, hrest⟩ := List.prefix_of_prefix_length_le ⟨_, hsplit⟩ (List.prefix_append _ _) hle
  refine List.countP_eq_zero.2 fun e he => ?_
  have hmem : e.returned ∈ List.replicate k true := by
    rw [← hrest]
    exact List.mem_append_left rest (List.mem_map_of_mem he)
  simp [List.eq_of_mem_replicate hmem]

/-- What is in the ring when a removal that does not wait is refused.  The messages of which the
insertion had returned are as many as the threads that held a permit to take one out, and the
insertions that had not returned although their message had come out.  So there are no more
than those threads if one thread alone has put messages in. -/
theorem refused_when_unannounced {name : String} {b : Buffer α}
    {programs : List (List (Operation α))} {is : List Nat} {i : Nat}
    (hmake : Buffer.make name capacity = .ok b)
    (htrace : trace? (State.start b programs) is = some (acts, s))
    (hrefuse : act? s i = some (.refuse, s')) :
    s.buffer.readSlots.permits = 0 ∧
    (∃ t, s.threads[i]? = some t ∧ t.role = .outside) ∧
    (waiting acts).map Arrival.message = s.buffer.ring.contents ∧
    (waiting acts).countP Arrival.returned =
      s.count .popping + (gone acts).countP (fun e => !e.returned) ∧
    ∀ j, (∀ e ∈ pushes acts, e.1 = j) →
      (waiting acts).countP Arrival.returned = s.count .popping := by
  obtain ⟨as, haccounted, horder⟩ := ordered_of_trace? hmake htrace
  have hpending := pending_of_trace? htrace
  obtain ⟨t, b', t', ht, hstep, -⟩ := act?_eq_some_iff.1 hrefuse
  obtain ⟨hnone, houtside⟩ : s.buffer.readSlots.permits = 0 ∧ t.role = .outside := by
    cases hstep with
    | refuse hphase hprogram hnone => exact ⟨hnone, by simp [Thread.role, hphase]⟩
  have hwaiting := map_waiting horder
  have hreads := haccounted.reads
  have hbalance : (waiting acts).countP Arrival.returned =
      s.count .popping + (gone acts).countP fun e => !e.returned := by
    have htotal := hpending.total
    have hsplit := countP_gone_add_waiting (fun e => !e.returned) acts
    have hkinds : (waiting acts).countP Arrival.returned +
        (waiting acts).countP (fun e => !e.returned) = as.length := by
      rw [← hwaiting, List.length_map]
      simpa using (List.length_eq_countP_add_countP Arrival.returned).symm
    omega
  refine ⟨hnone, ⟨t, ht, houtside⟩, ?_, hbalance, fun j hown => ?_⟩
  · rw [hwaiting, haccounted.ring.contents_eq]
  · by_cases hring : waiting acts = []
    · rw [hring, List.map_nil] at hwaiting
      rw [← hwaiting, List.length_nil] at hreads
      rw [hring, List.countP_nil]
      omega
    · rw [hbalance, hpending.countP_gone hown hring, Nat.add_zero]

/-- Three threads that put in or take out a message each, and one that tries to. -/
def fourPrograms : List (List (Operation Nat)) :=
  [[.insert 5], [.insert 6], [.remove], [.tryRemove]]

/-- While a thread holds the permit of the only message, another removal is refused. -/
theorem refused_when_unannounced_held :
    ∃ acts s s', trace? (State.start (empty 2) fourPrograms) [0, 0, 0, 2] = some (acts, s) ∧
      act? s 3 = some (.refuse, s') ∧ s.count .popping = 1 ∧
      (waiting acts).countP Arrival.returned = 1 := by
  have htrace : ((trace? (State.start (empty 2) fourPrograms) [0, 0, 0, 2]).any fun r =>
      (act? r.2 3).any (fun q => q.1 = .refuse) ∧ r.2.count .popping = 1 ∧
        ∀ e ∈ pushes r.1, e.1 = 0) = true := by
    decide +kernel
  obtain ⟨⟨acts, s⟩, hs, hat⟩ := (Option.any_eq_true _ _).1 htrace
  obtain ⟨hrefuse, hpopping, hown⟩ := of_decide_eq_true hat
  obtain ⟨⟨x, s'⟩, hact, hx⟩ := (Option.any_eq_true _ _).1 hrefuse
  obtain rfl : x = .refuse := of_decide_eq_true hx
  have hmake : Buffer.make "pair" 2 = .ok (empty 2 : Buffer Nat) := rfl
  have hreturned := (refused_when_unannounced hmake hs hact).2.2.2.2 0 hown
  exact ⟨acts, s, s', hs, hact, hpopping, hreturned.trans hpopping⟩

/-- A removal is refused although a message is in the ring whose insertion has returned, and no
thread holds a permit to take it out: its permit was spent on the message before it, whose
insertion has not returned. -/
theorem refused_while_returned :
    Buffer.make "pair" 2 = .ok (empty 2 : Buffer Nat) ∧
    ∃ acts s s', trace? (State.start (empty 2) fourPrograms) [0, 0, 1, 1, 1, 2, 2, 2] =
        some (acts, s) ∧
      act? s 3 = some (.refuse, s') ∧ waiting acts = [⟨1, 6, true⟩] ∧ s.count .popping = 0 := by
  have htrace : ((trace? (State.start (empty 2) fourPrograms) [0, 0, 1, 1, 1, 2, 2, 2]).any
      fun r => (act? r.2 3).any (fun q => q.1 = .refuse) ∧ waiting r.1 = [⟨1, 6, true⟩] ∧
        r.2.count .popping = 0) = true := by
    decide +kernel
  obtain ⟨⟨acts, s⟩, hs, hat⟩ := (Option.any_eq_true _ _).1 htrace
  obtain ⟨hrefuse, hwaiting, hpopping⟩ := of_decide_eq_true hat
  obtain ⟨⟨x, s'⟩, hact, hx⟩ := (Option.any_eq_true _ _).1 hrefuse
  obtain rfl : x = .refuse := of_decide_eq_true hx
  exact ⟨rfl, acts, s, s', hs, hact, hwaiting, hpopping⟩

end Newsroom.Buffer
